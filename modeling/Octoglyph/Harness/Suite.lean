import Octoglyph.Toml.Document

/-! # Programs with their expected behaviour -/

namespace Octoglyph

structure Case where
  /-- Tells cases apart. -/
  name : Text
  program : Text
  /-- The exact output. -/
  stdout : Text := []
  /-- A part of the error output. -/
  stderr : Text := []
  /-- Statements to run behind the program, one a line. -/
  postChecks : List Text := []
deriving DecidableEq, Repr

/-- The text with the checks behind it. -/
def Case.withPostChecks (c : Case) (text : Text) : Text :=
  text ++ '\n' :: ['\n'].intercalate c.postChecks

structure Suite where
  cases : List Case := []
deriving DecidableEq, Repr

namespace Suite

/-- Puts the case in the place of the first of its name, or at the end. -/
def put (c : Case) : List Case → List Case
  | [] => [c]
  | d :: rest => if d.name = c.name then c :: rest else d :: put c rest

/-- Adds the cases of another suite, which replace those of the same name. -/
def merge (suite other : Suite) : Suite :=
  ⟨other.cases.foldl (fun cases c => put c cases) suite.cases⟩

/-- The cases that are always at hand. -/
def builtIn : Suite where
  cases := [
    { name := "assignment".toList
      program := "c=8".toList
      postChecks := ["assert(c==8)".toList] },
    { name := "print".toList
      program := "print(3)".toList
      stdout := "3\n".toList },
    { name := "percent".toList
      program := "print(\"%\", 100 % 7)".toList
      stdout := "% 2\n".toList },
    { name := "multiline".toList
      program := "c=8\nprint(3*c+1)".toList
      stdout := "25\n".toList
      postChecks := ["assert(c==8)".toList] },
    { name := "function".toList
      program := "def f(k):\n    print(k)\nf(1)\nf(2)".toList
      stdout := "1\n2\n".toList
      postChecks := ["assert(callable(f))".toList] },
    { name := "zero-division".toList
      program := "1/0".toList
      stderr := "ZeroDivisionError: division by zero".toList }]

/-- The fields of a case by position; those behind the second may be left out. -/
def fieldNames : List String := ["name", "program", "stdout", "stderr", "post_checks"]

/-- A case from its fields; others are passed over. -/
def caseOfEntries (entries : Toml.Entries) : Except Toml.Problem Case := do
  return {
    name := ← entries.required "name" Toml.Value.text?
    program := ← entries.required "program" Toml.Value.text?
    stdout := ← entries.field "stdout" Toml.Value.text? []
    stderr := ← entries.field "stderr" Toml.Value.text? []
    postChecks := ← entries.field "post_checks" Toml.Value.texts? [] }

/-- A case from a table, or from an array with its fields in order. -/
def caseOfValue : Toml.Value → Except Toml.Problem Case
  | .table _ entries => caseOfEntries entries
  | .array items => caseOfEntries ((fieldNames.map String.toList).zip items)
  | _ => .error (.wrongValue "case".toList)

/-- The cases that a document lists under `case`; other keys are passed over. -/
def ofToml (text : Text) : Except Toml.Problem Suite := do
  let entries ← Toml.document text
  let items ← entries.field "case" Toml.Value.items? []
  return ⟨← items.mapM caseOfValue⟩

/-- What is said of a document that is refused. -/
def refusal (problem : Toml.Problem) : String :=
  "Failed to parse cases: " ++ problem.message

end Suite

end Octoglyph
