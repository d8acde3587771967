import Octoglyph.Encoder.Encode
import Octoglyph.Harness.Suite

/-! # Checking encodings against their programs

A program and its encoding are both run, with and without the checks behind them, and every run is
held against what the case expects.
-/

namespace Octoglyph

/-- What running a program produced. -/
structure Execution where
  stdout : Text := []
  stderr : Text := []
  success : Bool := false
deriving DecidableEq, Repr

/-- Which text is run. -/
inductive RunKind where
  | program
  | programChecked
  | encoding
  | encodingChecked
deriving DecidableEq, Repr

namespace RunKind

def all : List RunKind := [.program, .programChecked, .encoding, .encodingChecked]

def label : RunKind → String
  | .program => "original"
  | .programChecked => "original + checks"
  | .encoding => "encoded"
  | .encodingChecked => "encoded + checks"

/-- The text to run for a case with the given encoding. -/
def text (c : Case) (encoding : Text) : RunKind → Text
  | .program => c.program
  | .programChecked => c.withPostChecks c.program
  | .encoding => encoding
  | .encodingChecked => c.withPostChecks encoding

end RunKind

/-- A run, with the way in which it is not as expected. -/
structure Run where
  kind : RunKind
  failure : Option String
deriving DecidableEq, Repr

/-- A case checked under one strategy. -/
structure CaseResult where
  name : Text
  strategy : Strategy
  inputLength : Nat
  encodedLength : Nat := 0
  runs : List Run := []
  /-- Why nothing was run. -/
  error : Option String := none
  milliseconds : Nat := 0
deriving DecidableEq, Repr

def CaseResult.passed (r : CaseResult) : Bool :=
  r.error.isNone && r.runs.all fun run => run.failure.isNone

structure Summary where
  total : Nat := 0
  passed : Nat := 0
  failed : Nat := 0
  results : List CaseResult := []
deriving DecidableEq, Repr

/-- Counts one more result. -/
def Summary.add (s : Summary) (r : CaseResult) : Summary where
  total := s.total + 1
  passed := if r.passed then s.passed + 1 else s.passed
  failed := if r.passed then s.failed else s.failed + 1
  results := s.results ++ [r]

/-- Runs programs and tells the time, in milliseconds. -/
structure Bench (m : Type → Type) where
  run : Text → m (Except String Execution)
  now : m Nat

namespace Harness

/-- How an answer differs from what the case expects. The error output need only contain what is
expected. -/
def failure? (c : Case) : Except String Execution → Option String
  | .error message => some message
  | .ok execution =>
    if execution.stdout ≠ c.stdout then
      some ("Expected stdout: " ++ c.stdout.quoted ++ ", but got: " ++ execution.stdout.quoted)
    else if !execution.stderr.includes c.stderr then
      some ("Expected stderr to contain " ++ c.stderr.quoted ++ ", but got: " ++
        execution.stderr.quoted)
    else none

/-- Characters, quoted and in brackets. -/
def listChars (cs : List Char) : String :=
  "[" ++ ", ".intercalate (cs.map Text.quotedChar) ++ "]"

/-- What is said of an encoding that does not use exactly the eight symbols. -/
def symbolsError? (encoding : Text) : Option String :=
  let used := Alphabet.used encoding
  if Alphabet.isSpelled encoding && used == Alphabet.symbols then none
  else some ("Encoded program uses symbols " ++ listChars used ++ ", expected exactly " ++
    listChars Alphabet.symbols)

variable {m : Type → Type} [Monad m]

/-- Runs the four texts of a case. -/
def runAll (bench : Bench m) (c : Case) (encoding : Text) : m (List Run) :=
  RunKind.all.mapM fun kind => do
    return ⟨kind, failure? c (← bench.run (kind.text c encoding))⟩

/-- Checks a case under a strategy, without the time that it takes. There is no result if the
encoder stops. -/
def checkUntimed (bench : Bench m) (config : Config) (c : Case) (strategy : Strategy) :
    OptionT m CaseResult :=
  let result : CaseResult :=
    { name := c.name, strategy, inputLength := c.program.byteLength }
  match encode { config with strategy } c.program with
  | .error .overflow => failure
  | .error (.refused e) => pure { result with error := some ("Encoding failed: " ++ e.message) }
  | .ok encoded =>
    let result := { result with encodedLength := encoded.text.byteLength }
    match symbolsError? encoded.text with
    | some message => pure { result with error := some message }
    | none => do return { result with runs := ← OptionT.lift (runAll bench c encoded.text) }

/-- Checks a case under a strategy. -/
def check (bench : Bench m) (config : Config) (c : Case) (strategy : Strategy) :
    OptionT m CaseResult := do
  let start ← bench.now
  let result ← checkUntimed bench config c strategy
  let stop ← bench.now
  return { result with milliseconds := stop - start }

/-- Every case with every strategy, case by case. -/
def pairs (suite : Suite) (strategies : List Strategy) : List (Case × Strategy) :=
  suite.cases.flatMap fun c => strategies.map fun strategy => (c, strategy)

/-- Checks every case under every strategy. -/
def run (bench : Bench m) (config : Config) (strategies : List Strategy) (suite : Suite) :
    OptionT m Summary :=
  (pairs suite strategies).foldlM (fun summary (c, strategy) => do
    return summary.add (← check bench config c strategy)) {}

end Harness

end Octoglyph
