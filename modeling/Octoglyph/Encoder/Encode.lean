import Octoglyph.Encoder.Config
import Octoglyph.Encoder.Error
import Octoglyph.Evaluation

/-! # Encoding programs

An encoded program first binds `x`, then the variable of every code that it needs, in ascending
order, and then runs the steps of its strategy.
-/

namespace Octoglyph

namespace Encoder

/-- Puts a code into an ascending list without repetitions. -/
def insertCode (n : UInt32) : List UInt32 → List UInt32
  | [] => [n]
  | m :: rest =>
    if n < m then n :: m :: rest
    else if n = m then m :: rest
    else m :: insertCode n rest

/-- The codes of the characters, in ascending order. -/
def codesOf (text : Text) : List UInt32 :=
  text.foldl (fun codes c => insertCode c.val codes) []

/-- The codes that a program needs: its own and those of the steps that spell it. -/
def codes (program : Text) (steps : List Step) : List UInt32 :=
  codesOf (program ++ steps.flatMap Step.spelled)

/-- The chain that runs the steps. -/
def assemble (codes : List UInt32) (steps : List Step) : Chain where
  calls := Statement.bootstrap :: (codes.map Statement.assignment ++ steps.map Step.expr)
  nonempty := by simp

/-- Fails if a template takes more arguments than are allowed. -/
def checkSlots (config : Config) (slots : Nat) : Except EncodeError Unit :=
  if config.maxTemplateSlots < slots then
    .error (.templateTooLarge slots config.maxTemplateSlots)
  else .ok ()

/-- Fails unless the statement of a step can be built. -/
def checkStep (config : Config) (step : Step) : Except EncodeFailure Unit := do
  if let some slots := step.slots? then checkSlots config slots
  if !step.fits then throw .overflow

/-- An encoded program with its text. -/
structure Encoded where
  chain : Chain
  text : Text
  text_eq : text = chain.text

/-- Fails unless the text is spelled with the eight symbols. -/
def checkSpelling (text : Text) : Except EncodeError Unit :=
  match Alphabet.firstForeign? text with
  | some found => .error (.foreignSymbol found)
  | none => .ok ()

/-- Fails unless the text runs the program. -/
def checkPayload (program text : Text) : Except EncodeError Unit :=
  match evaluate text with
  | .error diagnosis => .error (.verificationFailed diagnosis.message)
  | .ok outcome =>
    match outcome.payload? with
    | none => .error (.verificationFailed "encoded text executes nothing")
    | some payload =>
      if payload = program then .ok ()
      else .error (.verificationFailed
        ("encoded text executes " ++ payload.quoted ++ ", expected " ++ Text.quoted program))

end Encoder

open Encoder in
/-- Encodes the program, or fails without a result. An assignment has at most 34 slots, so that a
string can always hold it. -/
def encode (config : Config) (program : Text) : Except EncodeFailure Encoded :=
  match program.locate? fun c => config.maxCodePoint < c.toNat with
  | some found => .error (.refused (.unsupportedCharacter found))
  | none => do
    let steps := config.strategy.payload program
    let codes := codes program steps
    codes.forM fun n => checkSlots config (Statement.assignmentSlots n)
    steps.forM (checkStep config)
    let chain := assemble codes steps
    let text := chain.text
    checkSpelling text
    if config.verify then checkPayload program text
    return ⟨chain, text, rfl⟩

end Octoglyph
