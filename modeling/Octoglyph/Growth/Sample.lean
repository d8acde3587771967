import Octoglyph.Encoder.Encode

/-! # How encodings grow

Random programs of increasing length are encoded and the lengths noted down.
-/

namespace Octoglyph.Growth

/-- Programs are drawn from the codes below this one. -/
def codeBound : Nat := 127

/-- A code that programs are drawn from. -/
abbrev Code := Fin codeBound

/-- One measurement. -/
structure Sample where
  inputLength : Nat
  outputLength : Nat
deriving DecidableEq, Repr

variable {σ : Type}

/-- Draws a program of the given length. -/
def drawProgram (draw : StateM σ Code) (length : Nat) : StateM σ Text :=
  (List.range length).mapM fun _ => do
    return Char.ofNat (← draw).val

/-- Draws a program and measures its encoding. -/
def measure (draw : StateM σ Code) (config : Config) (length : Nat) :
    StateT σ (Except EncodeFailure) Sample := fun source => do
  let (program, source) := (drawProgram draw length).run source
  let encoded ← encode config program
  return (⟨length, encoded.text.byteLength⟩, source)

/-- One measurement for each length from the first to the last. -/
def sample (draw : StateM σ Code) (config : Config) (first last : Nat) :
    StateT σ (Except EncodeFailure) (List Sample) :=
  (List.range' first (last + 1 - first)).mapM (measure draw config)

/-- Output per input at the last measurement. -/
def gradient? (samples : List Sample) : Option Float :=
  match samples.getLast? with
  | none => none
  | some s =>
    if s.inputLength = 0 then none
    else some (s.outputLength.toUInt64.toFloat / s.inputLength.toUInt64.toFloat)

end Octoglyph.Growth
