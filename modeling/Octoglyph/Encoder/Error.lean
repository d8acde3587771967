import Octoglyph.Text.Quoted

/-! # Why a program cannot be encoded -/

namespace Octoglyph

inductive EncodeError where
  /-- A character lies above the highest code. -/
  | unsupportedCharacter (found : Located)
  /-- A template needs more arguments than are allowed. -/
  | templateTooLarge (slots limit : Nat)
  /-- The result is not spelled with the eight symbols. -/
  | foreignSymbol (found : Located)
  /-- The result does not run the program. -/
  | verificationFailed (detail : String)
deriving DecidableEq, Repr

/-- How encoding fails. -/
inductive EncodeFailure where
  /-- The program is refused, and the caller is told why. -/
  | refused (e : EncodeError)
  /-- A statement is too long for a string, and the program stops without an answer. -/
  | overflow
deriving DecidableEq, Repr

/-- A check that fails refuses the program. -/
instance : MonadLift (Except EncodeError) (Except EncodeFailure) where
  monadLift check := check.mapError .refused

/-- A code in upper-case hexadecimal, with at least four digits. -/
def codeLabel (c : Char) : String :=
  "U+" ++ String.ofList (Numeral.padLeft 4 '0' ((Numeral.hex c.toNat).map Char.toUpper))

def EncodeError.message : EncodeError → String
  | .unsupportedCharacter found =>
    "Unsupported character " ++ Text.quotedChar found.char ++ " (" ++ codeLabel found.char ++
      ") at position " ++ toString found.position
  | .templateTooLarge slots limit =>
    "Format template would need " ++ toString slots ++ " arguments (limit is " ++
      toString limit ++ "); use the accumulator strategy for longer programs"
  | .foreignSymbol found =>
    "Emitted symbol " ++ Text.quotedChar found.char ++ " at position " ++
      toString found.position ++ " is outside the charset"
  | .verificationFailed detail => "Verification failed: " ++ detail

end Octoglyph
