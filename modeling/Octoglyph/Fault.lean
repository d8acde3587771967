import Octoglyph.Value

/-! # What can stop the evaluation of a chain

A `Fault` is a cause; its `Diagnosis` is what is reported.
-/

namespace Octoglyph

/-- Why an evaluation stops. -/
inductive Fault where
  /-- A variable is read before it is bound. -/
  | unbound (name : Text)
  /-- The left side of `%` is no string. -/
  | unformattable (left right : Kind)
  /-- A call gets something that is no string. -/
  | notSource (kind : Kind)
  /-- A template ends in the middle of a conversion. -/
  | incompleteFormat
  /-- A template has a conversion and no argument is left. -/
  | missingArgument
  /-- A template has no conversion for the argument. -/
  | surplusArgument
  /-- `%x` gets something that is no number. -/
  | integerRequired (kind : Kind)
  /-- `%c` gets something that is neither a number nor a string. -/
  | characterRequired (kind : Kind)
  /-- `%c` gets a string that is not one character long. -/
  | singleCharacterRequired
  /-- `%c` gets a number that is no character's code. -/
  | codeOutOfRange
  /-- The character behind `%` is no known conversion. -/
  | unknownConversion (letter : Char)
deriving DecidableEq, Repr

/-- What stands where in a text that is no chain. -/
inductive SyntaxFault where
  | emptyProgram
  | expected (what : String)
  | unexpected (char : Char)
  | unexpectedEnd
  | unterminatedLiteral
  | trailingText
deriving DecidableEq, Repr

def SyntaxFault.message : SyntaxFault → String
  | .emptyProgram => "empty program"
  | .expected what => "expected '" ++ what ++ "'"
  | .unexpected c => "unexpected '" ++ String.singleton c ++ "'"
  | .unexpectedEnd => "unexpected end of input"
  | .unterminatedLiteral => "unterminated string literal"
  | .trailingText => "trailing text after last statement"

/-- A report: its class, with the text that goes with it. -/
inductive Diagnosis where
  | syntaxError (position : Nat) (detail : String)
  | nameError (name : String)
  | typeError (detail : String)
  | valueError (detail : String)
deriving DecidableEq, Repr

def Diagnosis.message : Diagnosis → String
  | .syntaxError position detail =>
    "Syntax error at position " ++ toString position ++ ": " ++ detail
  | .nameError name => "NameError: name '" ++ name ++ "' is not defined"
  | .typeError detail => "TypeError: " ++ detail
  | .valueError detail => "ValueError: " ++ detail

def Fault.diagnosis : Fault → Diagnosis
  | .unbound name => .nameError (String.ofList name)
  | .unformattable left right => .typeError
    ("unsupported operand type(s) for %: '" ++ left.name ++ "' and '" ++ right.name ++ "'")
  | .notSource kind => .typeError
    ("exec() arg 1 must be a string, bytes or code object, not " ++ kind.name)
  | .incompleteFormat => .valueError "incomplete format"
  | .missingArgument => .typeError "not enough arguments for format string"
  | .surplusArgument => .typeError "not all arguments converted during string formatting"
  | .integerRequired kind => .typeError
    ("%x format: an integer is required, not " ++ kind.name)
  | .characterRequired kind => .typeError
    ("%c requires an int or a unicode character, not " ++ kind.name)
  | .singleCharacterRequired => .typeError
    "%c requires an int or a unicode character, not a string of length != 1"
  | .codeOutOfRange => .valueError "%c arg not in range(0x110000)"
  | .unknownConversion letter => .valueError
    ("unsupported format character '" ++ String.singleton letter ++ "' (0x" ++
      String.ofList (Numeral.hex letter.toNat) ++ ")")

end Octoglyph
