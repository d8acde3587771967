import Octoglyph.Statement

/-! # Strategies

Once the variables of all codes are bound, a program is spelled either at once, in a template that
doubles with every character, or character by character in a variable.
-/

namespace Octoglyph

/-- A statement of the last part of an encoded program. -/
inductive Step where
  /-- A text to spell. -/
  | encoded (text : Text)
  /-- A variable to execute. -/
  | verbatim (name : Ident)

namespace Step

def expr : Step → Expr
  | .encoded text => Statement.spelling text
  | .verbatim name => .atom (.ident name)

/-- The text that the step spells. -/
def spelled : Step → Text
  | .encoded text => text
  | .verbatim _ => []

/-- The arguments of the step's template, if it has one. -/
def slots? : Step → Option Nat
  | .encoded text => some (Statement.spellingSlots text)
  | .verbatim _ => none

/-- Whether a string can hold the statement. -/
def fits : Step → Bool
  | .encoded text => Statement.spellingFits text
  | .verbatim _ => true

end Step

namespace Accumulator

/-- The variable that collects the program. -/
def name : Ident := ⟨'x', ['x'], Statement.bootstrapName.first_isAlpha, by decide⟩

/-- Empties the variable. -/
def init : Text := name.text ++ ['=', '\'', '\'']

/-- Appends the character with the given code. -/
def append (code : UInt32) : Text :=
  name.text ++ ['+', '=', 'c', 'h', 'r', '('] ++ Numeral.decimal code.toNat ++ [')']

end Accumulator

inductive Strategy where
  | direct
  | accumulator
deriving DecidableEq, Repr

instance : Inhabited Strategy := ⟨.accumulator⟩

namespace Strategy

def all : List Strategy := [.direct, .accumulator]

def name : Strategy → String
  | .direct => "direct"
  | .accumulator => "accumulator"

def ofName? (s : String) : Option Strategy := all.find? fun strategy => strategy.name == s

/-- What is said of a name that is no strategy's. -/
def unknownMessage (s : String) : String :=
  "Unknown strategy '" ++ s ++ "'. Expected 'direct' or 'accumulator'"

/-- The steps that run the program. -/
def payload (program : Text) : Strategy → List Step
  | .direct => [.encoded program]
  | .accumulator =>
    .encoded Accumulator.init ::
      (program.map fun c => Step.encoded (Accumulator.append c.val)) ++
      [.verbatim Accumulator.name]

end Strategy

end Octoglyph
