import Octoglyph.Numeral

/-! # Values of the chain language -/

namespace Octoglyph

inductive Value where
  | int (n : Int)
  | bool (b : Bool)
  | str (text : Text)
  | unit
deriving DecidableEq, Repr

/-- What a value is, as complaints about it say. -/
inductive Kind where
  | int
  | bool
  | str
  | tuple
deriving DecidableEq, Repr

def Kind.name : Kind → String
  | .int => "int"
  | .bool => "bool"
  | .str => "str"
  | .tuple => "tuple"

namespace Value

def kind : Value → Kind
  | .int _ => .int
  | .bool _ => .bool
  | .str _ => .str
  | .unit => .tuple

/-- The number that the value is; a truth value is one or zero. -/
def number? : Value → Option Int
  | .int n => some n
  | .bool b => some (if b then 1 else 0)
  | .str _ | .unit => none

/-- Whether `==` holds: numbers and truth values compare as numbers. -/
def same (v w : Value) : Bool :=
  match v.number?, w.number? with
  | some m, some n => m == n
  | _, _ => v == w

end Value

/-- The character with the given code, if there is one. -/
def scalar? (code : Nat) : Option Char :=
  if code.isValidChar then some (Char.ofNat code) else none

end Octoglyph
