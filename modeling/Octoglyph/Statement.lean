import Octoglyph.DigitName
import Octoglyph.Template

/-! # The statements of an encoded program

Each statement is an expression whose value is a text to execute. They build on one another: the
first binds `x` to eleven, which is `b` in hexadecimal; with that letter and the truth values,
which are `0` and `1`, the next ones spell `0b…` and bind the variable of a number; with those
variables every text can be spelled.
-/

namespace Octoglyph

namespace Atom

/-- The empty string equals itself. -/
def truth : Atom := .equal (.atom (.literal .empty)) (.atom (.literal .empty))

/-- The empty string does not equal the empty tuple. -/
def falsehood : Atom := .equal (.atom (.literal .empty)) (.atom .unit)

/-- An operand that formats as the bit. -/
def ofBit (bit : Nat) : Atom := if bit = 1 then truth else falsehood

end Atom

namespace Statement

/-- The variable that is bound to eleven. -/
def bootstrapName : Ident := ⟨'x', [], by decide, List.all_nil⟩

/-- The literal `name=template`. -/
def assignmentLiteral (name : Ident) (template : Template) : Literal where
  text := name.text ++ '=' :: template.render
  quoteless := by
    simp [name.quote_not_mem_text, template.quote_not_mem_render]

/-- The expression that executes `name=…` with the arguments written in hexadecimal. -/
def assignmentOf (name : Ident) (args : List Atom) : Expr :=
  (Expr.atom (.literal (assignmentLiteral name (.ofSlots .hex args.length)))).applied args

/-- Executes `x=11`. -/
def bootstrap : Expr := assignmentOf bootstrapName [.truth, .truth]

/-- How many bits are significant. -/
def bitLength (n : UInt32) : Nat := if n = 0 then 0 else n.toNat.log2 + 1

/-- How many arguments the assignment of a number takes: two for `0b`, and its bits. -/
def assignmentSlots (n : UInt32) : Nat := 2 + max (bitLength n) 1

/-- What spells `0b…` in hexadecimal. -/
def assignmentArgs (n : UInt32) : List Atom :=
  .falsehood :: .ident bootstrapName :: (Numeral.digits 2 n.toNat).map .ofBit

/-- Binds the variable of a number to it. The first statement must have been run. -/
def assignment (n : UInt32) : Expr := assignmentOf (DigitName.ident n) (assignmentArgs n)

/-- How many arguments the spelling of a text takes: percents are written into the template. -/
def spellingSlots (s : Text) : Nat := s.countP (· ≠ '%')

def spellingTemplate (s : Text) : Template :=
  ⟨.char, s.map fun c => if c = '%' then .percent else .slot⟩

def spellingArgs (s : Text) : List Atom :=
  (s.filter (· ≠ '%')).map fun c => .ident (DigitName.ident c.val)

/-- Has the text as its value. The variable of each character's code must be bound, percents
apart. -/
def spelling (s : Text) : Expr :=
  (Expr.atom (.literal ⟨(spellingTemplate s).render, Template.quote_not_mem_render _⟩)).applied
    (spellingArgs s)

/-- How long a literal is with arguments applied to it, if its text has the given length. -/
def appliedLength (length : Nat) (args : List Atom) : Nat :=
  args.foldl (fun length arg => length + (arg.text.length + 1)) (length + 2)

/-- Whether strings can hold the template of the spelling and the spelling itself. -/
def spellingFits (s : Text) : Bool :=
  match (spellingTemplate s).capacity? with
  | some length => appliedLength length (spellingArgs s) ≤ Template.maxCapacity
  | none => false

/-- The spelling of the text, unless it is too long for a string. -/
def spelling? (s : Text) : Option Expr :=
  if spellingFits s then some (spelling s) else none

end Statement

end Octoglyph
