import Octoglyph.Chain.Tree
import Octoglyph.Value

/-! # Variables and the statements that bind them

Of the texts that a chain executes, four forms bind a variable:

```
NAME=''      NAME=0b101      NAME=11      NAME+=chr(97)
```

Every other text is left to whoever runs the program.
-/

namespace Octoglyph

/-- The variables that are bound, each once. -/
structure Bindings where
  entries : List (Text × Value) := []
deriving DecidableEq, Repr

namespace Bindings

def get? (b : Bindings) (name : Text) : Option Value := b.entries.lookup name

def set (b : Bindings) (name : Text) (v : Value) : Bindings :=
  ⟨(name, v) :: b.entries.filter fun entry => entry.1 != name⟩

end Bindings

/-- Whether a statement may assign to the name: here an underscore may come first. -/
def isTarget : Text → Bool
  | [] => false
  | c :: rest => (c.isAlpha || c == '_') && rest.all isWordChar

/-- A statement that binds a variable. -/
inductive Assignment where
  | set (name : Text) (value : Value)
  | append (name : Text) (char : Char)
deriving DecidableEq, Repr

namespace Assignment

/-- Numbers are held in 64 bits with a sign. -/
def intBound : Nat := Nat.pow 2 63

/-- Codes are read in 32 bits. -/
def codeBound : Nat := Nat.pow 2 32

/-- Reads what `+=` may append: `chr(97)`. -/
def appended? (source : Text) : Option Char := do
  let rest ← ['c', 'h', 'r', '('].isPrefixOf? source
  let digits ← Text.dropEnd? [')'] rest
  scalar? (← Numeral.readUnsigned? 10 codeBound digits)

/-- Reads what `=` may assign: two quotes, a binary numeral or a decimal one. -/
def assigned? (source : Text) : Option Value :=
  if source = ['\'', '\''] then some (.str [])
  else
    match ['0', 'b'].isPrefixOf? source with
    | some bits => (Numeral.readSigned? 2 intBound bits).map .int
    | none => ((Numeral.read? 10 source).filter (· < intBound)).map fun n => .int n

/-- The assignment that a text is. The first `+=`, and only without one the first `=`, divides
the name from the rest. -/
def ofSource? (source : Text) : Option Assignment :=
  match Text.cutAt? ['+', '='] source with
  | some (name, rest) =>
    if isTarget name then (appended? rest).map (.append name) else none
  | none =>
    match Text.cutAt? ['='] source with
    | some (name, rest) => if isTarget name then (assigned? rest).map (.set name) else none
    | none => none

/-- The name that is bound and its value; appending needs a string to append to. -/
def binding? (b : Bindings) : Assignment → Option (Text × Value)
  | .set name v => some (name, v)
  | .append name c =>
    match b.get? name with
    | some (.str text) => some (name, .str (text ++ [c]))
    | _ => none

end Assignment

namespace Bindings

/-- The binding that executing the text makes, if it makes one. -/
def recognise? (b : Bindings) (source : Text) : Option (Text × Value) :=
  (Assignment.ofSource? source).bind (Assignment.binding? b)

/-- The variables after the text is executed. -/
def execute (b : Bindings) (source : Text) : Bindings :=
  match b.recognise? source with
  | some (name, v) => b.set name v
  | none => b

end Bindings

end Octoglyph
