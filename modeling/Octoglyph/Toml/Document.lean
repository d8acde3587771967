import Octoglyph.Toml.Reader

/-! # Taking values out of a document -/

namespace Octoglyph.Toml

/-- Why a document is refused. -/
inductive Problem where
  | malformed
  | unknownKey (key : Text)
  | missingKey (key : Text)
  | wrongValue (key : Text)
deriving DecidableEq, Repr

def Problem.message : Problem → String
  | .malformed => "malformed document"
  | .unknownKey key => "unknown key '" ++ String.ofList key ++ "'"
  | .missingKey key => "missing key '" ++ String.ofList key ++ "'"
  | .wrongValue key => "wrong value for key '" ++ String.ofList key ++ "'"

/-- The table that a document describes. -/
def document (text : Text) : Except Problem Entries :=
  match read? text with
  | some entries => .ok entries
  | none => .error .malformed

namespace Value

def text? : Value → Option Text
  | .string s => some s
  | _ => none

def bool? : Value → Option Bool
  | .boolean b => some b
  | _ => none

/-- A number from zero up to `bound - 1`. -/
def natBelow? (bound : Nat) : Value → Option Nat
  | .integer (.ofNat n) => if n < bound then some n else none
  | _ => none

/-- The items of an array, however it is written. -/
def items? : Value → Option (List Value)
  | .array items => some items
  | .tables items => some (items.map (.table .header))
  | _ => none

def texts? (v : Value) : Option (List Text) := do
  (← v.items?).mapM text?

/-- Whether the value has no parts. -/
def isEmpty : Value → Bool
  | .array [] | .tables [] | .table _ [] => true
  | _ => false

/-- The name of one of several choices: a string, or the only key of a table, under which nothing
stands. -/
def choice? : Value → Option Text
  | .string s => some s
  | .table _ [(key, v)] => if v.isEmpty then some key else none
  | _ => none

end Value

/-- The value under the key, taken as `take?` says, or `default` if there is none. -/
def Entries.field (entries : Entries) (key : String) (take? : Value → Option α) (default : α) :
    Except Problem α :=
  match entries.get? key.toList with
  | none => .ok default
  | some v =>
    match take? v with
    | some a => .ok a
    | none => .error (.wrongValue key.toList)

/-- The value under the key, which must be there. -/
def Entries.required (entries : Entries) (key : String) (take? : Value → Option α) :
    Except Problem α :=
  match entries.get? key.toList with
  | none => .error (.missingKey key.toList)
  | some v =>
    match take? v with
    | some a => .ok a
    | none => .error (.wrongValue key.toList)

end Octoglyph.Toml
