import Octoglyph.Text

/-! # TOML values and tables

Tables remember how they came about, since that decides who may add to them.
-/

namespace Octoglyph.Toml

/-- How a table came about. -/
inductive Form where
  /-- Written in braces: closed. -/
  | inline
  /-- Opened by a header of its own. -/
  | header
  /-- Implied by the header of a table in it. -/
  | implied
  /-- Made by a dotted key. -/
  | dotted
deriving DecidableEq, Repr

inductive Value where
  | string (text : Text)
  | integer (n : Int)
  | float
  | boolean (b : Bool)
  | moment
  | array (items : List Value)
  /-- The tables opened by headers in double brackets. -/
  | tables (items : List (List (Text × Value)))
  | table (form : Form) (entries : List (Text × Value))

/-- The entries of a table, in order, each key once. -/
abbrev Entries := List (Text × Value)

namespace Entries

def get? (entries : Entries) (key : Text) : Option Value := entries.lookup key

/-- Binds the key in its place, or at the end if it is new. -/
def put (entries : Entries) (key : Text) (v : Value) : Entries :=
  if entries.any fun entry => entry.1 == key then
    entries.map fun entry => if entry.1 == key then (key, v) else entry
  else entries ++ [(key, v)]

/-- Changes the entries of the table that the path leads to. A path that a dotted key takes must
not enter a table with a header of its own. -/
def descend (byKey : Bool) (change : Form → Entries → Option Entries) :
    (path : List Text) → Form → Entries → Option Entries
  | [], form, entries => change form entries
  | key :: path, _, entries =>
    let made : Form := if byKey then .dotted else .implied
    match entries.get? key with
    | none => do
      let inner ← descend byKey change path made []
      return entries.put key (.table made inner)
    | some (.tables items) => do
      let inner ← descend byKey change path .header (items.getLast?.getD [])
      return entries.put key (.tables (items.dropLast ++ [inner]))
    | some (.table .inline _) => none
    | some (.table form inner) =>
      if byKey && form == .header then none
      else do
        let inner ← descend byKey change path form inner
        return entries.put key (.table form inner)
    | some _ => none

/-- Adds the value of a new key. Dotted keys end in tables that dotted keys made, and no others. -/
def assign (path : List Text) (v : Value) (form : Form) (entries : Entries) : Option Entries :=
  match path.getLast? with
  | none => none
  | some key =>
    let parents := path.dropLast
    descend true (fun form entries =>
      if (form == .dotted) == parents.isEmpty || (entries.get? key).isSome then none
      else some (entries.put key v)) parents form entries

/-- Opens the table of a header. -/
def openTable (path : List Text) (entries : Entries) : Option Entries :=
  match path.getLast? with
  | none => none
  | some key =>
    descend false (fun _ entries =>
      match entries.get? key with
      | none => some (entries.put key (.table .header []))
      | some (.table .implied inner) => some (entries.put key (.table .header inner))
      | some _ => none) path.dropLast .header entries

/-- Opens one more table of a header in double brackets. -/
def openItem (path : List Text) (entries : Entries) : Option Entries :=
  match path.getLast? with
  | none => none
  | some key =>
    descend false (fun _ entries =>
      match entries.get? key with
      | none => some (entries.put key (.tables [[]]))
      | some (.tables items) => some (entries.put key (.tables (items ++ [[]])))
      | some _ => none) path.dropLast .header entries

/-- Adds a key to the table whose header came last. -/
def assignUnder (header path : List Text) (v : Value) (entries : Entries) : Option Entries :=
  descend false (assign path v) header .header entries

end Entries

end Octoglyph.Toml
