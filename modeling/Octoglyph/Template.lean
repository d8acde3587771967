import Octoglyph.Text

/-! # Templates that are filled one argument at a time

Each application of an argument fills the first conversion and halves every longer run of `%`.
So the `i`-th conversion, counted from zero, stands behind `2 ^ i` percents, and a percent that is
to survive all `n` applications is written as `2 ^ n` of them.
-/

namespace Octoglyph

/-- How an argument is written. -/
inductive Conversion where
  | hex
  | char
deriving DecidableEq, Repr

namespace Conversion

def letter : Conversion → Char
  | .hex => 'x'
  | .char => 'c'

end Conversion

/-- One part of a template. -/
inductive Segment where
  | slot
  | percent
deriving DecidableEq, Repr

structure Template where
  conversion : Conversion
  segments : List Segment := []
deriving DecidableEq, Repr

namespace Template

/-- The template of `n` slots and nothing else. -/
def ofSlots (conversion : Conversion) (n : Nat) : Template :=
  ⟨conversion, List.replicate n .slot⟩

/-- The template with more segments at its end. -/
def extend (t : Template) (more : List Segment) : Template :=
  { t with segments := t.segments ++ more }

def pushSlot (t : Template) : Template := t.extend [.slot]

def pushPercent (t : Template) : Template := t.extend [.percent]

/-- How many arguments the template takes. -/
def slots (t : Template) : Nat := t.segments.count .slot

/-- Sizes are counted in words of this many bits. -/
def sizeBits : Nat := 64

/-- No string is longer than this. -/
def maxCapacity : Nat := Nat.pow 2 (sizeBits - 1) - 1

/-- The number, if half a word holds it. -/
def halfWord? (n : Nat) : Option Nat :=
  if n < Nat.pow 2 (sizeBits / 2) then some n else none

/-- `2 ^ n` as a size, if it is one. -/
def doubled? (n : Nat) : Option Nat :=
  if n < sizeBits then some (Nat.pow 2 n) else none

/-- The sum of two sizes, if it is one. -/
def addSize? (m n : Nat) : Option Nat :=
  if m + n < Nat.pow 2 sizeBits then some (m + n) else none

/-- Adds up the segments from slot `slot` on, with `percents` for each percent segment. -/
def addSegments? (percents : Nat) : (slot length : Nat) → List Segment → Option Nat
  | _, length, [] => some length
  | slot, length, .slot :: rest => do
    let run ← addSize? (← doubled? slot) 1
    addSegments? percents (slot + 1) (← addSize? length run) rest
  | slot, length, .percent :: rest => do
    addSegments? percents slot (← addSize? length percents) rest

/-- The length of the rendered text, if it is a size. -/
def renderedLength? (t : Template) : Option Nat := do
  let total ← halfWord? t.slots
  addSegments? (← doubled? total) 0 0 t.segments

/-- The room for the rendered text, if a string can have it. -/
def capacity? (t : Template) : Option Nat :=
  match t.renderedLength? with
  | some length => if length ≤ maxCapacity then some length else none
  | none => none

/-- Writes the segments from slot `slot` on behind `front`, which is reversed. -/
def renderOnto (letter : Char) (percents : Nat) : (slot : Nat) → (front : Text) →
    List Segment → Text
  | _, front, [] => front.reverse
  | slot, front, .slot :: rest =>
    renderOnto letter percents (slot + 1)
      (letter :: (List.replicate (Nat.pow 2 slot) '%' ++ front)) rest
  | slot, front, .percent :: rest =>
    renderOnto letter percents slot (List.replicate percents '%' ++ front) rest

/-- The text of the template, however long it is. -/
def render (t : Template) : Text :=
  renderOnto t.conversion.letter (Nat.pow 2 t.slots) 0 [] t.segments

/-- The text of the template as a string. There is none that is too long: rendering takes its room
first, and a program that asks for more than there can be stops. -/
def render? (t : Template) : Option Text :=
  match t.capacity? with
  | some _ => some t.render
  | none => none

theorem mem_renderOnto {letter c : Char} {percents slot : Nat} {front : Text} {ss : List Segment}
    (h : c ∈ renderOnto letter percents slot front ss) : c ∈ front ∨ c = '%' ∨ c = letter := by
  induction ss generalizing slot front with
  | nil => exact .inl (by simpa [renderOnto] using h)
  | cons s rest ih =>
    cases s with
    | slot =>
      rcases ih h with h | h
      · simp only [List.mem_cons, List.mem_append, List.mem_replicate] at h
        rcases h with h | ⟨-, h⟩ | h <;> simp [h]
      · exact .inr h
    | percent =>
      rcases ih h with h | h
      · simp only [List.mem_append, List.mem_replicate] at h
        rcases h with ⟨-, h⟩ | h <;> simp [h]
      · exact .inr h

theorem quote_not_mem_render (t : Template) : '\'' ∉ t.render := fun h => by
  rcases mem_renderOnto h with h | h | h
  · simp at h
  · exact absurd h (by decide)
  · revert h
    cases t.conversion <;> decide

end Template

end Octoglyph
