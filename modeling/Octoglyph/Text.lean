/-! # Text

Text is a list of characters, so that every operation on it is a recursion on the data and every
position counts characters.
-/

namespace Octoglyph

/-- A text, character by character. -/
abbrev Text := List Char

/-- A character together with the number of characters in front of it. -/
structure Located where
  position : Nat
  char : Char
deriving DecidableEq, Repr

namespace Text

/-- The first character that satisfies `p`, with its position counted from `start`. -/
def locateFrom? (p : Char → Bool) (start : Nat) : Text → Option Located
  | [] => none
  | c :: rest => if p c then some ⟨start, c⟩ else locateFrom? p (start + 1) rest

/-- The first character that satisfies `p`, with its position. -/
def locate? (p : Char → Bool) (text : Text) : Option Located :=
  locateFrom? p 0 text

/-- Bytes the text takes in UTF-8. -/
def byteLength (text : Text) : Nat :=
  text.foldl (fun n c => n + c.utf8Size) 0

/-- Cuts at the first occurrence of `mark`, with `front`, reversed, already passed. -/
def cutAfter (mark : Text) (front : Text) (text : Text) : Option (Text × Text) :=
  match mark.isPrefixOf? text with
  | some rest => some (front.reverse, rest)
  | none =>
    match text with
    | [] => none
    | c :: rest => cutAfter mark (c :: front) rest

/-- What stands before and after the first occurrence of `mark`. -/
def cutAt? (mark text : Text) : Option (Text × Text) :=
  cutAfter mark [] text

/-- The text without `tail` at its end, if it ends so. -/
def dropEnd? (tail text : Text) : Option Text :=
  (tail.reverse.isPrefixOf? text.reverse).map List.reverse

/-- Whether `part` occurs in the text. -/
def includes (text part : Text) : Bool :=
  (cutAt? part text).isSome

end Text

end Octoglyph
