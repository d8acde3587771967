import Octoglyph.Alphabet
import Octoglyph.Chain.Tree
import Octoglyph.Numeral

/-! # Names of numbers

A number is held by a variable whose name is its binary numeral, with `e` for one and `c` for
zero, so that 123, in binary 1111011, is held by `eeeecee`.
-/

namespace Octoglyph.DigitName

/-- The most letters a name of a 32-bit number has. -/
def maxLength : Nat := 32

def letter (bit : Nat) : Char :=
  if bit = 1 then Alphabet.oneLetter else Alphabet.zeroLetter

def bit? (c : Char) : Option UInt32 :=
  if c = Alphabet.oneLetter then some 1
  else if c = Alphabet.zeroLetter then some 0
  else none

/-- The name of the variable that holds `n`. -/
def ofNumber (n : UInt32) : Text := (Numeral.digits 2 n.toNat).map letter

theorem ofNumber_ne_nil (n : UInt32) : ofNumber n ≠ [] := by
  simp [ofNumber, Numeral.digits_ne_nil]

theorem letter_isAlpha (bit : Nat) : (letter bit).isAlpha = true := by
  unfold letter
  split <;> decide

theorem isAlpha_of_mem_ofNumber {n : UInt32} {c : Char} (h : c ∈ ofNumber n) :
    c.isAlpha = true := by
  obtain ⟨bit, -, rfl⟩ := List.mem_map.1 h
  exact letter_isAlpha bit

theorem isWordChar_of_isAlpha {c : Char} (h : c.isAlpha = true) : isWordChar c = true := by
  simp [isWordChar, Char.isAlphanum, h]

/-- The variable that holds `n`. -/
def ident (n : UInt32) : Ident where
  first := (ofNumber n).head (ofNumber_ne_nil n)
  rest := (ofNumber n).tail
  first_isAlpha := isAlpha_of_mem_ofNumber (List.head_mem _)
  rest_isWord := List.all_eq_true.2 fun _ h =>
    isWordChar_of_isAlpha (isAlpha_of_mem_ofNumber (List.mem_of_mem_tail h))

@[simp] theorem text_ident (n : UInt32) : (ident n).text = ofNumber n :=
  List.cons_head_tail _

/-- The number that a word of 1 to 32 name letters spells. -/
def number? (name : Text) : Option UInt32 :=
  if name.isEmpty || maxLength < name.length then none
  else name.foldlM (fun n c => (bit? c).map (2 * n + ·)) 0

end Octoglyph.DigitName
