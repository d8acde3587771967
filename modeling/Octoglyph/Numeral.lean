import Octoglyph.Text

/-! # Positional numerals

Digits run from the most significant to the least, and zero has one digit.
-/

namespace Octoglyph.Numeral

/-- The digits of `n` in a base of at least two; in a smaller base `n` is its own digit. -/
def digits (base n : Nat) : List Nat :=
  if h : n < base ∨ base < 2 then [n]
  else
    have : n / base < n := Nat.div_lt_self (by omega) (by omega)
    digits base (n / base) ++ [n % base]
termination_by n

theorem digits_ne_nil (base n : Nat) : digits base n ≠ [] := by
  rw [digits]
  split <;> simp

/-- The number that the digits spell. -/
def value (base : Nat) (ds : List Nat) : Nat := ds.foldl (fun n d => n * base + d) 0

/-- The numeral of `n`, with the letters `a` to `f` for the digits from ten on. -/
def text (base n : Nat) : Text := (digits base n).map Nat.digitChar

abbrev binary (n : Nat) : Text := text 2 n

abbrev decimal (n : Nat) : Text := text 10 n

abbrev hex (n : Nat) : Text := text 16 n

/-- The numeral of an integer, with a minus sign before a negative one. -/
def signed (base : Nat) : Int → Text
  | .ofNat n => text base n
  | .negSucc n => '-' :: text base (n + 1)

/-- The value of a digit of either case. -/
def digit? (base : Nat) (c : Char) : Option Nat :=
  let d :=
    if '0' ≤ c ∧ c ≤ '9' then c.toNat - '0'.toNat
    else if 'a' ≤ c ∧ c ≤ 'f' then c.toNat - 'a'.toNat + 10
    else if 'A' ≤ c ∧ c ≤ 'F' then c.toNat - 'A'.toNat + 10
    else base
  if d < base then some d else none

/-- Reads a numeral of at least one digit and nothing else. -/
def read? (base : Nat) : Text → Option Nat
  | [] => none
  | t => (t.mapM (digit? base)).map (value base)

/-- Reads a numeral that may have a plus sign and whose value is below `bound`. -/
def readUnsigned? (base bound : Nat) (t : Text) : Option Nat :=
  let n? := match t with
    | '+' :: rest => read? base rest
    | t => read? base t
  n?.filter (· < bound)

/-- Reads a numeral that may have a sign and whose value lies from `-bound` up to `bound - 1`. -/
def readSigned? (base bound : Nat) : Text → Option Int
  | '-' :: rest => ((read? base rest).filter (· ≤ bound)).map fun n => -(n : Int)
  | t => (readUnsigned? base bound t).map Int.ofNat

/-- The numeral, padded on the left to the given width. -/
def padLeft (width : Nat) (fill : Char) (t : Text) : Text :=
  List.replicate (width - t.length) fill ++ t

end Octoglyph.Numeral
