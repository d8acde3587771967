import Octoglyph.Text

/-! # Numbers to one decimal

A double is `m * 2 ^ e` exactly, so its tenths can be rounded without error; a tie goes to the
even neighbour.
-/

namespace Octoglyph.Growth

/-- The integer nearest to `num / den`, the even one of two. -/
def roundDiv (num den : Nat) : Nat :=
  let q := num / den
  let r := num % den
  if 2 * r < den then q
  else if den < 2 * r then q + 1
  else q + q % 2

/-- The significand and the exponent of a double that is not negative. -/
def binaryParts (bits : UInt64) : Nat × Int :=
  let fraction := bits.toNat % Nat.pow 2 52
  let exponent : Nat := bits.toNat / Nat.pow 2 52 % Nat.pow 2 11
  if exponent = 0 then (fraction, -1074) else (Nat.pow 2 52 + fraction, (exponent : Int) - 1075)

/-- Ten times the double, rounded to an integer. -/
def tenths (bits : UInt64) : Nat :=
  match binaryParts bits with
  | (m, .ofNat e) => m * Nat.pow 2 e * 10
  | (m, .negSucc e) => roundDiv (m * 10) (Nat.pow 2 (e + 1))

/-- A double that is not negative, with one decimal. -/
def showTenths (x : Float) : String :=
  let n := tenths x.toBits
  toString (n / 10) ++ "." ++ toString (n % 10)

end Octoglyph.Growth
