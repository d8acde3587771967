import Octoglyph.Proofs.RenderedLength
import Octoglyph.Proofs.Trace

/-! # Statements that a string can hold

A spelling is reserved room for twice: for its template, and for the statement around it. The second
is always the larger one, so what decides is the length of the statement. Short texts without
percents are far from the limit, and the accumulator spells no others.
-/

namespace Octoglyph

namespace Statement

open Template

theorem appliedLength_eq (length : Nat) (args : List Atom) :
    appliedLength length args = length + 2 + (args.map fun a => a.text.length + 1).sum := by
  unfold appliedLength
  generalize length + 2 = start
  induction args generalizing start with
  | nil => rfl
  | cons arg args ih =>
    rw [List.foldl_cons, ih, List.map_cons, List.sum_cons]
    omega

theorem length_spelling_eq_appliedLength (s : Text) :
    (spelling s).text.length =
      appliedLength (spellingTemplate s).render.length (spellingArgs s) := by
  rw [appliedLength_eq, spelling, Expr.length_applied]
  simp only [Expr.text_atom, Atom.text_literal, List.length_cons, List.length_append,
    List.length_nil]

theorem spellingFits_iff {s : Text} :
    spellingFits s = true ↔ (spelling s).text.length < 2 ^ 63 := by
  have htemplate : (spellingTemplate s).render.length ≤ (spelling s).text.length := by
    rw [length_spelling_eq_appliedLength, appliedLength_eq]
    omega
  unfold spellingFits
  rcases Nat.lt_or_ge (spellingTemplate s).render.length (2 ^ 63) with h | h
  · simp only [capacity?_of_lt h, ← length_spelling_eq_appliedLength, decide_eq_true_eq,
      lt_two_pow_iff_le_maxCapacity]
  · simp only [capacity?_of_le h, Bool.false_eq_true, false_iff]
    omega

theorem spelling?_of_lt {s : Text} (h : (spelling s).text.length < 2 ^ 63) :
    spelling? s = some (spelling s) :=
  if_pos (spellingFits_iff.2 h)

theorem spelling?_of_le {s : Text} (h : 2 ^ 63 ≤ (spelling s).text.length) :
    spelling? s = none :=
  if_neg fun hfits => Nat.not_lt.2 h (spellingFits_iff.1 hfits)

theorem spellingSlots_le_length (s : Text) : spellingSlots s ≤ s.length :=
  List.countP_le_length

/-- A code has at most 32 bits, so the names of 32 characters are short. -/
theorem spellingFits_of_length_le {s : Text} (hpercents : '%' ∉ s) (hlength : s.length ≤ 32) :
    spellingFits s = true := by
  have hslots : spellingSlots s ≤ 32 := Nat.le_trans (spellingSlots_le_length s) hlength
  have hpow : 2 ^ spellingSlots s ≤ 2 ^ 32 := Nat.pow_le_pow_right (by decide) hslots
  have hletters : nameLetters s ≤ s.length * 32 := nameLetters_le fun c _ =>
    nameLength_le (by decide) c.val.toNat_lt
  rw [spellingFits_iff, length_spelling, List.count_eq_zero.2 hpercents]
  omega

end Statement

/-! ## The accumulator -/

theorem Numeral.length_decimal_le {n digits : Nat} (hdigits : 0 < digits) (h : n < 10 ^ digits) :
    (decimal n).length ≤ digits := by
  rw [decimal, text, List.length_map]
  exact length_digits_le (by decide) hdigits h

namespace Accumulator

theorem length_append_le {code : UInt32} {digits : Nat} (hdigits : 0 < digits)
    (h : code.toNat < 10 ^ digits) : (append code).length ≤ digits + 9 := by
  have hdecimal := Numeral.length_decimal_le hdigits h
  simp only [append, name, Ident.text, List.length_append, List.length_cons, List.length_nil]
  omega

theorem percent_not_mem_append (code : UInt32) : '%' ∉ append code := by
  have hdecimal : '%' ∉ Numeral.decimal code.toNat :=
    Numeral.not_mem_text (by decide) (by decide) (by decide)
  simp [append, name, Ident.text, hdecimal]

end Accumulator

/-- A string can hold every statement of the accumulator. -/
theorem Strategy.fits_of_mem_accumulator {program : Text} :
    ∀ step ∈ accumulator.payload program, step.fits = true := by
  have hinit : Statement.spellingFits Accumulator.init = true :=
    Statement.spellingFits_of_length_le (by decide) (by decide)
  refine forall_mem_accumulator.2 ⟨hinit, fun c _ => ?_, rfl⟩
  have hdigits : c.val.toNat < 10 ^ 10 := Nat.lt_trans c.val.toNat_lt (by decide)
  have hlength := Accumulator.length_append_le (by decide) hdigits
  exact Statement.spellingFits_of_length_le (Accumulator.percent_not_mem_append _) (by omega)

end Octoglyph
