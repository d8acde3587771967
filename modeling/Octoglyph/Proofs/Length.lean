import Mathlib.Algebra.Order.BigOperators.Group.List
import Octoglyph.Proofs.Alphabet
import Octoglyph.Proofs.Statement

/-! # How long statements are

The text of a template doubles with every slot, and a percent segment is as long as the runs of all
slots and one more. What else is in a statement adds to its length: the quotes, the names, and a
percent in front of each operand. So the length of a statement is a formula in the number of its
slots and percents and in the letters of the names that it reads.
-/

namespace Octoglyph

/-! ## Templates -/

namespace Template

/-- The runs of the open slots add up to the next power of two, less the first one. -/
theorem length_stage (k : Conversion) (percents slot : Nat) (ss : List Segment) :
    (stage k percents slot [] ss).length + 2 ^ slot =
      2 ^ (slot + ss.count .slot) + ss.count .slot + ss.count .percent * percents := by
  induction ss generalizing slot with
  | nil => simp
  | cons s rest ih =>
    cases s with
    | slot =>
      have hrest := ih (slot + 1)
      rw [Nat.pow_succ, Nat.add_right_comm slot 1] at hrest
      rw [stage_slot_open, List.count_cons_self, List.count_cons_of_ne (by decide),
        List.length_append, List.length_replicate, List.length_cons, ← Nat.add_assoc slot]
      omega
    | percent =>
      have hrest := ih slot
      rw [stage_percent, List.count_cons_self, List.count_cons_of_ne (by decide),
        List.length_append, List.length_replicate, Nat.succ_mul]
      omega

theorem length_render (t : Template) :
    t.render.length + 1 =
      (t.segments.count .percent + 1) * 2 ^ t.slots + t.slots := by
  have hstage := length_stage t.conversion (2 ^ t.slots) 0 t.segments
  rw [← render_eq_stage, Nat.pow_zero, Nat.zero_add] at hstage
  rw [hstage, Nat.succ_mul]
  unfold slots
  omega

theorem length_render_ofSlots (k : Conversion) (n : Nat) :
    (ofSlots k n).render.length + 1 = 2 ^ n + n := by
  have hslots : (ofSlots k n).slots = n := by simp [slots, ofSlots]
  have hpercents : (ofSlots k n).segments.count .percent = 0 := by
    simp [ofSlots, List.count_replicate]
  rw [length_render, hslots, hpercents, Nat.zero_add, Nat.one_mul]

end Template

/-! ## Names -/

theorem Numeral.length_digits_two (n : Nat) : (digits 2 n).length = n.log2 + 1 := by
  induction n using Nat.strongRecOn with
  | ind n ih =>
    rcases Nat.lt_or_ge n 2 with hn | hn
    · rw [digits_of_lt hn, Nat.log2_def, if_neg (by omega)]
      rfl
    · rw [digits_of_le (Nat.le_refl 2) hn, List.length_append, ih _ (by omega), Nat.log2_def n,
        if_pos hn]
      rfl

namespace Statement

/-- The letters of the name of a number: one for each significant bit, and one for zero. -/
def nameLength (n : UInt32) : Nat := max (bitLength n) 1

theorem length_digits (n : UInt32) : (Numeral.digits 2 n.toNat).length = nameLength n := by
  rw [Numeral.length_digits_two, nameLength, bitLength]
  split
  next hn =>
    subst hn
    rfl
  · omega

theorem length_ofNumber (n : UInt32) : (DigitName.ofNumber n).length = nameLength n := by
  rw [DigitName.ofNumber, List.length_map, length_digits]

theorem nameLength_le {n : UInt32} {bits : Nat} (hbits : 0 < bits) (h : n.toNat < 2 ^ bits) :
    nameLength n ≤ bits := by
  have hlength : bitLength n ≤ bits := by
    unfold bitLength
    split
    · omega
    next hn =>
      have hne : n.toNat ≠ 0 := fun e => hn (UInt32.toNat_inj.1 e)
      exact (Nat.log2_lt hne).2 h
  exact Nat.max_le.2 ⟨hlength, hbits⟩

/-- The letters of all names that spelling the text reads. -/
def nameLetters (s : Text) : Nat := ((s.filter (· ≠ '%')).map fun c => nameLength c.val).sum

theorem nameLetters_append (s t : Text) : nameLetters (s ++ t) = nameLetters s + nameLetters t := by
  simp [nameLetters]

theorem nameLetters_le {s : Text} {bound : Nat} (h : ∀ c ∈ s, nameLength c.val ≤ bound) :
    nameLetters s ≤ s.length * bound := by
  have hletters : ∀ m ∈ (s.filter (· ≠ '%')).map fun c => nameLength c.val, m ≤ bound := by
    intro m hm
    obtain ⟨c, hc, rfl⟩ := List.mem_map.1 hm
    exact h c (List.mem_of_mem_filter hc)
  have hsum := List.sum_le_card_nsmul _ bound hletters
  rw [List.length_map, Nat.nsmul_eq_mul] at hsum
  exact Nat.le_trans hsum (Nat.mul_le_mul_right bound (List.length_filter_le _ s))

end Statement

/-! ## Statements -/

theorem Expr.length_applied (e : Expr) (args : List Atom) :
    (e.applied args).text.length = e.text.length + (args.map fun a => a.text.length + 1).sum := by
  rw [text_applied, List.length_append, List.length_flatMap]
  rfl

namespace Statement

theorem length_ofBit (bit : Nat) : (Atom.ofBit bit).text.length = 8 := by
  unfold Atom.ofBit
  split <;> rfl

/-- The operands of an assignment, with the percents in front of them: eleven symbols for `0b`, and
nine for each bit. -/
theorem sum_length_assignmentArgs (n : UInt32) :
    ((assignmentArgs n).map fun a => a.text.length + 1).sum = 11 + 9 * nameLength n := by
  have hbits : ((Numeral.digits 2 n.toNat).map Atom.ofBit).map (fun a => a.text.length + 1) =
      List.replicate (nameLength n) 9 := by
    rw [List.map_map, ← length_digits, List.map_eq_replicate_iff]
    intro bit _
    exact congrArg (· + 1) (length_ofBit bit)
  have hzero : Atom.falsehood.text.length = 8 := rfl
  have hletter : (Atom.ident bootstrapName).text.length = 1 := rfl
  rw [assignmentArgs, List.map_cons, List.map_cons, List.sum_cons, List.sum_cons, hbits,
    List.sum_replicate_nat, hzero, hletter]
  omega

theorem length_assignment (n : UInt32) :
    (assignment n).text.length = 2 ^ (nameLength n + 2) + 11 * nameLength n + 15 := by
  have hcount : (assignmentArgs n).length = nameLength n + 2 := by
    simp [assignmentArgs, length_digits]
  have hrender := Template.length_render_ofSlots .hex (assignmentArgs n).length
  rw [hcount] at hrender
  rw [assignment, assignmentOf, Expr.length_applied, sum_length_assignmentArgs, hcount]
  simp only [Expr.text_atom, Atom.text_literal, assignmentLiteral, DigitName.text_ident,
    List.length_cons, List.length_append, List.length_nil, length_ofNumber]
  omega

theorem count_percent_spellingTemplate (s : Text) :
    (spellingTemplate s).segments.count .percent = s.count '%' := by
  induction s with
  | nil => rfl
  | cons c s ih =>
    by_cases hc : c = '%' <;> simp_all [spellingTemplate]

theorem sum_length_spellingArgs (s : Text) :
    ((spellingArgs s).map fun a => a.text.length + 1).sum = nameLetters s + spellingSlots s := by
  rw [spellingSlots, List.countP_eq_length_filter, spellingArgs, nameLetters, List.map_map]
  induction s.filter (· ≠ '%') with
  | nil => rfl
  | cons c rest ih =>
    simp only [List.map_cons, List.sum_cons, List.length_cons, ih, Function.comp_apply,
      Atom.text_ident, DigitName.text_ident, length_ofNumber]
    omega

/-- The length of a spelling: the template, and the names of the characters that are no percents. -/
theorem length_spelling (s : Text) :
    (spelling s).text.length =
      (s.count '%' + 1) * 2 ^ spellingSlots s + 1 + 2 * spellingSlots s + nameLetters s := by
  have hrender := Template.length_render (spellingTemplate s)
  rw [slots_spellingTemplate, count_percent_spellingTemplate] at hrender
  rw [spelling, Expr.length_applied, sum_length_spellingArgs]
  simp only [Expr.text_atom, Atom.text_literal, List.length_cons, List.length_append,
    List.length_nil]
  omega

end Statement

/-! ## Chains -/

theorem length_joinCalls {arguments : List Text} (h : arguments ≠ []) :
    (joinCalls arguments).length + 2 = (arguments.map fun t => t.length + 8).sum := by
  induction arguments with
  | nil => exact absurd rfl h
  | cons argument rest ih =>
    have hcall : (callText argument).length = argument.length + 6 := by simp [callText]
    cases rest with
    | nil =>
      rw [joinCalls_singleton, hcall]
      rfl
    | cons next rest =>
      have hrest := ih (List.cons_ne_nil next rest)
      rw [joinCalls_cons_cons, List.map_cons, List.sum_cons, ← hrest, List.length_append, hcall,
        List.length_cons, List.length_cons]
      omega

/-- Every call of a chain takes eight symbols beside its argument, the last one two less. -/
theorem Chain.length_text (chain : Chain) :
    chain.text.length + 2 = (chain.arguments.map fun t => t.length + 8).sum := by
  refine length_joinCalls fun h => chain.nonempty ?_
  exact List.map_eq_nil_iff.1 h

end Octoglyph
