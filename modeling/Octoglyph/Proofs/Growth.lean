import Mathlib.Algebra.Order.BigOperators.Group.Finset
import Octoglyph.Proofs.Editing
import Octoglyph.Proofs.Length
import Octoglyph.Proofs.Outcome

/-! # How the accumulator's encodings grow

The length of an encoding has two parts. The assignments cost once for every code that is needed,
however often it is. The statements that append cost once for every character, whatever stands
beside it. So the length depends on the characters of the program and not on their order, and
programs that share codes are cheaper to encode together.
-/

namespace Octoglyph

open Statement Encoder

/-! ## The codes that are needed -/

/-- What is done for every code that is needed adds up over the set of the codes. -/
theorem IsCodeSet.sum_map {codes : List UInt32} {text : Text} (h : IsCodeSet codes text)
    (f : UInt32 → Nat) : (codes.map f).sum = ∑ n ∈ (text.map Char.val).toFinset, f n := by
  have hset : codes.toFinset = (text.map Char.val).toFinset := by
    ext n
    rw [List.mem_toFinset, h.mem_iff, List.mem_toFinset, List.mem_map]
  rw [← hset, List.sum_toFinset f h.nodup]

namespace Accumulator

/-- The codes that the accumulator assigns for a program. -/
def needed (program : Text) : Finset UInt32 :=
  ((program ++ (Strategy.accumulator.payload program).flatMap Step.spelled).map Char.val).toFinset

theorem mem_needed {program : Text} {n : UInt32} :
    n ∈ needed program ↔
      (∃ d ∈ init, d.val = n) ∨ ∃ c ∈ program, c.val = n ∨ ∃ d ∈ append c.val, d.val = n := by
  have hspelled : (Strategy.accumulator.payload program).flatMap Step.spelled =
      init ++ program.flatMap fun c => append c.val := by
    simp [Strategy.payload, Step.spelled, List.flatMap_map]
  rw [needed, hspelled, List.mem_toFinset, List.mem_map]
  constructor
  · rintro ⟨d, hd, rfl⟩
    rcases List.mem_append.1 hd with hd | hd
    · exact .inr ⟨d, hd, .inl rfl⟩
    · rcases List.mem_append.1 hd with hd | hd
      · exact .inl ⟨d, hd, rfl⟩
      · obtain ⟨c, hc, hd⟩ := List.mem_flatMap.1 hd
        exact .inr ⟨c, hc, .inr ⟨d, hd, rfl⟩⟩
  · rintro (⟨d, hd, rfl⟩ | ⟨c, hc, rfl | ⟨d, hd, rfl⟩⟩)
    · exact ⟨d, List.mem_append_right _ (List.mem_append_left _ hd), rfl⟩
    · exact ⟨c, List.mem_append_left _ hc, rfl⟩
    · exact ⟨d, List.mem_append_right _ (List.mem_append_right _
        (List.mem_flatMap.2 ⟨c, hc, hd⟩)), rfl⟩

theorem needed_append (p q : Text) : needed (p ++ q) = needed p ∪ needed q := by
  ext n
  rw [Finset.mem_union, mem_needed, mem_needed, mem_needed]
  grind

theorem needed_of_perm {p q : Text} (h : p.Perm q) : needed p = needed q := by
  ext n
  simp only [mem_needed, h.mem_iff]

theorem toNat_lt_of_mem_needed {program : Text} (h : Text.Ascii program) {n : UInt32}
    (hn : n ∈ needed program) : n.toNat < 2 ^ 7 := by
  have hinit : Text.Ascii init := by decide
  rcases mem_needed.1 hn with ⟨d, hd, rfl⟩ | ⟨c, hc, rfl | ⟨d, hd, rfl⟩⟩
  · exact hinit d hd
  · exact h c hc
  · exact ascii_append c.val d hd

/-- A program of ASCII characters needs at most 128 codes. -/
theorem card_needed_le {program : Text} (h : Text.Ascii program) :
    (needed program).card ≤ 2 ^ 7 := by
  have hmaps : ∀ n ∈ needed program, n.toNat ∈ Finset.range (2 ^ 7) := fun n hn =>
    Finset.mem_range.2 (toNat_lt_of_mem_needed h hn)
  have hinj : Set.InjOn UInt32.toNat (needed program) := fun n _ m _ e => UInt32.toNat_inj.1 e
  simpa using Finset.card_le_card_of_injOn UInt32.toNat hmaps hinj

end Accumulator

/-! ## The length of an encoding -/

/-- The length of what a program is encoded as under the defaults, which take the accumulator. -/
def encodedLength (program : Text) : Nat :=
  match encode {} program with
  | .ok encoded => encoded.text.byteLength
  | .error _ => 0

namespace Accumulator

/-- What the assignment of a code adds to an encoding. -/
def assignmentCost (n : UInt32) : Nat := (assignment n).text.length + 8

/-- What a character of the program adds to an encoding, assignments apart. -/
def appendCost (c : Char) : Nat := (appendStatement c).length + 8

/-- What every encoding has: the first statement, the one that empties the variable and the one that
executes it. -/
def baseCost : Nat :=
  (bootstrap.text.length + 8) + ((spelling init).text.length + 8) + (name.text.length + 8) - 2

theorem baseCost_eq : baseCost = 126 := by
  have hbootstrap : bootstrap.text.length = 27 := by decide
  have hinit : (spelling init).text.length = 75 := by
    rw [length_spelling]
    decide +kernel
  rw [baseCost, hbootstrap, hinit]
  rfl

theorem sum_statements (codes : List UInt32) (program : Text) :
    ((Encoder.statements (assignments codes)
        (statements (program.map appendStatement))).map fun t => t.length + 8).sum =
      baseCost + 2 + (codes.map assignmentCost).sum + (program.map appendCost).sum := by
  have hassign : (assignments codes).map (fun t => t.length + 8) = codes.map assignmentCost := by
    rw [assignments, List.map_map]
    rfl
  have happend : (program.map appendStatement).map (fun t => t.length + 8) =
      program.map appendCost := by
    rw [List.map_map]
    rfl
  simp only [Encoder.statements, statements, List.map_cons, List.map_append, List.map_nil, hassign,
    happend, List.sum_cons, List.sum_append, List.sum_nil, baseCost]
  omega

/-- The length of an encoding: what all have, the codes that are needed, and the characters. -/
theorem encodedLength_eq (program : Text) :
    encodedLength program =
      baseCost + ∑ n ∈ needed program, assignmentCost n + (program.map appendCost).sum := by
  have h : encode {} program = .ok (encoding .accumulator program) :=
    encode_accumulator rfl (by decide) (by decide)
  have hlayout : Layout .accumulator program (encoding .accumulator program) _ :=
    layout_of_encode h
  have hspelled : Alphabet.Spelled (encoding .accumulator program).text :=
    spelled_assemble _ .accumulator program
  have hlength := (encoding .accumulator program).chain.length_text
  rw [← (encoding .accumulator program).text_eq, hlayout.arguments_eq,
    Strategy.statements_accumulator, sum_statements, hlayout.isCodeSet.sum_map] at hlength
  simp only [encodedLength, h, hspelled.byteLength_eq, needed]
  omega

/-! ## Bounds -/

theorem assignmentCost_le {n : UInt32} {bits : Nat} (hbits : 0 < bits) (h : n.toNat < 2 ^ bits) :
    assignmentCost n ≤ 2 ^ (bits + 2) + 11 * bits + 23 := by
  have hname : nameLength n ≤ bits := nameLength_le hbits h
  have hpow : 2 ^ (nameLength n + 2) ≤ 2 ^ (bits + 2) :=
    Nat.pow_le_pow_right (by decide) (Nat.add_le_add_right hname 2)
  rw [assignmentCost, length_assignment]
  omega

theorem nameLetters_decimal_le (n : Nat) :
    nameLetters (Numeral.decimal n) ≤ (Numeral.decimal n).length * 6 := by
  have hdigit : ∀ d < 10, nameLength d.digitChar.val ≤ 6 := by decide
  refine nameLetters_le fun c hc => ?_
  obtain ⟨d, hd, rfl⟩ := List.mem_map.1 hc
  exact hdigit d (Numeral.lt_of_mem_digits (by decide) hd)

/-- A character costs as much as the decimal digits of its code make it. -/
theorem appendCost_le {c : Char} {digits : Nat} (hdigits : 0 < digits)
    (h : c.toNat < 10 ^ digits) : appendCost c ≤ 2 ^ (digits + 9) + 8 * digits + 86 := by
  have hpercents : (append c.val).count '%' = 0 := List.count_eq_zero.2 (percent_not_mem_append _)
  have hslots : spellingSlots (append c.val) ≤ digits + 9 :=
    Nat.le_trans (spellingSlots_le_length _) (length_append_le hdigits h)
  have hpow : 2 ^ spellingSlots (append c.val) ≤ 2 ^ (digits + 9) :=
    Nat.pow_le_pow_right (by decide) hslots
  have hletters : nameLetters (append c.val) ≤ 6 * digits + 59 := by
    have hfront : nameLetters (name.text ++ ['+', '=', 'c', 'h', 'r', '(']) = 53 := by decide
    have hlast : nameLetters [')'] = 6 := by decide
    have hnumber := nameLetters_decimal_le c.val.toNat
    have hlength : (Numeral.decimal c.val.toNat).length ≤ digits :=
      Numeral.length_decimal_le hdigits h
    rw [append, nameLetters_append, nameLetters_append, hfront, hlast]
    omega
  rw [appendCost, appendStatement, length_spelling, hpercents]
  omega

end Accumulator

open Accumulator

variable {p q : Text}

/-- Codes that both programs need are assigned once. -/
theorem encodedLength_append_le (p q : Text) :
    encodedLength (p ++ q) ≤ encodedLength p + encodedLength q := by
  have hunion : ∑ n ∈ needed p ∪ needed q, assignmentCost n +
      ∑ n ∈ needed p ∩ needed q, assignmentCost n =
        ∑ n ∈ needed p, assignmentCost n + ∑ n ∈ needed q, assignmentCost n :=
    Finset.sum_union_inter
  rw [encodedLength_eq, encodedLength_eq, encodedLength_eq, needed_append, List.map_append,
    List.sum_append]
  omega

theorem encodedLength_lt_append (hq : q ≠ []) : encodedLength p < encodedLength (p ++ q) := by
  have hcodes : ∑ n ∈ needed p, assignmentCost n ≤ ∑ n ∈ needed p ∪ needed q, assignmentCost n :=
    Finset.sum_le_sum_of_subset Finset.subset_union_left
  have hchars : 0 < (q.map appendCost).sum := by
    obtain ⟨c, rest, rfl⟩ := List.exists_cons_of_ne_nil hq
    rw [List.map_cons, List.sum_cons, appendCost]
    omega
  rw [encodedLength_eq, encodedLength_eq, needed_append, List.map_append, List.sum_append]
  omega

theorem encodedLength_of_perm (h : q.Perm p) : encodedLength p = encodedLength q := by
  rw [encodedLength_eq, encodedLength_eq, needed_of_perm h, (h.map appendCost).sum_eq]

/-- A program of ASCII characters needs at most 128 codes of seven bits, and three decimal digits
for each character. -/
theorem encodedLength_le_of_ascii (h : Text.Ascii p) :
    encodedLength p ≤ 4206 * p.length + 80000 := by
  have hcodes : ∑ n ∈ needed p, assignmentCost n ≤ 128 * 612 := by
    calc
      _ ≤ (needed p).card * 612 := Finset.sum_le_card_nsmul _ _ _ fun n hn =>
        assignmentCost_le (by decide) (toNat_lt_of_mem_needed h hn)
      _ ≤ 128 * 612 := Nat.mul_le_mul_right _ (card_needed_le h)
  have hchars : (p.map appendCost).sum ≤ p.length * 4206 := by
    have hle : ∀ cost ∈ p.map appendCost, cost ≤ 4206 := by
      intro cost hcost
      obtain ⟨c, hc, rfl⟩ := List.mem_map.1 hcost
      exact appendCost_le (by decide) (Nat.lt_trans (h c hc) (by decide : 2 ^ 7 < 10 ^ 3))
    have hsum := List.sum_le_card_nsmul _ _ hle
    rwa [List.length_map, Nat.nsmul_eq_mul] at hsum
  rw [encodedLength_eq, baseCost_eq]
  omega

/-- The accumulator's encodings grow with their programs and at most linearly. Every program is
encoded. Two programs together take at most what they take apart, and more than the first alone. The
order of the characters makes no difference. An ASCII character takes at most 4206 symbols, and what
a program takes only once is at most 80000 of them. -/
theorem encodedLength_growth :
    (∀ p, ∃ encoded, encode {} p = .ok encoded) ∧
      (∀ p q, encodedLength (p ++ q) ≤ encodedLength p + encodedLength q) ∧
        (∀ p q, q ≠ [] → encodedLength p < encodedLength (p ++ q)) ∧
          (∀ p q, List.Perm q p → encodedLength p = encodedLength q) ∧
            ∀ p, Text.Ascii p → encodedLength p ≤ 4206 * p.length + 80000 :=
  ⟨fun _ => ⟨_, encode_accumulator rfl (by decide) (by decide)⟩, encodedLength_append_le,
    fun _ _ => encodedLength_lt_append, fun _ _ => encodedLength_of_perm,
    fun _ => encodedLength_le_of_ascii⟩

/-- A letter more makes an encoding longer, and two letters take as much in either order. -/
theorem encodedLength_growth_letters :
    encodedLength ['a'] < encodedLength ['a', 'b'] ∧
      encodedLength ['a', 'b'] = encodedLength ['b', 'a'] ∧
        encodedLength ['a', 'b'] ≤ 4206 * 2 + 80000 := by
  obtain ⟨-, -, hlt, hperm, hle⟩ := encodedLength_growth
  refine ⟨hlt ['a'] ['b'] (List.cons_ne_nil _ _), hperm _ _ (.swap 'a' 'b' []), ?_⟩
  exact hle ['a', 'b'] (by decide)

end Octoglyph
