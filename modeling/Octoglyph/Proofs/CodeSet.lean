import Octoglyph.Encoder.Encode
import Octoglyph.Proofs.Numeral

/-! # The codes of a program and their names

The codes that an encoding binds are the set of the codes that occur, in ascending order. Distinct
codes have distinct names, and none of these names is one that the other statements use.
-/

namespace Octoglyph

/-! ## Names of numbers -/

namespace DigitName

variable {n m : UInt32}

/-- The letters of a name tell the bits of its number. -/
theorem map_ofNumber (n : UInt32) :
    (ofNumber n).map (fun c => if c = Alphabet.oneLetter then 1 else 0) =
      Numeral.digits 2 n.toNat := by
  have hletter : ∀ bit < 2, (if letter bit = Alphabet.oneLetter then 1 else 0) = bit := by decide
  rw [ofNumber, List.map_map]
  calc
    _ = (Numeral.digits 2 n.toNat).map id :=
      List.map_congr_left fun bit hbit =>
        hletter bit (Numeral.lt_of_mem_digits (Nat.le_refl 2) hbit)
    _ = _ := List.map_id _

theorem ofNumber_injective (h : ofNumber n = ofNumber m) : n = m := by
  have hdigits : Numeral.digits 2 n.toNat = Numeral.digits 2 m.toNat := by
    rw [← map_ofNumber, h, map_ofNumber]
  exact UInt32.toNat_inj.1 (Numeral.digits_injective (Nat.le_refl 2) hdigits)

theorem eq_of_mem_ofNumber {c : Char} (h : c ∈ ofNumber n) :
    c = Alphabet.oneLetter ∨ c = Alphabet.zeroLetter := by
  obtain ⟨bit, -, rfl⟩ := List.mem_map.1 h
  unfold letter
  split
  · exact .inl rfl
  · exact .inr rfl

/-- A name that starts with another letter than those of bits is no number's. -/
theorem ofNumber_ne {name : Ident} (h : name.first ≠ Alphabet.oneLetter)
    (h' : name.first ≠ Alphabet.zeroLetter) : ofNumber n ≠ name.text := fun e => by
  have hfirst : name.first ∈ ofNumber n := e ▸ List.mem_cons_self
  exact (eq_of_mem_ofNumber hfirst).elim h h'

theorem ofNumber_ne_bootstrapName : ofNumber n ≠ Statement.bootstrapName.text :=
  ofNumber_ne (by decide) (by decide)

theorem ofNumber_ne_accumulatorName : ofNumber n ≠ Accumulator.name.text :=
  ofNumber_ne (by decide) (by decide)

end DigitName

/-! ## Ascending codes -/

/-- The list holds the codes of the characters of the text, each once and in ascending order. -/
structure IsCodeSet (codes : List UInt32) (text : Text) : Prop where
  ascending : codes.Pairwise (· < ·)
  mem_iff : ∀ n, n ∈ codes ↔ ∃ c ∈ text, c.val = n

theorem IsCodeSet.nodup {codes : List UInt32} {text : Text} (h : IsCodeSet codes text) :
    codes.Nodup :=
  h.ascending.imp fun hlt => UInt32.ne_of_lt hlt

namespace Encoder

variable {codes : List UInt32} {n m : UInt32}

theorem mem_insertCode : n ∈ insertCode m codes ↔ n = m ∨ n ∈ codes := by
  induction codes with
  | nil => simp [insertCode]
  | cons k rest ih =>
    rw [insertCode]
    split
    · simp
    · split
      next h =>
        subst h
        simp
      · rw [List.mem_cons, ih, List.mem_cons, or_left_comm]

theorem pairwise_insertCode (h : codes.Pairwise (· < ·)) :
    (insertCode n codes).Pairwise (· < ·) := by
  induction codes with
  | nil => simp [insertCode]
  | cons k rest ih =>
    obtain ⟨hk, hrest⟩ := List.pairwise_cons.1 h
    rw [insertCode]
    split
    next hlt =>
      refine List.pairwise_cons.2 ⟨fun m hm => ?_, h⟩
      rcases List.mem_cons.1 hm with rfl | hm
      · exact hlt
      · exact UInt32.lt_trans hlt (hk m hm)
    next hnot =>
      split
      · exact h
      next hne =>
        refine List.pairwise_cons.2 ⟨fun m hm => ?_, ih hrest⟩
        rcases mem_insertCode.1 hm with rfl | hm
        · exact UInt32.lt_of_le_of_ne (UInt32.not_lt.1 hnot) (Ne.symm hne)
        · exact hk m hm

/-- Inserting the codes of a text one by one adds them to what is there. -/
private theorem isCodeSet_foldl (text before : Text) (h : IsCodeSet codes before) :
    IsCodeSet (text.foldl (fun codes c => insertCode c.val codes) codes) (before ++ text) := by
  induction text generalizing codes before with
  | nil => simpa using h
  | cons c rest ih =>
    have hstep : IsCodeSet (insertCode c.val codes) (before ++ [c]) := by
      refine ⟨pairwise_insertCode h.ascending, fun n => ?_⟩
      rw [mem_insertCode, h.mem_iff]
      constructor
      · rintro (rfl | ⟨d, hd, rfl⟩)
        · exact ⟨c, by simp, rfl⟩
        · exact ⟨d, by simp [hd], rfl⟩
      · rintro ⟨d, hd, rfl⟩
        rcases List.mem_append.1 hd with hd | hd
        · exact .inr ⟨d, hd, rfl⟩
        · exact .inl (congrArg Char.val (List.mem_singleton.1 hd))
    simpa using ih (before ++ [c]) hstep

theorem isCodeSet_codesOf (text : Text) : IsCodeSet (codesOf text) text := by
  have hempty : IsCodeSet [] [] := ⟨.nil, by simp⟩
  exact isCodeSet_foldl text [] hempty

/-- An encoding binds the codes of its program and of the texts that its steps spell. -/
theorem isCodeSet_codes (program : Text) (steps : List Step) :
    IsCodeSet (Encoder.codes program steps) (program ++ steps.flatMap Step.spelled) :=
  isCodeSet_codesOf _

end Encoder

end Octoglyph
