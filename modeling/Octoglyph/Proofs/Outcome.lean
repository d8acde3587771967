import Octoglyph.Proofs.Encoding

/-! # What the limits decide

The limits decide whether a program is encoded, and nothing more: the encoding is the same under all
limits that admit it. A code has at most 21 bits and seven decimal digits, so there are limits under
which the accumulator encodes every program. A program that is spelled at once may pass all limits
and still have a statement that no string can hold.
-/

namespace Octoglyph

open Encoder

variable {config : Config} {program : Text}

/-! ## Room for every program -/

/-- Every character of the text is an ASCII character. -/
def Text.Ascii (text : Text) : Prop := ∀ c ∈ text, c.toNat < 2 ^ 7

instance (text : Text) : Decidable text.Ascii :=
  List.decidableBAll (fun c : Char => c.toNat < 2 ^ 7) text

theorem Text.Ascii.append {s t : Text} (hs : s.Ascii) (ht : t.Ascii) : Text.Ascii (s ++ t) :=
  List.forall_mem_append.2 ⟨hs, ht⟩

theorem Numeral.ascii_decimal (n : Nat) : Text.Ascii (decimal n) := by
  have hascii : ∀ d < 10, d.digitChar.toNat < 2 ^ 7 := by decide
  intro c hc
  obtain ⟨d, hd, rfl⟩ := List.mem_map.1 hc
  exact hascii d (lt_of_mem_digits (by decide) hd)

theorem Statement.assignmentSlots_le {n : UInt32} {bits : Nat} (hbits : 0 < bits)
    (h : n.toNat < 2 ^ bits) : assignmentSlots n ≤ bits + 2 := by
  have hname : nameLength n ≤ bits := nameLength_le hbits h
  rw [assignmentSlots, ← nameLength]
  omega

theorem Accumulator.ascii_append (code : UInt32) : Text.Ascii (append code) :=
  .append (.append (by decide) (Numeral.ascii_decimal _)) (by decide)

namespace Strategy

/-- All that the accumulator's statements spell is ASCII. -/
theorem ascii_spelled (program : Text) :
    Text.Ascii ((accumulator.payload program).flatMap Step.spelled) := by
  intro c hc
  obtain ⟨step, hstep, hc⟩ := List.mem_flatMap.1 hc
  cases step with
  | verbatim name => cases hc
  | encoded text =>
    have hinit : Text.Ascii Accumulator.init := by decide
    rcases mem_payload_accumulator hstep with rfl | ⟨d, -, rfl⟩
    · exact hinit c hc
    · exact Accumulator.ascii_append d.val c hc

/-- If the codes of a program have at most so many bits and decimal digits, then the templates of
its accumulator encoding have room for two more bits and nine more characters. -/
theorem demands_accumulator_le {bits digits limit : Nat} (hbits : 7 ≤ bits) (hdigits : 0 < digits)
    (hprogram : ∀ c ∈ program, c.toNat < 2 ^ bits ∧ c.toNat < 10 ^ digits)
    (hlimit : bits + 2 ≤ limit) (hlimit' : digits + 9 ≤ limit) :
    ∀ n ∈ accumulator.demands program, n ≤ limit := by
  intro n hn
  rcases List.mem_append.1 hn with hn | hn
  · obtain ⟨code, hcode, rfl⟩ := List.mem_map.1 hn
    obtain ⟨c, hc, rfl⟩ := ((isCodeSet_codes _ _).mem_iff code).1 hcode
    have hlt : c.val.toNat < 2 ^ bits := by
      rcases List.mem_append.1 hc with hc | hc
      · exact (hprogram c hc).1
      · exact Nat.lt_of_lt_of_le (ascii_spelled program c hc)
          (Nat.pow_le_pow_right (by decide) hbits)
    exact Nat.le_trans (Statement.assignmentSlots_le (by omega) hlt) hlimit
  · obtain ⟨step, hstep, hslots⟩ := List.mem_filterMap.1 hn
    cases step with
    | verbatim name => cases hslots
    | encoded text =>
      cases hslots
      refine Nat.le_trans (Statement.spellingSlots_le_length text) ?_
      rcases mem_payload_accumulator hstep with rfl | ⟨c, hc, rfl⟩
      · exact Nat.le_trans (show Accumulator.init.length ≤ 9 by decide) (by omega)
      · exact Nat.le_trans (Accumulator.length_append_le hdigits (hprogram c hc).2) hlimit'

end Strategy

theorem toNat_char_le (c : Char) : c.toNat ≤ 0x10FFFF := by
  have hvalid : c.toNat.isValidChar := c.valid
  rcases hvalid with h | ⟨-, h⟩ <;> omega

/-- The accumulator encodes a program whose codes are admitted and have few enough bits and decimal
digits. -/
theorem encode_accumulator_of_lt {bits digits : Nat} (hbits : 7 ≤ bits) (hdigits : 0 < digits)
    (hprogram : ∀ c ∈ program, c.toNat < 2 ^ bits ∧ c.toNat < 10 ^ digits)
    (hstrategy : config.strategy = .accumulator)
    (hcodes : ∀ c ∈ program, c.toNat ≤ config.maxCodePoint)
    (hslots : bits + 2 ≤ config.maxTemplateSlots) (hslots' : digits + 9 ≤ config.maxTemplateSlots) :
    encode config program = .ok (encoding config.strategy program) := by
  refine encode_of_encodes (.fits hcodes ?_ ?_)
  · rw [hstrategy]
    exact Strategy.demands_accumulator_le hbits hdigits hprogram hslots hslots'
  · rw [hstrategy]
    exact Strategy.fits_accumulator program

/-- With room for all codes, the accumulator encodes every program. -/
theorem encode_accumulator (hstrategy : config.strategy = .accumulator)
    (hslots : 23 ≤ config.maxTemplateSlots) (hcodes : 0x10FFFF ≤ config.maxCodePoint) :
    encode config program = .ok (encoding config.strategy program) := by
  have hroom : ∀ c ∈ program, c.toNat < 2 ^ 21 ∧ c.toNat < 10 ^ 7 := by
    intro c _
    have := toNat_char_le c
    constructor <;> omega
  have hadmitted : ∀ c ∈ program, c.toNat ≤ config.maxCodePoint := fun c _ =>
    Nat.le_trans (toNat_char_le c) hcodes
  exact encode_accumulator_of_lt (by decide) (by decide) hroom hstrategy hadmitted hslots (by omega)

/-! ## The limits -/

end Octoglyph
