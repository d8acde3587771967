import Mathlib.Algebra.BigOperators.Group.Finset.Basic
import Octoglyph.Proofs.Length

/-! # Lengths of templates in 64 bits

The length of a template is added up with a check at each step. The steps only ever add, so a check
fails only where the whole length is no size either, and checking all of them comes to checking the
sum once. A length that is a size also keeps every exponent below the bits of a word, so that a
machine that shifts words renders the same text. Not every size is the length of a string, though:
half of them are more than a string can hold, and then there is nothing to render.
-/

namespace Octoglyph.Template

/-! ## Checked sums -/

/-- The number, if it is a size. -/
def size? (n : Nat) : Option Nat := if n < 2 ^ sizeBits then some n else none

theorem size?_of_lt {n : Nat} (h : n < 2 ^ sizeBits) : size? n = some n := if_pos h

theorem size?_of_le {n : Nat} (h : 2 ^ sizeBits ≤ n) : size? n = none := if_neg (Nat.not_lt.2 h)

theorem doubled?_of_lt {n : Nat} (h : n < sizeBits) : doubled? n = some (2 ^ n) := if_pos h

theorem doubled?_of_le {n : Nat} (h : sizeBits ≤ n) : doubled? n = none := if_neg (Nat.not_lt.2 h)

/-- A number that is too large for half a word is no exponent either. -/
theorem halfWord?_bind_doubled? (n : Nat) : (halfWord? n).bind doubled? = doubled? n := by
  unfold halfWord?
  split
  · rfl
  next h =>
    have hbits : sizeBits ≤ Nat.pow 2 (sizeBits / 2) := by decide
    rw [doubled?_of_le (Nat.le_trans hbits (Nat.not_lt.1 h))]
    rfl

/-- A power of two that is a size leaves room for one more. -/
theorem two_pow_succ_lt {n : Nat} (h : n < sizeBits) : 2 ^ n + 1 < 2 ^ sizeBits := by
  have hpow : 2 ^ n ≤ 2 ^ 63 := Nat.pow_le_pow_right (by decide) (Nat.le_of_lt_succ h)
  have hbits : (2 : Nat) ^ 63 + 1 < 2 ^ sizeBits := by decide
  omega

theorem addSegments?_slot (percents slot length : Nat) (rest : List Segment) :
    addSegments? percents slot length (.slot :: rest) =
      (doubled? slot).bind fun run => (size? (run + 1)).bind fun run =>
        (size? (length + run)).bind fun length =>
          addSegments? percents (slot + 1) length rest := rfl

theorem addSegments?_percent (percents slot length : Nat) (rest : List Segment) :
    addSegments? percents slot length (.percent :: rest) =
      (size? (length + percents)).bind fun length => addSegments? percents slot length rest := rfl

/-- Adding up with checks is adding up and checking the sum. -/
theorem addSegments?_eq_size? (k : Conversion) {length : Nat} (h : length < 2 ^ sizeBits)
    (percents slot : Nat) (ss : List Segment) :
    addSegments? percents slot length ss =
      size? (length + (stage k percents slot [] ss).length) := by
  induction ss generalizing slot length with
  | nil =>
    rw [stage_nil, List.length_nil, Nat.add_zero, size?_of_lt h]
    rfl
  | cons s rest ih =>
    cases s with
    | slot =>
      have hlength : length + (stage k percents slot [] (.slot :: rest)).length =
          length + (2 ^ slot + 1) + (stage k percents (slot + 1) [] rest).length := by
        rw [stage_slot_open, List.length_append, List.length_replicate, List.length_cons]
        omega
      rw [hlength, addSegments?_slot]
      rcases Nat.lt_or_ge slot sizeBits with hslot | hslot
      · rw [doubled?_of_lt hslot, Option.bind_some, size?_of_lt (two_pow_succ_lt hslot),
          Option.bind_some]
        rcases Nat.lt_or_ge (length + (2 ^ slot + 1)) (2 ^ sizeBits) with hsum | hsum
        · rw [size?_of_lt hsum, Option.bind_some]
          exact ih hsum (slot + 1)
        · rw [size?_of_le hsum, size?_of_le (Nat.le_add_right_of_le hsum)]
          rfl
      · -- the run of this slot alone is too long
        have hpow : 2 ^ sizeBits ≤ 2 ^ slot := Nat.pow_le_pow_right (by decide) hslot
        rw [doubled?_of_le hslot, size?_of_le (by omega)]
        rfl
    | percent =>
      have hlength : length + (stage k percents slot [] (.percent :: rest)).length =
          length + percents + (stage k percents slot [] rest).length := by
        rw [stage_percent, List.length_append, List.length_replicate, Nat.add_assoc]
      rw [hlength, addSegments?_percent]
      rcases Nat.lt_or_ge (length + percents) (2 ^ sizeBits) with hsum | hsum
      · rw [size?_of_lt hsum, Option.bind_some]
        exact ih hsum slot
      · rw [size?_of_le hsum, size?_of_le (Nat.le_add_right_of_le hsum)]
        rfl

variable {t : Template}

/-- With too many slots the text has no size, even if no percent is there to be written. -/
theorem le_length_render_of_le_slots (h : sizeBits ≤ t.slots) :
    2 ^ sizeBits ≤ t.render.length := by
  have hlength := t.length_render
  have hpow : 2 ^ sizeBits ≤ 2 ^ t.slots := Nat.pow_le_pow_right (by decide) h
  have hruns : 2 ^ t.slots ≤ (t.segments.count .percent + 1) * 2 ^ t.slots :=
    Nat.le_mul_of_pos_left _ (Nat.succ_pos _)
  have hbits : 0 < sizeBits := by decide
  omega

theorem renderedLength?_eq_size? (t : Template) : t.renderedLength? = size? t.render.length := by
  have hunfold : t.renderedLength? = (halfWord? t.slots).bind fun total =>
      (doubled? total).bind fun percents => addSegments? percents 0 0 t.segments := rfl
  rw [hunfold, ← Option.bind_assoc, halfWord?_bind_doubled?]
  rcases Nat.lt_or_ge t.slots sizeBits with hslots | hslots
  · rw [doubled?_of_lt hslots, Option.bind_some,
      addSegments?_eq_size? t.conversion (by decide), ← render_eq_stage, Nat.zero_add]
  · rw [doubled?_of_le hslots, size?_of_le (le_length_render_of_le_slots hslots)]
    rfl

theorem slots_lt_of_renderedLength? {n : Nat} (h : t.renderedLength? = some n) :
    t.slots < sizeBits := by
  by_contra hslots
  rw [renderedLength?_eq_size?,
    size?_of_le (le_length_render_of_le_slots (Nat.not_lt.1 hslots))] at h
  cases h

/-! ## Room for the text -/

theorem lt_two_pow_iff_le_maxCapacity {n : Nat} : n < 2 ^ 63 ↔ n ≤ maxCapacity := by
  have hcapacity : maxCapacity + 1 = 2 ^ 63 := rfl
  omega

/-- A string can hold the text if it is no longer than any string. -/
theorem capacity?_of_lt (h : t.render.length < 2 ^ 63) : t.capacity? = some t.render.length := by
  have hsize : t.render.length < 2 ^ sizeBits := Nat.lt_trans h (by decide)
  simp only [capacity?, renderedLength?_eq_size?, size?_of_lt hsize,
    if_pos (lt_two_pow_iff_le_maxCapacity.1 h)]

theorem capacity?_of_le (h : 2 ^ 63 ≤ t.render.length) : t.capacity? = none := by
  have hlong : ¬ t.render.length ≤ maxCapacity := fun hle =>
    Nat.not_lt.2 h (lt_two_pow_iff_le_maxCapacity.2 hle)
  rw [capacity?, renderedLength?_eq_size?]
  rcases Nat.lt_or_ge t.render.length (2 ^ sizeBits) with hsize | hsize
  · simp only [size?_of_lt hsize, if_neg hlong]
  · simp only [size?_of_le hsize]

theorem render?_of_lt (h : t.render.length < 2 ^ 63) : t.render? = some t.render := by
  simp only [render?, capacity?_of_lt h]

theorem render?_of_le (h : 2 ^ 63 ≤ t.render.length) : t.render? = none := by
  simp only [render?, capacity?_of_le h]

/-! ## The length as a sum -/

/-- The length of the text as a number of any size: for the `i`-th slot its run and its letter, and
for each percent a run as long as for one more slot. -/
def fullLength (t : Template) : Nat :=
  ∑ i ∈ Finset.range t.slots, (2 ^ i + 1) + t.segments.count .percent * 2 ^ t.slots

theorem sum_two_pow_succ (n : Nat) : ∑ i ∈ Finset.range n, (2 ^ i + 1) + 1 = 2 ^ n + n := by
  induction n with
  | zero => rfl
  | succ n ih =>
    rw [Finset.sum_range_succ, Nat.pow_succ]
    omega

theorem length_render_eq_fullLength (t : Template) : t.render.length = t.fullLength := by
  have hlength := t.length_render
  have hsum := sum_two_pow_succ t.slots
  rw [Nat.succ_mul] at hlength
  unfold fullLength
  omega

/-! ## Rendering with words -/

/-- The exponents of the runs of percents, one for each segment. -/
def shiftsFrom (total : Nat) : (slot : Nat) → List Segment → List Nat
  | _, [] => []
  | slot, .slot :: rest => slot :: shiftsFrom total (slot + 1) rest
  | slot, .percent :: rest => total :: shiftsFrom total slot rest

def shifts (t : Template) : List Nat := shiftsFrom t.slots 0 t.segments

/-- What stands behind the run of a segment. -/
def mark (k : Conversion) : Segment → Text
  | .slot => [k.letter]
  | .percent => []

/-- The segments written with runs of percents that depend on the exponents. -/
def written (k : Conversion) (run : Nat → Nat) (shifts : List Nat) (ss : List Segment) : Text :=
  (List.zipWith (fun n s => List.replicate (run n) '%' ++ mark k s) shifts ss).flatten

theorem stage_eq_written (k : Conversion) (total slot : Nat) (ss : List Segment) :
    stage k (2 ^ total) slot [] ss = written k (2 ^ ·) (shiftsFrom total slot ss) ss := by
  induction ss generalizing slot with
  | nil => simp [written]
  | cons s rest ih => cases s <;> simp [ih, written, shiftsFrom, mark]

theorem render_eq_written (t : Template) :
    t.render = written t.conversion (2 ^ ·) t.shifts t.segments := by
  rw [render_eq_stage, stage_eq_written, shifts]

theorem written_congr {run run' : Nat → Nat} {shifts : List Nat}
    (h : ∀ n ∈ shifts, run n = run' n) (k : Conversion) (ss : List Segment) :
    written k run shifts ss = written k run' shifts ss := by
  induction shifts generalizing ss with
  | nil => rfl
  | cons n shifts ih =>
    obtain ⟨hn, hshifts⟩ := List.forall_mem_cons.1 h
    cases ss with
    | nil => rfl
    | cons s rest =>
      have hrest := ih hshifts rest
      simp only [written, List.zipWith_cons_cons, List.flatten_cons, hn] at hrest ⊢
      rw [hrest]

/-- No exponent exceeds the number of slots. -/
theorem le_of_mem_shiftsFrom {total slot n : Nat} {ss : List Segment}
    (htotal : slot + ss.count .slot ≤ total) (h : n ∈ shiftsFrom total slot ss) : n ≤ total := by
  induction ss generalizing slot with
  | nil => cases h
  | cons s rest ih =>
    cases s with
    | slot =>
      rw [List.count_cons_self] at htotal
      rcases List.mem_cons.1 h with rfl | h
      · omega
      · exact ih (by omega) h
    | percent =>
      rw [List.count_cons_of_ne (by decide)] at htotal
      rcases List.mem_cons.1 h with rfl | h
      · exact Nat.le_refl _
      · exact ih htotal h

theorem lt_of_mem_shifts {n shift : Nat} (h : t.renderedLength? = some n)
    (hshift : shift ∈ t.shifts) : shift < sizeBits := by
  have hle : shift ≤ t.slots := le_of_mem_shiftsFrom (Nat.zero_add _).le hshift
  exact Nat.lt_of_le_of_lt hle (slots_lt_of_renderedLength? h)

/-- A run as a word counts it: one is shifted by the exponent, of which only the remainder by the
bits of a word matters. -/
def wordRun (n : Nat) : Nat := ((1 : UInt64) <<< n.toUInt64).toNat

theorem wordRun_of_lt {n : Nat} (h : n < sizeBits) : wordRun n = 2 ^ n := by
  have hpow : 2 ^ n < 2 ^ 64 := Nat.pow_lt_pow_right (by decide) h
  have hshift : n.toUInt64.toNat = n := UInt64.toNat_ofNat_of_lt' (Nat.lt_trans h (by decide))
  have hmod : n % 64 = n := Nat.mod_eq_of_lt h
  rw [wordRun, UInt64.toNat_shiftLeft, hshift, hmod, UInt64.toNat_one, Nat.one_shiftLeft,
    Nat.mod_eq_of_lt hpow]

/-- The length of a template is computed exactly: as the length of its text if that is below two to
the power of 64, and as nothing otherwise. If it is computed, then every exponent in the text is
below 64, the runs of percents are the same when words are shifted, and the text has this length, in
characters as well as in bytes. It is rendered if and only if its length is below two to the power
of 63. -/
theorem renderedLength?_exact (t : Template) :
    (t.fullLength < 2 ^ 64 → t.renderedLength? = some t.fullLength) ∧
    (2 ^ 64 ≤ t.fullLength → t.renderedLength? = none) ∧
    (∀ n, t.renderedLength? = some n →
      (∀ shift ∈ t.shifts, shift < 64) ∧
        written t.conversion wordRun t.shifts t.segments = t.render ∧
          t.render.length = n ∧ t.render.byteLength = n) ∧
    (t.fullLength < 2 ^ 63 → t.render? = some t.render) ∧
    (2 ^ 63 ≤ t.fullLength → t.render? = none) := by
  have hexact : t.renderedLength? = size? t.fullLength := by
    rw [renderedLength?_eq_size?, length_render_eq_fullLength]
  refine ⟨fun h => hexact.trans (size?_of_lt h), fun h => hexact.trans (size?_of_le h), ?_, ?_, ?_⟩
  · intro n h
    have hlength : t.render.length = n := by
      have hsize := h
      rw [renderedLength?_eq_size?] at hsize
      unfold size? at hsize
      split at hsize
      · exact Option.some.inj hsize
      · cases hsize
    refine ⟨fun shift => lt_of_mem_shifts h, ?_, hlength, ?_⟩
    · rw [render_eq_written]
      exact written_congr (fun shift hshift => wordRun_of_lt (lt_of_mem_shifts h hshift)) _ _
    · rw [(spelled_render t).byteLength_eq, hlength]
  · rw [← length_render_eq_fullLength]
    exact render?_of_lt
  · rw [← length_render_eq_fullLength]
    exact render?_of_le

/-- Sixty-two slots are the most that are rendered, and sixty-three the most that have a size;
together with a percent they have none. A slot, a percent and another slot are nine symbols. -/
theorem renderedLength?_exact_limit :
    (ofSlots .hex 62).render? = some (ofSlots .hex 62).render ∧
      (ofSlots .hex 63).renderedLength? = some (2 ^ 63 - 1 + 63) ∧
      (ofSlots .hex 63).pushPercent.renderedLength? = none ∧
      (ofSlots .char 64).renderedLength? = none ∧
      (mk .char [.slot, .percent, .slot]).render.byteLength = 9 := by
  obtain ⟨-, -, -, hrendered, -⟩ := renderedLength?_exact (ofSlots .hex 62)
  obtain ⟨hslots, -⟩ := renderedLength?_exact (ofSlots .hex 63)
  obtain ⟨-, hpercent, -⟩ := renderedLength?_exact (ofSlots .hex 63).pushPercent
  obtain ⟨-, hmore, -⟩ := renderedLength?_exact (ofSlots .char 64)
  obtain ⟨hfits, -, hlength, -⟩ := renderedLength?_exact (mk .char [.slot, .percent, .slot])
  have hfull : (ofSlots .hex 63).fullLength = 2 ^ 63 - 1 + 63 := by decide +kernel
  refine ⟨hrendered (by decide +kernel), ?_, hpercent (by decide +kernel),
    hmore (by decide +kernel), ?_⟩
  · rw [hslots (by decide +kernel), hfull]
  · exact (hlength 9 (hfits (by decide +kernel))).2.2.2

/-- The length of sixty-three slots is computed, but nothing is rendered. -/
theorem renderedLength?_exceeds_capacity :
    (ofSlots .hex 63).renderedLength? = some (2 ^ 63 - 1 + 63) ∧
      (ofSlots .hex 63).render? = none := by
  have hlength : (ofSlots .hex 63).render.length = 2 ^ 63 - 1 + 63 := by
    have h := length_render_ofSlots .hex 63
    omega
  refine ⟨?_, render?_of_le (by omega)⟩
  rw [renderedLength?_eq_size?, size?_of_lt (by rw [hlength]; decide), hlength]

end Octoglyph.Template
