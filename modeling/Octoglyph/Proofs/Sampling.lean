import Octoglyph.Growth.Source
import Octoglyph.Proofs.Growth

/-! # Sampling how encodings grow

The programs that are measured depend on the source of codes and on the lengths, and on nothing that
is done with them in between. So a range of lengths can be sampled in parts, each from the source
that the one before it leaves. All codes that are drawn are small, so that the accumulator needs
little room to encode every program that can come up.
-/

namespace Octoglyph.Growth

open Encoder

variable {σ : Type} {draw : StateM σ Code} {config : Config}

/-! ## Drawing -/

/-- The text has the given length and could have been drawn. -/
structure Drawn (length : Nat) (program : Text) : Prop where
  length_eq : program.length = length
  code_lt : ∀ c ∈ program, c.toNat < codeBound

theorem toNat_ofNat_lt (code : Code) : (Char.ofNat code.val).toNat < codeBound := by
  have hvalid : code.val.isValidChar := .inl (Nat.lt_trans code.isLt (by decide))
  rw [Char.ofNat, dif_pos hvalid]
  exact code.isLt

theorem drawn_mapM (draw : StateM σ Code) {α : Type} (places : List α) (source : σ) :
    Drawn places.length
      ((places.mapM fun _ => return Char.ofNat (← draw).val : StateM σ Text) source).1 := by
  induction places generalizing source with
  | nil => exact ⟨rfl, List.forall_mem_nil _⟩
  | cons place places ih =>
    obtain ⟨hlength, hcodes⟩ := ih (draw source).2
    rw [List.mapM_cons]
    exact ⟨congrArg (· + 1) hlength, List.forall_mem_cons.2 ⟨toNat_ofNat_lt _, hcodes⟩⟩

theorem drawn_drawProgram (draw : StateM σ Code) (length : Nat) (source : σ) :
    Drawn length (drawProgram draw length source).1 := by
  have hdrawn := drawn_mapM draw (List.range length) source
  rwa [List.length_range] at hdrawn

/-- Draws a program of each length, one after the other. -/
def drawPrograms (draw : StateM σ Code) (lengths : List Nat) : StateM σ (List Text) :=
  lengths.mapM (drawProgram draw)

theorem drawPrograms_cons (draw : StateM σ Code) (length : Nat) (lengths : List Nat) (source : σ) :
    drawPrograms draw (length :: lengths) source =
      let first := drawProgram draw length source
      let rest := drawPrograms draw lengths first.2
      (first.1 :: rest.1, rest.2) := by
  rw [drawPrograms, List.mapM_cons]
  rfl

theorem drawn_drawPrograms (draw : StateM σ Code) (lengths : List Nat) (source : σ) :
    List.Forall₂ Drawn lengths (drawPrograms draw lengths source).1 := by
  induction lengths generalizing source with
  | nil => exact .nil
  | cons length lengths ih =>
    rw [drawPrograms_cons]
    exact .cons (drawn_drawProgram draw length source) (ih _)

/-! ## Measuring -/

/-- The sample is what encoding the program comes to. -/
def Measures (config : Config) (program : Text) (s : Sample) : Prop :=
  ∃ encoded, encode config program = .ok encoded ∧ s = ⟨program.length, encoded.text.length⟩

theorem byteLength_eq_length_of_encode {program : Text} {encoded : Encoded}
    (h : encode config program = .ok encoded) :
    encoded.text.byteLength = encoded.text.length := by
  obtain rfl := eq_encoding_of_encode h
  exact (spelled_assemble _ config.strategy program).byteLength_eq

theorem measure_eq_map (draw : StateM σ Code) (config : Config) (length : Nat) (source : σ) :
    measure draw config length source =
      (encode config (drawProgram draw length source).1).map fun encoded =>
        (⟨length, encoded.text.byteLength⟩, (drawProgram draw length source).2) := by
  unfold measure
  change (encode config (drawProgram draw length source).1 >>= _) = _
  cases encode config (drawProgram draw length source).1 <;> rfl

theorem measure_eq_ok_iff {length : Nat} {source source' : σ} {s : Sample} :
    measure draw config length source = .ok (s, source') ↔
      Measures config (drawProgram draw length source).1 s ∧
        (drawProgram draw length source).2 = source' := by
  rw [measure_eq_map, Measures, (drawn_drawProgram draw length source).length_eq]
  cases h : encode config (drawProgram draw length source).1 with
  | error e => simp [Except.map]
  | ok encoded => simp [Except.map, byteLength_eq_length_of_encode h, eq_comm]

/-- Two steps that may fail succeed together if the second does where the first leaves the state. -/
theorem run_bind_eq_ok_iff {ε α β : Type} {x : StateT σ (Except ε) α}
    {f : α → StateT σ (Except ε) β} {source source' : σ} {result : β} :
    (x >>= f) source = .ok (result, source') ↔
      ∃ a between, x source = .ok (a, between) ∧ f a between = .ok (result, source') := by
  change (x source >>= fun first => f first.1 first.2) = _ ↔ _
  rw [bind_eq_ok_iff, Prod.exists]

theorem run_pure_eq_ok_iff {ε α : Type} {a b : α} {source source' : σ} :
    (pure a : StateT σ (Except ε) α) source = .ok (b, source') ↔ a = b ∧ source = source' := by
  change Except.ok (a, source) = _ ↔ _
  rw [Except.ok.injEq, Prod.mk.injEq]

/-- Measuring is drawing all programs and then encoding them: it succeeds with the samples of what
is drawn, and leaves the source where drawing leaves it. -/
theorem mapM_measure_eq_ok_iff {lengths : List Nat} {source source' : σ} {samples : List Sample} :
    lengths.mapM (measure draw config) source = .ok (samples, source') ↔
      List.Forall₂ (Measures config) (drawPrograms draw lengths source).1 samples ∧
        (drawPrograms draw lengths source).2 = source' := by
  induction lengths generalizing source samples with
  | nil =>
    have hdrawn : drawPrograms draw [] source = ([], source) := rfl
    rw [List.mapM_nil, run_pure_eq_ok_iff, hdrawn, List.forall₂_nil_left_iff, eq_comm]
  | cons length lengths ih =>
    simp only [drawPrograms_cons, List.mapM_cons, run_bind_eq_ok_iff, run_pure_eq_ok_iff,
      measure_eq_ok_iff, List.forall₂_cons_left_iff]
    constructor
    · rintro ⟨s, _, ⟨hs, rfl⟩, rest, _, hrun, rfl, rfl⟩
      obtain ⟨hrest, rfl⟩ := ih.1 hrun
      exact ⟨⟨s, rest, hs, hrest, rfl⟩, rfl⟩
    · rintro ⟨⟨s, rest, hs, hrest, rfl⟩, rfl⟩
      exact ⟨s, _, ⟨hs, rfl⟩, rest, _, ih.2 ⟨hrest, rfl⟩, rfl, rfl⟩

/-! ## Ranges of lengths -/

/-- The programs that are drawn for the lengths of a range, and the source behind them. -/
def drawRange (draw : StateM σ Code) (first last : Nat) : StateM σ (List Text) :=
  drawPrograms draw (List.range' first (last + 1 - first))

variable {first last : Nat} {source source' : σ} {samples : List Sample}

theorem length_drawRange (draw : StateM σ Code) (first last : Nat) (source : σ) :
    (drawRange draw first last source).1.length = last + 1 - first := by
  rw [drawRange, ← (drawn_drawPrograms draw _ source).length_eq, List.length_range']

theorem drawn_get_drawRange {i : Nat} (hi : i < (drawRange draw first last source).1.length) :
    Drawn (first + i) ((drawRange draw first last source).1.get ⟨i, hi⟩) := by
  have hlength : i < (List.range' first (last + 1 - first)).length := by
    rwa [List.length_range', ← length_drawRange draw first last source]
  have hdrawn := (drawn_drawPrograms draw _ source).get hlength hi
  rwa [List.get_eq_getElem, List.getElem_range', Nat.one_mul] at hdrawn

theorem sample_eq_ok_iff :
    sample draw config first last source = .ok (samples, source') ↔
      List.Forall₂ (Measures config) (drawRange draw first last source).1 samples ∧
        (drawRange draw first last source).2 = source' :=
  mapM_measure_eq_ok_iff

/-- A range is sampled in two parts, the second from the source that the first leaves. -/
theorem sample_eq_bind (draw : StateM σ Code) (config : Config) {middle : Nat}
    (hfirst : first ≤ middle) (hlast : middle < last) :
    sample draw config first last = do
      let front ← sample draw config first middle
      let back ← sample draw config (middle + 1) last
      return front ++ back := by
  have hrange : List.range' first (last + 1 - first) =
      List.range' first (middle + 1 - first) ++
        List.range' (middle + 1) (last + 1 - (middle + 1)) := by
    have happend := @List.range'_append_1 first (middle + 1 - first) (last + 1 - (middle + 1))
    rw [show first + (middle + 1 - first) = middle + 1 by omega,
      show middle + 1 - first + (last + 1 - (middle + 1)) = last + 1 - first by omega] at happend
    exact happend.symm
  rw [sample, hrange, List.mapM_append]
  rfl

/-- There is a sample for each length, of the program that was drawn for it. -/
theorem exists_of_sample (h : sample draw config first last source = .ok (samples, source')) :
    samples.length = last + 1 - first ∧
      ∀ i < last + 1 - first, ∃ program encoded,
        (drawRange draw first last source).1[i]? = some program ∧ program.length = first + i ∧
          encode config program = .ok encoded ∧
            samples[i]? = some ⟨first + i, encoded.text.length⟩ := by
  obtain ⟨hmeasures, -⟩ := sample_eq_ok_iff.1 h
  have hprograms := length_drawRange draw first last source
  have hsamples : samples.length = last + 1 - first := hmeasures.length_eq.symm.trans hprograms
  refine ⟨hsamples, fun i hi => ?_⟩
  rw [← hprograms] at hi
  have hlength := (drawn_get_drawRange hi).length_eq
  obtain ⟨encoded, hencode, hsample⟩ := hmeasures.get hi (hmeasures.length_eq ▸ hi)
  rw [hlength] at hsample
  exact ⟨_, encoded, List.getElem?_eq_getElem hi, hlength, hencode,
    hsample ▸ List.getElem?_eq_getElem _⟩

/-! ## Room for all programs that are drawn -/

/-- Codes below 127 have seven bits and three decimal digits. -/
theorem encode_of_drawn {length : Nat} {program : Text} (h : Drawn length program)
    (hstrategy : config.strategy = .accumulator) (hcodes : 126 ≤ config.maxCodePoint)
    (hslots : 12 ≤ config.maxTemplateSlots) :
    encode config program = .ok (encoding config.strategy program) := by
  have hlt : ∀ c ∈ program, c.toNat < 127 := h.code_lt
  have hroom : ∀ c ∈ program, c.toNat < 2 ^ 7 ∧ c.toNat < 10 ^ 3 := by
    intro c hc
    have := hlt c hc
    constructor <;> omega
  have hadmitted : ∀ c ∈ program, c.toNat ≤ config.maxCodePoint := fun c hc =>
    Nat.le_trans (Nat.le_of_lt_succ (hlt c hc)) hcodes
  exact encode_accumulator_of_lt (by decide) (by decide) hroom hstrategy hadmitted (by omega) hslots

theorem exists_sample (draw : StateM σ Code) (hstrategy : config.strategy = .accumulator)
    (hcodes : 126 ≤ config.maxCodePoint) (hslots : 12 ≤ config.maxTemplateSlots)
    (first last : Nat) (source : σ) :
    ∃ samples source', sample draw config first last source = .ok (samples, source') := by
  let size (program : Text) : Sample :=
    ⟨program.length, (encoding config.strategy program).text.length⟩
  refine ⟨(drawRange draw first last source).1.map size, _, sample_eq_ok_iff.2 ⟨?_, rfl⟩⟩
  rw [List.forall₂_map_right_iff, List.forall₂_same]
  intro program hprogram
  obtain ⟨i, hi, rfl⟩ := List.mem_iff_getElem.1 hprogram
  exact ⟨_, encode_of_drawn (drawn_get_drawRange hi) hstrategy hcodes hslots, rfl⟩

/-- Sampling splits and, with room for codes below 127, never fails under the accumulator. For every
way of drawing codes and every source: a range is sampled as its front and then, from the source
that this leaves, its back, and the first error of the two is its error. If a range is sampled,
there is one sample for each length, and it measures the encoding of the program that was drawn for
the length. With the accumulator every range is sampled. -/
theorem sample_splits_and_succeeds (draw : StateM σ Code) (config : Config) (source : σ) :
    (∀ a b c, a ≤ b → b < c →
      sample draw config a c source = do
        let front ← sample draw config a b source
        let back ← sample draw config (b + 1) c front.2
        return (front.1 ++ back.1, back.2)) ∧
      (∀ a c samples source', sample draw config a c source = .ok (samples, source') →
        samples.length = c + 1 - a ∧ (drawRange draw a c source).2 = source' ∧
          ∀ i < c + 1 - a, ∃ program encoded,
            (drawRange draw a c source).1[i]? = some program ∧ program.length = a + i ∧
              encode config program = .ok encoded ∧
                samples[i]? = some ⟨a + i, encoded.text.length⟩) ∧
        (config.strategy = .accumulator → 126 ≤ config.maxCodePoint →
          12 ≤ config.maxTemplateSlots →
            ∀ a c, ∃ samples source', sample draw config a c source = .ok (samples, source')) := by
  refine ⟨fun a b c hfirst hlast => ?_, fun a c samples source' h => ?_, fun hs hc ht a c => ?_⟩
  · rw [sample_eq_bind draw config hfirst hlast]
    rfl
  · obtain ⟨hlength, hsamples⟩ := exists_of_sample h
    exact ⟨hlength, (sample_eq_ok_iff.1 h).2, hsamples⟩
  · exact exists_sample draw hs hc ht a c source

/-- With room for codes up to 126 and for twelve slots, lengths 0 to 3 are sampled from a seed in
two halves. -/
theorem sample_splits_and_succeeds_seeded :
    let config : Config := { strategy := .accumulator, maxCodePoint := 126, maxTemplateSlots := 12 }
    let source := Source.ofSeed 7
    ∃ front between back source',
      sample Source.draw config 0 1 source = .ok (front, between) ∧
        sample Source.draw config 2 3 between = .ok (back, source') ∧
          sample Source.draw config 0 3 source = .ok (front ++ back, source') ∧
            (front ++ back).length = 4 := by
  intro config source
  obtain ⟨hsplit, hmeasured, hsucceeds⟩ := sample_splits_and_succeeds Source.draw config source
  obtain ⟨front, between, hfront⟩ := hsucceeds rfl (by decide) (by decide) 0 1
  obtain ⟨-, -, hbetween⟩ := sample_splits_and_succeeds Source.draw config between
  obtain ⟨back, source', hback⟩ := hbetween rfl (by decide) (by decide) 2 3
  have hwhole : sample Source.draw config 0 3 source = .ok (front ++ back, source') := by
    rw [hsplit 0 1 3 (by decide) (by decide), hfront]
    change (sample Source.draw config 2 3 between >>= _) = _
    rw [hback]
    rfl
  exact ⟨front, between, back, source', hfront, hback, hwhole, (hmeasured 0 3 _ _ hwhole).1⟩

end Octoglyph.Growth
