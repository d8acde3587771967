import Mathlib.Data.List.Forall2
import Octoglyph.Proofs.Binding
import Octoglyph.Proofs.Filling

/-! # Applying a template to values one after the other

Each application leads from a stage of the template to the next one, so the values are taken in
order. This goes wrong only when a value is written as a percent and another one follows. The next
pass reads that percent together with the one of its own slot, keeps the slot's letter, and is left
with an argument that has no place.
-/

namespace Octoglyph

open Template

/-! ## What conversions write -/

/-- The conversion writes the value as `word`. -/
def Conversion.Writes (k : Conversion) (v : Value) (word : Text) : Prop :=
  Format.convert k.letter v = .ok word

namespace Format

theorem hexText_eq_ok_iff {v : Value} {word : Text} :
    hexText v = .ok word ↔ ∃ n, v.number? = some n ∧ word = Numeral.signed 16 n := by
  unfold hexText
  cases v.number? with
  | none => simp
  | some n => simp [eq_comm]

/-- A single character is written, which is the value itself or has it as its code. -/
theorem exists_of_charText {v : Value} {word : Text} (h : charText v = .ok word) :
    ∃ c, word = [c] ∧ (v = .str [c] ∨ v.number? = some (c.toNat : Int)) := by
  revert h
  fun_cases charText v with
  | case1 c =>
    rintro ⟨⟩
    exact ⟨c, rfl, .inl rfl⟩
  | case4 _ _ _ code c hc hcode =>
    rintro ⟨⟩
    refine ⟨c, rfl, .inr ?_⟩
    rw [toNat_of_scalar? hc]
    exact hcode
  | case2 | case3 | case5 | case6 => exact nofun

theorem charText_of_number? {v : Value} {c : Char} (h : v.number? = some (c.toNat : Int)) :
    charText v = .ok [c] := by
  cases v with
  | int _ | bool _ =>
    rw [charText, h]
    · simp only [scalar?_toNat]
    · exact nofun
    · exact nofun
  | str _ | unit => cases h

end Format

theorem Numeral.percent_not_mem_signed (n : Int) : '%' ∉ signed 16 n := by
  have htext : ∀ m, '%' ∉ text 16 m := fun m =>
    not_mem_text (by decide) (Nat.le_refl 16) (by decide)
  cases n with
  | ofNat m => exact htext m
  | negSucc m =>
    rw [signed, List.mem_cons, not_or]
    exact ⟨by decide, htext (m + 1)⟩

namespace Conversion.Writes

variable {k : Conversion} {v : Value} {word : Text}

/-- The empty tuple is not written at all, so what is written passes itself as argument. -/
theorem argument?_eq (h : k.Writes v word) : Format.argument? v = some v := by
  cases v with
  | unit => cases k <;> cases h
  | int _ | bool _ | str _ => rfl

/-- Numerals hold no percents, and a character is a percent or holds none. -/
theorem percent_mem_iff (h : k.Writes v word) : '%' ∈ word ↔ word = ['%'] := by
  constructor
  · intro hmem
    cases k with
    | hex =>
      obtain ⟨n, -, rfl⟩ := Format.hexText_eq_ok_iff.1 h
      exact absurd hmem (Numeral.percent_not_mem_signed n)
    | char =>
      obtain ⟨c, rfl, -⟩ := Format.exists_of_charText h
      rw [List.mem_singleton.1 hmem]
  · rintro rfl
    exact List.mem_singleton_self _

end Conversion.Writes

/-! ## One application -/

namespace Format

variable {k : Conversion} {v : Value}

/-- One application behind a text without percents. -/
theorem apply_stage {front word : Text} {words : List Text} {ss : List Segment} (half : Nat)
    (hv : k.Writes v word) (hfront : '%' ∉ front) (hwords : ∀ w ∈ words, '%' ∉ w)
    (hslots : words.length < ss.count .slot) :
    apply (.str (front ++ stage k (2 * half) 0 words ss)) v =
      .ok (.str (front ++ stage k half 0 (words ++ [word]) ss)) := by
  simp only [apply, hv.argument?_eq]
  rw [fill_append_of_not_mem hfront, fill_stage half _ hv hwords hslots]
  simp [Except.map]

/-- A percent in front of the live slot makes its run even. -/
theorem fill_percent_stage (half : Nat) (front : Text) {ss : List Segment}
    (hslots : 0 < ss.count .slot) :
    fill front (some v) ('%' :: stage k (2 * half) 0 [] ss) = .error .surplusArgument := by
  induction ss generalizing front with
  | nil => exact absurd hslots (Nat.lt_irrefl 0)
  | cons s rest ih =>
    cases s with
    | slot =>
      rw [stage_slot_open, Nat.pow_zero, List.replicate_one, List.singleton_append,
        fill_double_percent, fill_cons_of_ne k.letter_ne_percent, fill_stage_waiting]
      rfl
    | percent =>
      -- the single percent can as well stand behind the even run of the segment
      have hrun : '%' :: (List.replicate (2 * half) '%' ++ stage k (2 * half) 0 [] rest) =
          List.replicate (2 * half) '%' ++ '%' :: stage k (2 * half) 0 [] rest := by
        rw [← List.cons_append, ← List.replicate_succ, List.replicate_succ', List.append_assoc]
        rfl
      rw [stage_percent, hrun, fill_percents]
      exact ih _ (by simpa using hslots)

/-- If the last word is a percent, then the next slot is not live, and the argument is left over. -/
theorem fill_stage_of_percent (half : Nat) (front : Text) {words : List Text} {ss : List Segment}
    (hwords : ∀ w ∈ words, '%' ∉ w) (hslots : words.length + 1 < ss.count .slot) :
    fill front (some v) (stage k (2 * half) 0 (words ++ [['%']]) ss) = .error .surplusArgument := by
  induction ss generalizing words front with
  | nil => simp at hslots
  | cons s rest ih =>
    cases s with
    | slot =>
      rw [List.count_cons_self] at hslots
      cases words with
      | nil =>
        rw [List.nil_append, stage_slot_filled, List.singleton_append]
        exact fill_percent_stage half front (by simpa using hslots)
      | cons w words =>
        obtain ⟨hw, hwords⟩ := List.forall_mem_cons.1 hwords
        rw [List.cons_append, stage_slot_filled, fill_append_of_not_mem hw]
        exact ih _ hwords (by simpa using hslots)
    | percent =>
      rw [stage_percent, fill_percents]
      exact ih _ hwords (by simpa using hslots)

/-- So the application behind a value that was written as a percent fails. -/
theorem apply_stage_of_percent {front word : Text} {words : List Text} {ss : List Segment}
    (half : Nat) (hv : k.Writes v word) (hfront : '%' ∉ front) (hwords : ∀ w ∈ words, '%' ∉ w)
    (hslots : words.length + 1 < ss.count .slot) :
    apply (.str (front ++ stage k (2 * half) 0 (words ++ [['%']]) ss)) v =
      .error .surplusArgument := by
  simp only [apply, hv.argument?_eq]
  rw [fill_append_of_not_mem hfront, fill_stage_of_percent half _ hwords hslots]
  rfl

/-! ## All applications -/

variable {front : Text} {start words : List Text} {vs : List Value} {ss : List Segment}

/-- A stage, applied to values one after the other, reaches the stage that has their words in its
next slots, unless one of the words is a percent and not the last. -/
theorem foldlM_apply_stage (percents : Nat) (hvs : List.Forall₂ k.Writes vs words)
    (hfront : '%' ∉ front) (hstart : ∀ w ∈ start, '%' ∉ w)
    (hslots : start.length + vs.length ≤ ss.count .slot) :
    vs.foldlM apply (.str (front ++ stage k (2 ^ vs.length * percents) 0 start ss)) =
      if ['%'] ∈ words.dropLast then .error .surplusArgument
      else .ok (.str (front ++ stage k percents 0 (start ++ words) ss)) := by
  induction hvs generalizing start with
  | nil => simp [pure, Except.pure]
  | @cons v word vs words hv hvs ih =>
    rw [List.length_cons] at hslots
    -- the power of two counts the values that are left: each application halves it
    have hstep : apply (.str (front ++ stage k (2 * (2 ^ vs.length * percents)) 0 start ss)) v =
        .ok (.str (front ++ stage k (2 ^ vs.length * percents) 0 (start ++ [word]) ss)) :=
      apply_stage _ hv hfront hstart (by omega)
    rw [List.foldlM_cons, List.length_cons, Nat.pow_succ, Nat.mul_comm _ 2, Nat.mul_assoc, hstep]
    change vs.foldlM apply _ = _
    cases hvs with
    | nil => simp [pure, Except.pure]
    | @cons v' word' vs words hv' hvs =>
      rw [List.dropLast_cons_of_ne_nil (List.cons_ne_nil _ _)]
      rw [List.length_cons] at hslots
      by_cases hword : word = ['%']
      · subst hword
        have hleft : apply
            (.str (front ++ stage k (2 * (2 ^ vs.length * percents)) 0 (start ++ [['%']]) ss)) v' =
              .error .surplusArgument := apply_stage_of_percent _ hv' hfront hstart (by omega)
        rw [if_pos List.mem_cons_self, List.foldlM_cons, List.length_cons, Nat.pow_succ,
          Nat.mul_comm _ 2, Nat.mul_assoc, hleft]
        rfl
      · have hstart' : ∀ w ∈ start ++ [word], '%' ∉ w :=
          List.forall_mem_append.2
            ⟨hstart, List.forall_mem_singleton.2 fun h => hword (hv.percent_mem_iff.1 h)⟩
        have hslots' : (start ++ [word]).length + (v' :: vs).length ≤ ss.count .slot := by
          simp only [List.length_append, List.length_cons, List.length_nil]
          omega
        rw [ih hstart' hslots']
        simp [Ne.symm hword]

end Format

/-! ## Whole templates -/

namespace Template

/-- The text of the segments with a word for each slot and one percent for each percent segment. -/
def filled : (words : List Text) → List Segment → Text
  | word :: words, .slot :: rest => word ++ filled words rest
  | words, .percent :: rest => '%' :: filled words rest
  | _, _ => []

@[simp] theorem filled_percent (words : List Text) (rest : List Segment) :
    filled words (.percent :: rest) = '%' :: filled words rest := by
  cases words <;> rfl

/-- When all slots hold words, the last stage is what the segments stand for. -/
theorem stage_one_eq_filled (k : Conversion) (slot : Nat) {words : List Text} {ss : List Segment}
    (h : words.length = ss.count .slot) : stage k 1 slot words ss = filled words ss := by
  induction ss generalizing words with
  | nil => cases words <;> simp [filled]
  | cons s rest ih =>
    cases s with
    | slot =>
      cases words with
      | nil => simp at h
      | cons word words =>
        rw [stage_slot_filled, ih (by simpa using h)]
        rfl
    | percent =>
      rw [stage_percent, ih (by simpa using h), filled_percent]
      rfl

end Template

namespace Format

variable {t : Template} {vs : List Value} {words : List Text}

/-- What a whole template becomes. -/
theorem foldlM_apply_render (hvs : List.Forall₂ t.conversion.Writes vs words)
    (hslots : vs.length = t.slots) :
    vs.foldlM apply (.str t.render) =
      if ['%'] ∈ words.dropLast then .error .surplusArgument
      else .ok (.str (filled words t.segments)) := by
  have hlast := foldlM_apply_stage 1 hvs (List.not_mem_nil : '%' ∉ []) (List.forall_mem_nil _)
    (show [].length + vs.length ≤ t.segments.count .slot by
      rw [List.length_nil, Nat.zero_add, hslots, slots])
  rw [List.nil_append, List.nil_append, List.nil_append, Nat.mul_one, hslots, ← render_eq_stage,
    stage_one_eq_filled _ _ (by rw [← hvs.length_eq, hslots, slots])] at hlast
  exact hlast

/-- Filling a template with a value for each of its slots, one after the other. It succeeds if and
only if no value but the last is written as a percent, and then each slot has become the text of its
value and each percent segment a single percent. Otherwise an argument is left over. -/
theorem fill_one_by_one (hvs : List.Forall₂ t.conversion.Writes vs words)
    (hslots : vs.length = t.slots) :
    ((∃ v, vs.foldlM apply (.str t.render) = .ok v) ↔ ['%'] ∉ words.dropLast) ∧
      (['%'] ∉ words.dropLast →
        vs.foldlM apply (.str t.render) = .ok (.str (filled words t.segments))) ∧
      (['%'] ∈ words.dropLast → ∃ fault, vs.foldlM apply (.str t.render) = .error fault ∧
        fault.diagnosis =
          .typeError "not all arguments converted during string formatting") := by
  rw [foldlM_apply_render hvs hslots]
  by_cases hwords : ['%'] ∈ words.dropLast
  · rw [if_pos hwords]
    refine ⟨⟨?_, fun h => absurd hwords h⟩, fun h => absurd hwords h, fun _ => ⟨_, rfl, rfl⟩⟩
    rintro ⟨v, ⟨⟩⟩
  · rw [if_neg hwords]
    exact ⟨⟨fun _ => hwords, fun _ => ⟨_, rfl⟩⟩, fun _ => rfl, fun h => absurd h hwords⟩

/-- Two slots around a percent take a letter and then a percent, but not a percent and then a
letter. -/
theorem fill_one_by_one_percent :
    [.int 97, .str ['%']].foldlM apply (.str (Template.mk .char [.slot, .percent, .slot]).render) =
        .ok (.str ['a', '%', '%']) ∧
      ∃ fault, [.str ['%'], .int 97].foldlM apply
          (.str (Template.mk .char [.slot, .percent, .slot]).render) = .error fault ∧
        fault.diagnosis =
          .typeError "not all arguments converted during string formatting" := by
  have hletter : Conversion.char.Writes (.int 97) ['a'] := rfl
  have hpercent : Conversion.char.Writes (.str ['%']) ['%'] := rfl
  obtain ⟨-, htaken, -⟩ :=
    fill_one_by_one (t := ⟨.char, [.slot, .percent, .slot]⟩)
      (.cons hletter (.cons hpercent .nil)) rfl
  obtain ⟨-, -, hleft⟩ :=
    fill_one_by_one (t := ⟨.char, [.slot, .percent, .slot]⟩)
      (.cons hpercent (.cons hletter .nil)) rfl
  exact ⟨htaken (by decide), hleft (by decide)⟩

end Format

end Octoglyph
