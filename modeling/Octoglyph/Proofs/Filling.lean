import Mathlib.Algebra.Order.Ring.Nat
import Octoglyph.Format
import Octoglyph.Template

/-! # Filling a template argument by argument

A template passes through one stage for each argument. At a stage some of its slots hold words, the
next slot is live behind a single percent, and the later ones wait behind runs that the following
applications halve. One application leads from a stage to the next one, whatever slots and percents
stand between.
-/

namespace Octoglyph

namespace Conversion

theorem letter_ne_percent (k : Conversion) : k.letter ≠ '%' := by
  cases k <;> decide

end Conversion

namespace Template

variable {k : Conversion}

/-- The text of the segments when their first slots hold `words`. The first slot that is left stands
behind `2 ^ slot` percents, and a percent segment is `percents` long. -/
def stage (k : Conversion) (percents : Nat) : (slot : Nat) → (words : List Text) →
    List Segment → Text
  | _, _, [] => []
  | slot, word :: words, .slot :: rest => word ++ stage k percents slot words rest
  | slot, [], .slot :: rest =>
    List.replicate (2 ^ slot) '%' ++ k.letter :: stage k percents (slot + 1) [] rest
  | slot, words, .percent :: rest =>
    List.replicate percents '%' ++ stage k percents slot words rest

@[simp] theorem stage_nil (percents slot : Nat) (words : List Text) :
    stage k percents slot words [] = [] := by
  simp [stage]

@[simp] theorem stage_percent (percents slot : Nat) (words : List Text) (rest : List Segment) :
    stage k percents slot words (.percent :: rest) =
      List.replicate percents '%' ++ stage k percents slot words rest := by
  cases words <;> rfl

@[simp] theorem stage_slot_filled (percents slot : Nat) (word : Text) (words : List Text)
    (rest : List Segment) :
    stage k percents slot (word :: words) (.slot :: rest) =
      word ++ stage k percents slot words rest := rfl

@[simp] theorem stage_slot_open (percents slot : Nat) (rest : List Segment) :
    stage k percents slot [] (.slot :: rest) =
      List.replicate (2 ^ slot) '%' ++ k.letter :: stage k percents (slot + 1) [] rest := rfl

theorem renderOnto_eq_stage (percents slot : Nat) (front : Text) (ss : List Segment) :
    renderOnto k.letter percents slot front ss =
      front.reverse ++ stage k percents slot [] ss := by
  induction ss generalizing slot front with
  | nil => simp [renderOnto]
  | cons s rest ih =>
    cases s with
    | slot =>
      rw [renderOnto, ih]
      simp
    | percent =>
      rw [renderOnto, ih]
      simp

/-- The text of a template is its first stage. -/
theorem render_eq_stage (t : Template) :
    t.render = stage t.conversion (2 ^ t.slots) 0 [] t.segments := by
  rw [render, renderOnto_eq_stage]
  rfl

/-- A template of slots only, when all of them are filled, is the words one after the other. -/
theorem stage_replicate_slot (percents slot : Nat) (words : List Text) :
    stage k percents slot words (List.replicate words.length .slot) = words.flatten := by
  induction words with
  | nil => simp
  | cons word words ih => simp [List.replicate_succ, ih]

end Template

namespace Format

open Template

/-! ## What one pass over a text does -/

theorem fill_cons_of_ne {c : Char} (h : c ≠ '%') (front : Text) (argument? : Option Value)
    (rest : Text) : fill front argument? (c :: rest) = fill (c :: front) argument? rest := by
  rw [fill.eq_def]
  simp [h]

theorem fill_double_percent (front : Text) (argument? : Option Value) (rest : Text) :
    fill front argument? ('%' :: '%' :: rest) = fill ('%' :: front) argument? rest := by
  rw [fill.eq_def]
  simp

/-- A text without percents is kept. -/
theorem fill_append_of_not_mem {word : Text} (h : '%' ∉ word) (front : Text)
    (argument? : Option Value) (rest : Text) :
    fill front argument? (word ++ rest) = fill (word.reverse ++ front) argument? rest := by
  induction word generalizing front with
  | nil => rfl
  | cons c word ih =>
    have hc : c ≠ '%' := fun e => h (e ▸ List.mem_cons_self)
    have hword : '%' ∉ word := fun hm => h (List.mem_cons_of_mem _ hm)
    rw [List.cons_append, fill_cons_of_ne hc, ih hword]
    simp

/-- A run of an even number of percents is halved. -/
theorem fill_percents (half : Nat) (front : Text) (argument? : Option Value) (rest : Text) :
    fill front argument? (List.replicate (2 * half) '%' ++ rest) =
      fill (List.replicate half '%' ++ front) argument? rest := by
  induction half generalizing front with
  | zero => rfl
  | succ half ih =>
    have hrun : List.replicate (2 * (half + 1)) '%' ++ rest =
        '%' :: '%' :: (List.replicate (2 * half) '%' ++ rest) := by
      rw [Nat.mul_succ, List.replicate_succ, List.replicate_succ]
      rfl
    have hfront : List.replicate (half + 1) '%' ++ front =
        List.replicate half '%' ++ '%' :: front := by
      rw [List.replicate_succ']
      simp
    rw [hrun, fill_double_percent, ih, hfront]

/-- A conversion behind a single percent takes the argument. -/
theorem fill_conversion {k : Conversion} {v : Value} {word : Text}
    (h : convert k.letter v = .ok word) (front rest : Text) :
    fill front (some v) ('%' :: k.letter :: rest) = fill (word.reverse ++ front) none rest := by
  simp [fill, k.letter_ne_percent, h]

/-! ## From stage to stage -/

/-- Where no slot is live every run is halved, and each slot comes one application closer. An
argument that is still there finds no place. -/
theorem fill_stage_waiting (k : Conversion) (half slot : Nat) (front : Text)
    (argument? : Option Value) (ss : List Segment) :
    fill front argument? (stage k (2 * half) (slot + 1) [] ss) =
      fill ((stage k half slot [] ss).reverse ++ front) argument? [] := by
  induction ss generalizing slot front with
  | nil => simp
  | cons s rest ih =>
    cases s with
    | slot =>
      have hletter : '%' ∉ [k.letter] := by simpa using k.letter_ne_percent.symm
      rw [stage_slot_open, Nat.pow_succ, Nat.mul_comm, fill_percents,
        ← List.singleton_append, fill_append_of_not_mem hletter, ih]
      simp
    | percent =>
      rw [stage_percent, fill_percents, ih]
      simp

/-- One application leads from a stage to the next. The words that are already there must not hold
percents, which the pass would read again. -/
theorem fill_stage {k : Conversion} {v : Value} {word : Text} {words : List Text}
    {ss : List Segment} (half : Nat) (front : Text) (hv : convert k.letter v = .ok word)
    (hwords : ∀ w ∈ words, '%' ∉ w) (hslots : words.length < ss.count .slot) :
    fill front (some v) (stage k (2 * half) 0 words ss) =
      .ok (front.reverse ++ stage k half 0 (words ++ [word]) ss) := by
  induction ss generalizing words front with
  | nil => simp at hslots
  | cons s rest ih =>
    cases s with
    | slot =>
      cases words with
      | nil =>
        -- the live slot takes the argument, and all that stands behind it waits
        rw [stage_slot_open, Nat.pow_zero, List.replicate_one, List.singleton_append,
          fill_conversion hv, fill_stage_waiting]
        simp [fill]
      | cons w words =>
        have hw : '%' ∉ w := hwords w List.mem_cons_self
        have hrest : words.length < rest.count .slot := by simpa using hslots
        rw [stage_slot_filled, fill_append_of_not_mem hw,
          ih _ (fun w hw => hwords w (List.mem_cons_of_mem _ hw)) hrest]
        simp
    | percent =>
      have hrest : words.length < rest.count .slot := by simpa using hslots
      rw [stage_percent, fill_percents, ih _ hwords hrest]
      simp

end Format

end Octoglyph
