import Mathlib.Data.Nat.Size
import Octoglyph.Proofs.Growth

/-! # Sizes and the limit on templates

The sizes of statements and encodings are closed forms in the bits of the codes and in the numbers
of percents and of other characters. The limit on templates counts arguments. A percent takes no
argument, and yet what it is written as doubles with every slot. So templates without percents stay
within the length that the limit admits for slots, and others need not.
-/

namespace Octoglyph

open Statement Encoder

/-! ## Exact sizes -/

/-- The significant bits of a number; zero has one. -/
def Numeral.bits (n : Nat) : Nat := max n.size 1

theorem Numeral.size_eq_log2_succ {n : Nat} (h : n ≠ 0) : n.size = n.log2 + 1 := by
  apply Nat.le_antisymm
  · exact Nat.size_le.2 Nat.lt_log2_self
  · exact Nat.lt_size.2 (Nat.log2_self_le h)

namespace Statement

theorem nameLength_eq_bits (n : UInt32) : nameLength n = Numeral.bits n.toNat := by
  unfold nameLength bitLength Numeral.bits
  split
  next hn =>
    subst hn
    rfl
  next hn =>
    rw [Numeral.size_eq_log2_succ fun e => hn (UInt32.toNat_inj.1 e)]

theorem nameLetters_eq (s : Text) :
    nameLetters s = ((s.filter (· ≠ '%')).map fun c => Numeral.bits c.toNat).sum := by
  simp only [nameLetters, nameLength_eq_bits]
  rfl

end Statement

namespace Encoder

variable {config : Config} {program : Text} {encoded : Encoded}

/-- The text is as long as its statements with eight symbols more for each and two less in all. -/
theorem byteLength_of_encode (h : encode config program = .ok encoded) :
    encoded.text.byteLength + 2 = (encoded.chain.arguments.map fun t => t.byteLength + 8).sum := by
  obtain rfl := eq_encoding_of_encode h
  have htext : Alphabet.Spelled (encoding config.strategy program).text :=
    spelled_assemble _ config.strategy program
  have harguments : ∀ t ∈ (encoding config.strategy program).chain.arguments,
      t.byteLength + 8 = t.length + 8 := by
    intro t ht
    obtain ⟨e, he, rfl⟩ := List.mem_map.1 ht
    rw [(spelled_calls _ config.strategy program e he).byteLength_eq]
  rw [htext.byteLength_eq, List.map_congr_left harguments]
  exact (encoding config.strategy program).chain.length_text

/-- A program spelled at once takes more symbols than two to the power of what is passed in. -/
theorem lt_byteLength_of_direct (hstrategy : config.strategy = .direct)
    (h : encode config program = .ok encoded) :
    2 ^ spellingSlots program < encoded.text.byteLength := by
  have hlayout := layout_of_encode h
  have hmem : (spelling program).text ∈ encoded.chain.arguments := by
    rw [hlayout.arguments_eq, hstrategy]
    exact List.mem_cons_of_mem _ (List.mem_append_right _ (List.mem_singleton_self _))
  have hle : (spelling program).text.byteLength + 8 ≤
      (encoded.chain.arguments.map fun t => t.byteLength + 8).sum :=
    List.single_le_sum (fun _ _ => Nat.zero_le _) _ (List.mem_map_of_mem hmem)
  have hpow : 2 ^ spellingSlots program ≤ (program.count '%' + 1) * 2 ^ spellingSlots program :=
    Nat.le_mul_of_pos_left _ (Nat.succ_pos _)
  rw [← byteLength_of_encode h, (spelled_spelling program).byteLength_eq, length_spelling] at hle
  omega

end Encoder

theorem Statement.length_assignment_lt (n : UInt32) : (assignment n).text.length < 2 ^ 63 := by
  have hname : nameLength n ≤ 32 := nameLength_le (by decide) n.toNat_lt
  have hpow : 2 ^ (nameLength n + 2) ≤ 2 ^ 34 :=
    Nat.pow_le_pow_right (by decide) (Nat.add_le_add_right hname 2)
  rw [length_assignment]
  omega

/-- The exact sizes of assignments, spellings and encodings. What is spelled takes a percent run for
each slot, of which the lengths double, and the name of each character that is no percent. It is
spelled if and only if this comes to less than two to the power of 63, as every assignment does. An
encoding that spells its program at once is exponential in the characters that it passes in. -/
theorem exact_sizes :
    (∀ n : UInt32, (assignment n).text.byteLength =
        2 ^ (Numeral.bits n.toNat + 2) + 11 * Numeral.bits n.toNat + 15 ∧
      (assignment n).text.byteLength < 2 ^ 63) ∧
    (∀ s : Text,
      let length := (s.count '%' + 1) * 2 ^ s.countP (· ≠ '%') + 1 + 2 * s.countP (· ≠ '%') +
        ((s.filter (· ≠ '%')).map fun c => Numeral.bits c.toNat).sum
      (length < 2 ^ 63 → ∃ e, spelling? s = some e ∧ e.text.byteLength = length) ∧
        (2 ^ 63 ≤ length → spelling? s = none)) ∧
    (∀ config program encoded, encode config program = .ok encoded →
      encoded.text.byteLength + 2 =
        (encoded.chain.arguments.map fun t => t.byteLength + 8).sum) ∧
    ∀ (config : Config) program encoded, config.strategy = .direct →
      encode config program = .ok encoded →
        2 ^ program.countP (· ≠ '%') < encoded.text.byteLength := by
  refine ⟨fun n => ?_, fun s => ?_, fun _ _ _ => byteLength_of_encode,
    fun _ _ _ => lt_byteLength_of_direct⟩
  · rw [(spelled_assignment n).byteLength_eq, ← nameLength_eq_bits]
    exact ⟨length_assignment n, length_assignment_lt n⟩
  · intro length
    have hlength : (spelling s).text.length = length := by
      rw [length_spelling, nameLetters_eq]
      rfl
    rw [← hlength]
    refine ⟨fun h => ⟨_, spelling?_of_lt h, ?_⟩, spelling?_of_le⟩
    rw [(spelled_spelling s).byteLength_eq]

/-- Six has three bits, and a letter before a percent is passed in alone. -/
theorem exact_sizes_percent :
    (assignment 6).text.byteLength = 80 ∧
      (∃ e, spelling? ['a', '%'] = some e ∧ e.text.byteLength = 14) ∧
      ∃ encoded, encode { strategy := .direct } ['a', '%'] = .ok encoded ∧
        encoded.text.byteLength + 2 =
          (encoded.chain.arguments.map fun t => t.byteLength + 8).sum ∧
        2 ^ 1 < encoded.text.byteLength := by
  obtain ⟨hassignment, hspelling, htext, hdirect⟩ := exact_sizes
  have h : encode { strategy := .direct } ['a', '%'] = .ok (encoding .direct ['a', '%']) :=
    encode_of_fits (by decide) (by decide) (by decide +kernel)
  refine ⟨(hassignment 6).1.trans (by decide), ?_, _, h, htext _ _ _ h, hdirect _ _ _ rfl h⟩
  obtain ⟨e, he, hlength⟩ := (hspelling ['a', '%']).1 (by decide)
  exact ⟨e, he, hlength.trans (by decide)⟩

/-- Sixty-three letters have a spelling of more than two to the power of 63 symbols, and none comes
out. -/
theorem spelling?_of_many_letters :
    (List.replicate 63 'a').countP (· ≠ '%') = 63 ∧ spelling? (List.replicate 63 'a') = none := by
  have hslots : spellingSlots (List.replicate 63 'a') = 63 := by decide
  refine ⟨hslots, spelling?_of_le ?_⟩
  rw [length_spelling, hslots]
  omega

/-! ## Templates and their limit -/

/-- The expression applies the text of the template, which may stand behind another one, to an
operand for each slot. -/
def Expr.Renders (e : Expr) (t : Template) : Prop :=
  ∃ (front : Text) (body : Literal) (args : List Atom), body.text = front ++ t.render ∧
    args.length = t.slots ∧ e = (Expr.atom (.literal body)).applied args

namespace Statement

/-- The template in the assignment of a number. -/
def assignmentTemplate (n : UInt32) : Template := .ofSlots .hex (assignmentArgs n).length

theorem slots_assignmentTemplate (n : UInt32) :
    (assignmentTemplate n).slots = assignmentSlots n := by
  simp only [assignmentTemplate, Template.slots, Template.ofSlots, List.count_replicate_self,
    assignmentArgs, List.length_cons, List.length_map, length_digits, nameLength, assignmentSlots]
  omega

theorem count_percent_assignmentTemplate (n : UInt32) :
    (assignmentTemplate n).segments.count .percent = 0 := by
  simp [assignmentTemplate, Template.ofSlots, List.count_replicate]

theorem renders_assignment (n : UInt32) : (assignment n).Renders (assignmentTemplate n) := by
  refine ⟨DigitName.ofNumber n ++ ['='], _, assignmentArgs n, ?_, ?_, rfl⟩
  · simp [assignmentLiteral, assignmentTemplate]
  · simp [assignmentTemplate, Template.slots, Template.ofSlots]

theorem renders_spelling (s : Text) : (spelling s).Renders (spellingTemplate s) := by
  refine ⟨[], _, spellingArgs s, rfl, ?_, rfl⟩
  rw [length_spellingArgs, slots_spellingTemplate]

end Statement

/-- The template that the step renders, if it renders one. -/
def Step.template? : Step → Option Template
  | .encoded text => some (spellingTemplate text)
  | .verbatim _ => none

/-- The templates that an encoding renders: those of the assignments, and those of the steps. -/
def Encoder.templates (codes : List UInt32) (steps : List Step) : List Template :=
  codes.map assignmentTemplate ++ steps.filterMap Step.template?

/-- The templates in the encoding of a program. -/
def Strategy.templates (strategy : Strategy) (program : Text) : List Template :=
  Encoder.templates (codes program (strategy.payload program)) (strategy.payload program)

theorem Step.slots?_eq (step : Step) : step.slots? = step.template?.map Template.slots := by
  cases step with
  | encoded text => rw [slots?, template?, Option.map_some, slots_spellingTemplate]
  | verbatim name => rfl

theorem Strategy.demands_eq_map_slots (strategy : Strategy) (program : Text) :
    strategy.demands program = (strategy.templates program).map Template.slots := by
  simp only [demands, templates, Encoder.templates, List.map_append, List.map_map,
    List.map_filterMap, Function.comp_def, slots_assignmentTemplate, Step.slots?_eq]

theorem Strategy.mem_templates {strategy : Strategy} {program : Text} {t : Template} :
    t ∈ strategy.templates program ↔
      (∃ n ∈ codes program (strategy.payload program), assignmentTemplate n = t) ∨
        ∃ text, Step.encoded text ∈ strategy.payload program ∧ spellingTemplate text = t := by
  rw [templates, Encoder.templates, List.mem_append, List.mem_map, List.mem_filterMap]
  refine or_congr_right ⟨?_, ?_⟩
  · rintro ⟨step, hstep, ht⟩
    cases step with
    | encoded text => exact ⟨text, hstep, Option.some.inj ht⟩
    | verbatim name => cases ht
  · rintro ⟨text, hstep, rfl⟩
    exact ⟨_, hstep, rfl⟩

/-- The accumulator passes every character in, so none of its templates holds a percent. -/
theorem Accumulator.count_percent_of_mem_payload {program text : Text}
    (h : Step.encoded text ∈ Strategy.accumulator.payload program) : text.count '%' = 0 := by
  rw [List.count_eq_zero]
  rcases Strategy.mem_payload_accumulator h with rfl | ⟨c, -, rfl⟩
  · decide
  · exact percent_not_mem_append c.val

namespace Template

theorem length_render_le {t : Template} {limit : Nat} (h : t.slots ≤ limit) :
    t.render.length + 1 ≤ (t.segments.count .percent + 1) * 2 ^ limit + limit := by
  rw [length_render]
  exact Nat.add_le_add (Nat.mul_le_mul_left _ (Nat.pow_le_pow_right (by decide) h)) h

/-- A template is no longer than one of `limit` slots and nothing else. -/
theorem length_render_le_iff {t : Template} {limit : Nat} :
    t.render.length ≤ 2 ^ limit - 1 + limit ↔
      (t.segments.count .percent + 1) * 2 ^ t.slots + t.slots ≤ 2 ^ limit + limit := by
  have hpow : 0 < 2 ^ limit := Nat.two_pow_pos limit
  rw [← length_render]
  omega

theorem length_render_le_of_no_percents {t : Template} {limit : Nat} (h : t.slots ≤ limit)
    (hpercents : t.segments.count .percent = 0) : t.render.length ≤ 2 ^ limit - 1 + limit := by
  have hpow : 2 ^ t.slots ≤ 2 ^ limit := Nat.pow_le_pow_right (by decide) h
  rw [length_render_le_iff, hpercents]
  omega

end Template

theorem Statement.length_render_spelling_le_iff {s : Text} {limit : Nat} :
    (spellingTemplate s).render.length ≤ 2 ^ limit - 1 + limit ↔
      (s.count '%' + 1) * 2 ^ s.countP (· ≠ '%') + s.countP (· ≠ '%') ≤ 2 ^ limit + limit := by
  rw [Template.length_render_le_iff, slots_spellingTemplate, count_percent_spellingTemplate,
    spellingSlots]

section Limit

variable {config : Config} {program : Text} {encoded : Encoded} {t : Template}

/-- The limit holds for the arguments of every template. -/
theorem slots_le_of_encode (h : encode config program = .ok encoded)
    (ht : t ∈ config.strategy.templates program) : t.slots ≤ config.maxTemplateSlots := by
  cases encodes_iff.2 h with
  | fits _ hdemands _ =>
    rw [Strategy.demands_eq_map_slots] at hdemands
    exact hdemands _ (List.mem_map_of_mem ht)

/-- Every template stands in a statement of the encoding. -/
theorem renders_of_encode (h : encode config program = .ok encoded)
    (ht : t ∈ config.strategy.templates program) : ∃ e ∈ encoded.chain.calls, e.Renders t := by
  obtain rfl := eq_encoding_of_encode h
  rcases Strategy.mem_templates.1 ht with ⟨n, hn, rfl⟩ | ⟨text, htext, rfl⟩
  · refine ⟨assignment n, List.mem_cons_of_mem _ (List.mem_append_left _ ?_), renders_assignment n⟩
    exact List.mem_map_of_mem hn
  · refine ⟨spelling text, ?_, renders_spelling text⟩
    refine List.mem_cons_of_mem _ (List.mem_append_right _ ?_)
    exact List.mem_map_of_mem htext

theorem spellingTemplate_mem_templates (program : Text) :
    spellingTemplate program ∈ Strategy.direct.templates program :=
  Strategy.mem_templates.2 (.inr ⟨program, List.mem_singleton_self _, rfl⟩)

/-- The limit on arguments bounds the lengths of templates up to a factor: one with `k` percents is
at most about `k + 1` times as long as the limit admits for slots alone. So all lengths are within
the limit, unless the program is spelled at once and its percents make the template too long. -/
theorem length_render_le_limit_iff (h : encode config program = .ok encoded) :
    (∀ t ∈ config.strategy.templates program,
      (∃ e ∈ encoded.chain.calls, e.Renders t) ∧ t.slots ≤ config.maxTemplateSlots ∧
        t.render.length + 1 ≤ (t.segments.count .percent + 1) * 2 ^ config.maxTemplateSlots +
          config.maxTemplateSlots) ∧
    ((∀ t ∈ config.strategy.templates program,
        t.render.length ≤ 2 ^ config.maxTemplateSlots - 1 + config.maxTemplateSlots) ↔
      (config.strategy = .direct →
        (program.count '%' + 1) * 2 ^ program.countP (· ≠ '%') + program.countP (· ≠ '%') ≤
          2 ^ config.maxTemplateSlots + config.maxTemplateSlots)) := by
  refine ⟨fun t ht => ⟨renders_of_encode h ht, slots_le_of_encode h ht,
    Template.length_render_le (slots_le_of_encode h ht)⟩, ?_, ?_⟩
  · intro hall hdirect
    have hmem := spellingTemplate_mem_templates program
    rw [← hdirect] at hmem
    exact length_render_spelling_le_iff.1 (hall _ hmem)
  · intro hdirect t ht
    have hslots := slots_le_of_encode h ht
    rcases Strategy.mem_templates.1 ht with ⟨n, -, rfl⟩ | ⟨text, htext, rfl⟩
    · exact Template.length_render_le_of_no_percents hslots (count_percent_assignmentTemplate n)
    · cases hstrategy : config.strategy with
      | accumulator =>
        rw [hstrategy] at htext
        refine Template.length_render_le_of_no_percents hslots ?_
        rw [count_percent_spellingTemplate]
        exact Accumulator.count_percent_of_mem_payload htext
      | direct =>
        rw [hstrategy] at htext
        cases List.mem_singleton.1 htext
        exact length_render_spelling_le_iff.2 (hdirect hstrategy)

/-- One percent among few characters keeps all templates within a limit of eight slots. -/
theorem length_render_le_limit_iff_remainder :
    ∃ encoded, encode { strategy := .direct, maxTemplateSlots := 8 } ['7', '%', '5'] = .ok encoded ∧
      ∀ t ∈ Strategy.direct.templates ['7', '%', '5'], t.render.length ≤ 2 ^ 8 - 1 + 8 := by
  have h : encode { strategy := .direct, maxTemplateSlots := 8 } ['7', '%', '5'] =
      .ok (encoding .direct ['7', '%', '5']) :=
    encode_of_fits (by decide) (by decide) (by decide +kernel)
  obtain ⟨-, hiff⟩ := length_render_le_limit_iff h
  exact ⟨_, h, hiff.2 fun _ => by decide⟩

/-- Two percents among seven other characters make a template of 390 symbols, where eight slots have
263. -/
theorem length_render_exceeds_limit :
    ∃ encoded, encode { strategy := .direct, maxTemplateSlots := 8 }
        ['7', '%', '5', '%', '3', '+', '1', '*', '2'] = .ok encoded ∧
      ∃ t ∈ Strategy.direct.templates ['7', '%', '5', '%', '3', '+', '1', '*', '2'],
        (∃ e ∈ encoded.chain.calls, e.Renders t) ∧ t.render.length = 390 ∧
          ¬ t.render.length ≤ 2 ^ 8 - 1 + 8 := by
  have h : encode { strategy := .direct, maxTemplateSlots := 8 }
      ['7', '%', '5', '%', '3', '+', '1', '*', '2'] =
        .ok (encoding .direct ['7', '%', '5', '%', '3', '+', '1', '*', '2']) :=
    encode_of_fits (by decide) (by decide) (by decide +kernel)
  have hmem := spellingTemplate_mem_templates ['7', '%', '5', '%', '3', '+', '1', '*', '2']
  have hlength := Template.length_render
    (spellingTemplate ['7', '%', '5', '%', '3', '+', '1', '*', '2'])
  have hslots : spellingSlots ['7', '%', '5', '%', '3', '+', '1', '*', '2'] = 7 := rfl
  have hpercents : ['7', '%', '5', '%', '3', '+', '1', '*', '2'].count '%' = 2 := rfl
  rw [slots_spellingTemplate, count_percent_spellingTemplate, hslots, hpercents] at hlength
  exact ⟨_, h, _, hmem, renders_of_encode h hmem, by omega, by omega⟩

end Limit

end Octoglyph
