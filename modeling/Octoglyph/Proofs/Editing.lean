import Mathlib.Data.List.OfFn
import Mathlib.Data.Set.List
import Octoglyph.Proofs.Encoding

/-! # Encodings with other statements in place

An encoding consists of the first statement, the assignments and the statements of its strategy. An
assignment reads `x` and binds its own name, so the assignments may stand in any order and any
number of times. A statement that appends a character does so whatever has been collected before, so
from the statements of a program those of another one can be put together.
-/

namespace Octoglyph

open Statement Encoder

/-! ## Variables that agree -/

namespace Bindings

/-- Every name has the same value in both, or in neither. -/
def Agree (b b' : Bindings) : Prop := ∀ name, b.get? name = b'.get? name

namespace Agree

variable {b b' : Bindings} (h : b.Agree b')

include h

theorem set (name : Text) (v : Value) : (b.set name v).Agree (b'.set name v) := by
  intro other
  by_cases hname : name = other
  · subst hname
    rw [get?_set_self, get?_set_self]
  · rw [get?_set_of_ne b v hname, get?_set_of_ne b' v hname]
    exact h other

theorem recognise?_eq (source : Text) : b.recognise? source = b'.recognise? source := by
  have hbinding : Assignment.binding? b = Assignment.binding? b' := by
    funext assignment
    cases assignment with
    | set name v => rfl
    | append name c => rw [Assignment.binding?, Assignment.binding?, h name]
  rw [recognise?, recognise?, hbinding]

theorem execute (source : Text) : (b.execute source).Agree (b'.execute source) := by
  unfold Bindings.execute
  rw [h.recognise?_eq source]
  cases b'.recognise? source with
  | none => exact h
  | some binding => exact h.set binding.1 binding.2

end Agree

/-- What the assignments bind depends on the set of their codes alone. -/
theorem agree_bindAll (b : Bindings) {codes order : List UInt32} (h : ∀ n, n ∈ order ↔ n ∈ codes) :
    (b.bindAll order).Agree (b.bindAll codes) := by
  intro name
  by_cases hname : ∃ n ∈ codes, DigitName.ofNumber n = name
  · obtain ⟨n, hn, rfl⟩ := hname
    have horder : (b.bindAll order).Holds n := holds_bindAll ((h n).2 hn)
    have hcodes : (b.bindAll codes).Holds n := holds_bindAll hn
    exact horder.trans hcodes.symm
  · have hcodes : ∀ n ∈ codes, DigitName.ofNumber n ≠ name := fun n hn e => hname ⟨n, hn, e⟩
    rw [get?_bindAll_of_ne hcodes, get?_bindAll_of_ne fun n hn => hcodes n ((h n).1 hn)]

end Bindings

theorem Strategy.agree_bindings {b b' : Bindings} (h : b.Agree b') (program : Text)
    (strategy : Strategy) : (strategy.bindings b program).Agree (strategy.bindings b' program) := by
  cases strategy with
  | direct => exact h.execute program
  | accumulator => exact (h.set _ _).execute program

/-! ## The statements of an encoding -/

namespace Statement

/-- A statement that assigns tells the name that it assigns to. -/
theorem name_of_text_assignmentOf {name name' : Ident} {args args' : List Atom}
    (h : (assignmentOf name args).text = (assignmentOf name' args').text) :
    name.text = name'.text := by
  have hcut : ∀ (i : Ident) (rest : Text),
      Text.cutAt? ['='] (i.text ++ '=' :: rest) = some (i.text, rest) := fun i rest =>
    Text.cutAt?_append (Ident.not_mem_text_of_not_isWordChar (by decide)) [] rest
  rw [text_assignmentOf, text_assignmentOf] at h
  have hpair := congrArg (Text.cutAt? ['=']) (List.cons.inj h).2
  rw [hcut, hcut] at hpair
  exact congrArg Prod.fst (Option.some.inj hpair)

theorem text_assignment_injective : Function.Injective fun n => (assignment n).text := by
  intro n m h
  have hname := name_of_text_assignmentOf h
  rw [DigitName.text_ident, DigitName.text_ident] at hname
  exact DigitName.ofNumber_injective hname

end Statement

namespace Encoder

/-- The statements that assign the codes. -/
def assignments (codes : List UInt32) : List Text := codes.map fun n => (assignment n).text

/-- The statements of an encoding that has the given ones between the first one and the payload. -/
def statements (block payload : List Text) : List Text := bootstrap.text :: (block ++ payload)

end Encoder

/-- The statements that run the program. -/
def Strategy.statements (program : Text) (strategy : Strategy) : List Text :=
  (strategy.payload program).map fun step => step.expr.text

namespace Encoder

variable {strategy : Strategy} {config : Config} {program : Text}

theorem arguments_assemble (codes : List UInt32) :
    (assemble codes (strategy.payload program)).arguments =
      statements (assignments codes) (strategy.statements program) := by
  simp [Chain.arguments, assemble, statements, assignments, Strategy.statements, Function.comp_def]

/-- With these codes the encoding is the first statement, the assignment of each code that occurs,
in ascending order, and the statements of the strategy. -/
structure Layout (strategy : Strategy) (program : Text) (encoded : Encoded)
    (codes : List UInt32) : Prop where
  isCodeSet : IsCodeSet codes (program ++ (strategy.payload program).flatMap Step.spelled)
  arguments_eq :
    encoded.chain.arguments = statements (assignments codes) (strategy.statements program)

theorem layout_of_encode {encoded : Encoded} (h : encode config program = .ok encoded) :
    Layout config.strategy program encoded
      (codes program (config.strategy.payload program)) := by
  obtain rfl := eq_encoding_of_encode h
  exact ⟨isCodeSet_codes _ _, arguments_assemble _⟩

namespace Layout

variable {encoded : Encoded} {codes : List UInt32}

theorem text_eq (h : Layout strategy program encoded codes) :
    encoded.text = joinCalls (statements (assignments codes) (strategy.statements program)) := by
  rw [encoded.text_eq, Chain.text, h.arguments_eq]

theorem mem_codes (h : Layout strategy program encoded codes) {step : Step}
    (hstep : step ∈ strategy.payload program) {c : Char} (hc : c ∈ step.spelled) :
    c.val ∈ codes := by
  rw [h.isCodeSet.mem_iff]
  exact ⟨c, List.mem_append_right _ (List.mem_flatMap.2 ⟨step, hstep, hc⟩), rfl⟩

theorem spells (h : Layout strategy program encoded codes) {order : List UInt32}
    (horder : ∀ n ∈ codes, n ∈ order) :
    ∀ step ∈ strategy.payload program, (prepared order).Spells step.spelled := by
  intro step hstep
  exact spells_prepared fun c hc => horder c.val (h.mem_codes hstep hc)

end Layout

theorem evaluate_statements {codes : List UInt32}
    (h : ∀ step ∈ strategy.payload program, (prepared codes).Spells step.spelled) :
    evaluate (joinCalls (statements (assignments codes) (strategy.statements program))) =
      .ok ⟨trace strategy program codes, strategy.bindings (prepared codes) program⟩ := by
  rw [← evaluate_assemble strategy program h, Chain.text, arguments_assemble]

/-- Statements that are all assignments of the codes assign them in some order. -/
theorem exists_order {codes : List UInt32} {block : List Text}
    (h : ∀ t, t ∈ block ↔ t ∈ assignments codes) :
    ∃ order, block = assignments order ∧ ∀ n, n ∈ order ↔ n ∈ codes := by
  have hrange : block ∈ Set.range (List.map fun n => (assignment n).text) := by
    rw [Set.range_list_map]
    intro t ht
    obtain ⟨n, -, rfl⟩ := List.mem_map.1 ((h t).1 ht)
    exact ⟨n, rfl⟩
  obtain ⟨order, rfl⟩ := hrange
  refine ⟨order, rfl, fun n => ?_⟩
  rw [← List.mem_map_of_injective text_assignment_injective, h, assignments,
    List.mem_map_of_injective text_assignment_injective]

end Encoder

variable {config : Config} {program : Text}

/-! ## Other orders of the assignments -/

/-- The assignments of an encoding may be replaced by any statements that are the same as a set. The
program is still the one that is run, and in the end every variable is bound as it was. -/
theorem evaluate_reordered_assignments {encoded : Encoded}
    (h : encode config program = .ok encoded) :
    ∃ codes outcome, Layout config.strategy program encoded codes ∧
      evaluate encoded.text = .ok outcome ∧
        ∀ block : List Text, (∀ t, t ∈ block ↔ t ∈ assignments codes) →
          ∃ other, evaluate (joinCalls (statements block (config.strategy.statements program))) =
              .ok other ∧
            other.payload? = some program ∧ other.bindings.Agree outcome.bindings := by
  have hlayout := layout_of_encode h
  have heval := evaluate_statements (hlayout.spells fun _ hn => hn)
  refine ⟨_, _, hlayout, (congrArg evaluate hlayout.text_eq).trans heval, ?_⟩
  intro block hblock
  obtain ⟨order, rfl, horder⟩ := exists_order hblock
  have hother := evaluate_statements (hlayout.spells fun n hn => (horder n).2 hn)
  refine ⟨_, hother, payload?_trace _ _ _ _, ?_⟩
  exact config.strategy.agree_bindings (Bindings.agree_bindAll _ horder) program

/-- Two codes, assigned in descending order and one of them once more. -/
theorem evaluate_reordered_assignments_pair :
    ∃ encoded, encode { strategy := .direct } ['a', 'b'] = .ok encoded ∧
      ∃ outcome other, evaluate encoded.text = .ok outcome ∧
        evaluate (joinCalls (statements (assignments [98, 97, 98])
          (Strategy.direct.statements ['a', 'b']))) = .ok other ∧
            other.payload? = some ['a', 'b'] ∧ other.bindings.Agree outcome.bindings := by
  have h : encode { strategy := .direct } ['a', 'b'] = .ok (encoding .direct ['a', 'b']) :=
    encode_of_fits (by decide) (by decide +kernel) (by decide +kernel)
  obtain ⟨codes, outcome, hlayout, heval, hreordered⟩ := evaluate_reordered_assignments h
  have hcodes : ∀ n, n ∈ [98, 97, 98] ↔ n ∈ codes := by
    intro n
    rw [hlayout.isCodeSet.mem_iff]
    constructor
    · intro hn
      obtain rfl | rfl | rfl : n = 98 ∨ n = 97 ∨ n = 98 := by simpa using hn
      · exact ⟨'b', by decide, rfl⟩
      · exact ⟨'a', by decide, rfl⟩
      · exact ⟨'b', by decide, rfl⟩
    · rintro ⟨c, hc, rfl⟩
      have hletter : c ∈ ['a', 'b'] := (List.mem_append.1 hc).elim id id
      obtain rfl | rfl : c = 'a' ∨ c = 'b' := by simpa using hletter
      · exact List.mem_cons_of_mem _ List.mem_cons_self
      · exact List.mem_cons_self
  have hblock : ∀ t, t ∈ assignments [98, 97, 98] ↔ t ∈ assignments codes := by
    intro t
    simp only [assignments, List.mem_map, hcodes]
  obtain ⟨other, hother, hpayload, hagree⟩ := hreordered _ hblock
  exact ⟨_, h, outcome, other, heval, hother, hpayload, hagree⟩

/-! ## Other characters -/

namespace Accumulator

/-- The statements that run what the given ones append. -/
def statements (appends : List Text) : List Text :=
  (spelling init).text :: (appends ++ [name.text])

/-- The statement that appends the character. -/
def appendStatement (c : Char) : Text := (spelling (append c.val)).text

end Accumulator

theorem Strategy.statements_accumulator (program : Text) :
    accumulator.statements program =
      Accumulator.statements (program.map Accumulator.appendStatement) := by
  simp [statements, payload, Step.expr, Accumulator.statements, Accumulator.appendStatement]

/-- The statements of an encoding append its characters one for one. Any choice of them, in any
order and with repetitions, runs the program that has the same choice of characters. -/
theorem evaluate_selected_appends {encoded : Encoded} (hstrategy : config.strategy = .accumulator)
    (h : encode config program = .ok encoded) :
    ∃ (codes : List UInt32) (appends : Fin program.length → Text),
      IsCodeSet codes (program ++ (Strategy.accumulator.payload program).flatMap Step.spelled) ∧
        encoded.chain.arguments = statements (assignments codes)
          (Accumulator.statements (List.ofFn appends)) ∧
        ∀ indices : List (Fin program.length),
          ∃ outcome, evaluate (joinCalls (statements (assignments codes)
              (Accumulator.statements (indices.map appends)))) = .ok outcome ∧
            outcome.payload? = some (indices.map program.get) := by
  have hlayout := layout_of_encode h
  rw [hstrategy] at hlayout
  refine ⟨_, fun i => Accumulator.appendStatement (program.get i), hlayout.isCodeSet, ?_, ?_⟩
  · have hofFn : List.ofFn (fun i => Accumulator.appendStatement (program.get i)) =
        program.map Accumulator.appendStatement := by
      rw [← Function.comp_def, ← List.map_ofFn, List.ofFn_get]
    rw [hlayout.arguments_eq, Strategy.statements_accumulator, hofFn]
  · intro indices
    -- the chosen characters occur in the program, so their statements read what the program's do
    obtain ⟨hinit, happend, hname⟩ :=
      Strategy.forall_mem_accumulator.1 (hlayout.spells fun _ hn => hn)
    have hchosen : ∀ c ∈ indices.map program.get, c ∈ program := by
      intro c hc
      obtain ⟨i, -, rfl⟩ := List.mem_map.1 hc
      exact List.get_mem program i
    have heval := evaluate_statements (Strategy.forall_mem_accumulator.2
      ⟨hinit, fun c hc => happend c (hchosen c hc), hname⟩)
    rw [Strategy.statements_accumulator, List.map_map] at heval
    exact ⟨_, heval, payload?_trace _ _ _ _⟩

/-- From the statements of a program of two characters, those of one with three. -/
theorem evaluate_selected_appends_three :
    ∃ encoded, encode {} ['a', 'é'] = .ok encoded ∧
      ∃ (codes : List UInt32) (appends : Fin ['a', 'é'].length → Text),
        encoded.chain.arguments = statements (assignments codes)
          (Accumulator.statements (List.ofFn appends)) ∧
        ∃ outcome, evaluate (joinCalls (statements (assignments codes)
            (Accumulator.statements [appends 1, appends 0, appends 1]))) = .ok outcome ∧
          outcome.payload? = some ['é', 'a', 'é'] := by
  have h : encode {} ['a', 'é'] = .ok (encoding .accumulator ['a', 'é']) :=
    encode_of_fits (by decide) (by decide +kernel) (by decide +kernel)
  obtain ⟨codes, appends, -, harguments, hselected⟩ := evaluate_selected_appends rfl h
  exact ⟨_, h, codes, appends, harguments, hselected [1, 0, 1]⟩

end Octoglyph
