import Octoglyph.Proofs.Editing

/-! # Encodings with a statement missing

An encoding without one of its assignments runs up to the first statement that reads the variable,
and that statement reports it. There may be none: a code that only percents have, or that occurs in
the program but in none of the texts that spell it, is assigned and never read. Without the first
statement not even an assignment can run.
-/

namespace Octoglyph

open Statement Encoder

/-! ## Texts that read a variable -/

/-- Spelling the text reads the variable of the code: a character has this code, and it is no
percent. -/
def Text.Reads (s : Text) (n : UInt32) : Prop := ∃ c ∈ s, c ≠ '%' ∧ c.val = n

/-- Some text that the steps spell reads the variable of the code. -/
def Strategy.Reads (strategy : Strategy) (program : Text) (n : UInt32) : Prop :=
  ∃ text, Step.encoded text ∈ strategy.payload program ∧ Text.Reads text n

namespace Bindings

/-- Of the variables that spelling the text reads, only that of `n` may be missing, and it is. -/
structure Lacks (b : Bindings) (n : UInt32) (s : Text) : Prop where
  unbound : b.get? (DigitName.ofNumber n) = none
  holds : ∀ c ∈ s, c ≠ '%' → c.val ≠ n → b.Holds c.val

namespace Lacks

variable {b : Bindings} {n : UInt32} {s : Text} (h : b.Lacks n s)

include h

theorem spells (hs : ¬ s.Reads n) : b.Spells s := by
  intro c hc hne
  exact h.holds c hc hne fun hn => hs ⟨c, hc, hne, hn⟩

theorem set {name : Text} (hname : ∀ m, DigitName.ofNumber m ≠ name) (v : Value) :
    (b.set name v).Lacks n s where
  unbound := (b.get?_set_of_ne v (hname n).symm).trans h.unbound
  holds c hc hne hn := (b.get?_set_of_ne v (hname c.val).symm).trans (h.holds c hc hne hn)

/-- The characters in front of the first one with the missing variable can be spelled, and it is the
one that stops the template. -/
theorem eval_spelling (hs : s.Reads n) :
    (spelling s).eval b = .error (.unbound (DigitName.ofNumber n)) := by
  obtain ⟨c, hc, hne, rfl⟩ := hs
  obtain ⟨front, rest, rfl, hfront⟩ := List.eq_append_cons_of_mem hc
  refine eval_spelling_of_unbound ?_ hne h.unbound rest
  intro d hd hdne
  refine h.holds d (List.mem_append_left _ hd) hdne fun hval => hfront ?_
  exact Char.val_inj.1 hval ▸ hd

end Lacks

end Bindings

/-! ## Runs that stop -/

variable {b : Bindings} {n : UInt32}

/-- The statements that append run until one reads the missing variable. -/
theorem Chain.evalCalls_appends_of_lacks {done : List Text} (text : Text) {program : Text}
    (hlacks : ∀ c ∈ program, b.Lacks n (Accumulator.append c.val))
    (hreads : ∃ c ∈ program, Text.Reads (Accumulator.append c.val) n) (rest : List Expr) :
    evalCalls (b.set Accumulator.name.text (.str text)) done
        (program.map (fun c => spelling (Accumulator.append c.val)) ++ rest) =
      .error (.unbound (DigitName.ofNumber n)) := by
  induction program generalizing text done with
  | nil =>
    obtain ⟨c, hc, -⟩ := hreads
    cases hc
  | cons c program ih =>
    obtain ⟨hc, hprogram⟩ := List.forall_mem_cons.1 hlacks
    rw [List.map_cons, List.cons_append]
    by_cases hread : Text.Reads (Accumulator.append c.val) n
    · have hname : ∀ m, DigitName.ofNumber m ≠ Accumulator.name.text := fun _ =>
        DigitName.ofNumber_ne_accumulatorName
      exact evalCalls_cons_of_error ((hc.set hname _).eval_spelling hread) _ _
    · rw [evalCalls_append_cons text (hc.spells hread)]
      refine ih (text ++ [c]) hprogram ?_
      obtain ⟨d, hd, hreads⟩ := hreads
      rcases List.mem_cons.1 hd with rfl | hd
      · exact absurd hreads hread
      · exact ⟨d, hd, hreads⟩

namespace Strategy

variable {strategy : Strategy} {program : Text} (done : List Text)

theorem evalCalls_accumulator_of_lacks (hinit : b.Lacks n Accumulator.init)
    (happend : ∀ c ∈ program, b.Lacks n (Accumulator.append c.val))
    (hreads : accumulator.Reads program n) :
    Chain.evalCalls b done ((accumulator.payload program).map Step.expr) =
      .error (.unbound (DigitName.ofNumber n)) := by
  rw [map_expr_accumulator]
  by_cases hread : Text.Reads Accumulator.init n
  · exact Chain.evalCalls_cons_of_error (hinit.eval_spelling hread) _ _
  · rw [Chain.evalCalls_init_cons (hinit.spells hread)]
    refine Chain.evalCalls_appends_of_lacks [] happend ?_ _
    obtain ⟨text, htext, htextReads⟩ := hreads
    rcases mem_payload_accumulator htext with rfl | ⟨c, hc, rfl⟩
    · exact absurd htextReads hread
    · exact ⟨c, hc, htextReads⟩

/-- The steps of a strategy stop at the variable that is missing, if one of them reads it. -/
theorem evalCalls_payload_of_lacks
    (h : ∀ step ∈ strategy.payload program, b.Lacks n step.spelled)
    (hreads : strategy.Reads program n) :
    Chain.evalCalls b done ((strategy.payload program).map Step.expr) =
      .error (.unbound (DigitName.ofNumber n)) := by
  cases strategy with
  | direct =>
    obtain ⟨text, htext, htextReads⟩ := hreads
    obtain rfl : text = program := by simpa [payload] using htext
    exact Chain.evalCalls_cons_of_error ((h _ htext).eval_spelling htextReads) _ _
  | accumulator =>
    obtain ⟨hinit, happend, -⟩ := forall_mem_accumulator.1 h
    exact evalCalls_accumulator_of_lacks done hinit happend hreads

theorem spells_of_lacks (h : ∀ step ∈ strategy.payload program, b.Lacks n step.spelled)
    (hreads : ¬ strategy.Reads program n) :
    ∀ step ∈ strategy.payload program, b.Spells step.spelled := by
  intro step hstep
  refine (h step hstep).spells fun hread => ?_
  cases step with
  | encoded text => exact hreads ⟨text, hstep, hread⟩
  | verbatim name =>
    obtain ⟨c, hc, -⟩ := hread
    cases hc

end Strategy

/-! ## Statements taken out -/

namespace Encoder

variable {strategy : Strategy} {program : Text} {encoded : Encoded} {codes : List UInt32}

theorem text_bootstrap_ne (n : UInt32) : bootstrap.text ≠ (assignment n).text := by
  intro h
  have hname := name_of_text_assignmentOf h
  rw [DigitName.text_ident] at hname
  exact DigitName.ofNumber_ne_bootstrapName hname.symm

theorem erase_statements (hn : n ∈ codes) (payload : List Text) :
    (statements (assignments codes) payload).erase (assignment n).text =
      statements (assignments (codes.erase n)) payload := by
  have hmem : (assignment n).text ∈ assignments codes := List.mem_map.2 ⟨n, hn, rfl⟩
  rw [statements, List.erase_cons_tail (by simpa using text_bootstrap_ne n),
    List.erase_append_left _ hmem, statements, assignments, assignments,
    List.map_erase text_assignment_injective]

namespace Layout

theorem lacks (h : Layout strategy program encoded codes) (n : UInt32) :
    ∀ step ∈ strategy.payload program, (prepared (codes.erase n)).Lacks n step.spelled := by
  intro step hstep
  constructor
  · have hne : ∀ m ∈ codes.erase n, DigitName.ofNumber m ≠ DigitName.ofNumber n := by
      intro m hm e
      obtain rfl := DigitName.ofNumber_injective e
      exact h.isCodeSet.nodup.not_mem_erase hm
    rw [prepared, Bindings.get?_bindAll_of_ne hne,
      Bindings.get?_set_of_ne _ _ DigitName.ofNumber_ne_bootstrapName.symm]
    rfl
  · intro c hc _ hcn
    exact Bindings.holds_bindAll ((List.mem_erase_of_ne hcn).2 (h.mem_codes hstep hc))

end Layout

/-- Without the assignment of a code that is read, the run stops there. -/
theorem evaluate_statements_of_lacks
    (h : ∀ step ∈ strategy.payload program, (prepared codes).Lacks n step.spelled)
    (hreads : strategy.Reads program n) :
    evaluate (joinCalls (statements (assignments codes) (strategy.statements program))) =
      .error (.nameError (String.ofList (DigitName.ofNumber n))) := by
  rw [← arguments_assemble, ← Chain.text, evaluate_text, eval_assemble,
    Strategy.evalCalls_payload_of_lacks _ h hreads]
  rfl

/-- Without the first statement, the first assignment stops at `x`. -/
theorem evaluate_of_no_bootstrap (n : UInt32) (codes : List UInt32) (steps : List Step) :
    evaluate (joinCalls (assignments (n :: codes) ++ steps.map fun step => step.expr.text)) =
      .error (.nameError "x") := by
  let chain : Chain := ⟨assignment n :: (codes.map assignment ++ steps.map Step.expr), by simp⟩
  have htext : chain.text =
      joinCalls (assignments (n :: codes) ++ steps.map fun step => step.expr.text) := by
    simp [chain, Chain.text, Chain.arguments, assignments, Function.comp_def]
  have heval : chain.eval = .error (.unbound bootstrapName.text) :=
    Chain.evalCalls_cons_of_error (eval_assignment_of_unbound rfl n) _ _
  rw [← htext, evaluate_text, heval]
  rfl

end Encoder

/-- An encoding depends on exactly the assignments that its steps read. Taking out the assignment of
a code leaves a chain that reports the variable of the code if a step reads it, and that still runs
the program if none does. Taking out the first statement leaves one that reports `x`, as long as
there is a code to assign. -/
theorem evaluate_erased_statement {config : Config} {program : Text} {encoded : Encoded}
    (h : encode config program = .ok encoded) :
    ∃ codes, Layout config.strategy program encoded codes ∧
      (∀ n ∈ codes,
        (config.strategy.Reads program n →
          evaluate (joinCalls (encoded.chain.arguments.erase (assignment n).text)) =
            .error (.nameError (String.ofList (DigitName.ofNumber n)))) ∧
        (¬ config.strategy.Reads program n →
          ∃ outcome, evaluate (joinCalls (encoded.chain.arguments.erase (assignment n).text)) =
              .ok outcome ∧
            outcome.payload? = some program)) ∧
      (codes ≠ [] →
        evaluate (joinCalls (encoded.chain.arguments.erase bootstrap.text)) =
          .error (.nameError "x")) := by
  have hlayout := layout_of_encode h
  refine ⟨_, hlayout, fun n hn => ?_, fun hcodes => ?_⟩
  · rw [hlayout.arguments_eq, erase_statements hn]
    constructor
    · intro hreads
      exact evaluate_statements_of_lacks (hlayout.lacks n) hreads
    · intro hreads
      exact ⟨_, evaluate_statements (Strategy.spells_of_lacks (hlayout.lacks n) hreads),
        payload?_trace _ _ _ _⟩
  · obtain ⟨n, rest, hcons⟩ := List.exists_cons_of_ne_nil hcodes
    rw [hlayout.arguments_eq, statements, List.erase_cons_head, hcons]
    exact evaluate_of_no_bootstrap n rest _

/-- Of the two codes of a letter and a percent, only that of the letter is read. -/
theorem evaluate_erased_statement_percent :
    ∃ encoded, encode { strategy := .direct } ['a', '%'] = .ok encoded ∧
      evaluate (joinCalls (encoded.chain.arguments.erase (assignment 97).text)) =
        .error (.nameError "eecccce") ∧
      (∃ outcome, evaluate (joinCalls (encoded.chain.arguments.erase (assignment 37).text)) =
          .ok outcome ∧ outcome.payload? = some ['a', '%']) ∧
      evaluate (joinCalls (encoded.chain.arguments.erase bootstrap.text)) =
        .error (.nameError "x") := by
  have h : encode { strategy := .direct } ['a', '%'] = .ok (encoding .direct ['a', '%']) :=
    encode_of_fits (by decide) (by decide +kernel) (by decide +kernel)
  obtain ⟨codes, hlayout, herased, hbootstrap⟩ := evaluate_erased_statement h
  have hletter : 97 ∈ codes := (hlayout.isCodeSet.mem_iff 97).2 ⟨'a', by decide, rfl⟩
  have hpercent : 37 ∈ codes := (hlayout.isCodeSet.mem_iff 37).2 ⟨'%', by decide, rfl⟩
  have hread : Strategy.direct.Reads ['a', '%'] 97 :=
    ⟨['a', '%'], List.mem_singleton.2 rfl, 'a', by decide, by decide, rfl⟩
  have hunread : ¬ Strategy.direct.Reads ['a', '%'] 37 := by
    rintro ⟨text, htext, c, -, hne, hval⟩
    exact hne (Char.val_inj.1 hval)
  have hname : String.ofList (DigitName.ofNumber 97) = "eecccce" := by decide +kernel
  refine ⟨_, h, ?_, (herased 37 hpercent).2 hunread, hbootstrap (List.ne_nil_of_mem hletter)⟩
  rw [(herased 97 hletter).1 hread, hname]

end Octoglyph
