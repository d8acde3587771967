import Octoglyph.Proofs.CodeSet
import Octoglyph.Proofs.Meaning
import Octoglyph.Proofs.Statement

/-! # What an encoded program executes

The statements of an encoded program run one after the other. The assignments bind every code that
the later statements read, and no later statement touches those bindings. So each statement executes
the text that it was made for, and the last one executes the program.
-/

namespace Octoglyph

open Statement

/-! ## Effects on the variables -/

namespace Bindings

variable {b : Bindings}

/-- The variables after the assignments of the codes. -/
def bindAll (b : Bindings) (codes : List UInt32) : Bindings :=
  codes.foldl (fun b n => b.set (DigitName.ofNumber n) (.int n.toNat)) b

theorem execute_assignmentSource (b : Bindings) (n : UInt32) :
    b.execute (assignmentSource n) = b.set (DigitName.ofNumber n) (.int n.toNat) := by
  have hbound : n.toNat < Assignment.intBound :=
    Nat.lt_trans n.toNat_lt (by decide)
  have hshape : assignmentSource n =
      (DigitName.ident n).text ++ '=' :: '0' :: 'b' :: Numeral.binary n.toNat := by
    rw [assignmentSource, DigitName.text_ident, List.append_assoc]
    rfl
  rw [hshape, b.execute_binary (DigitName.ident n) hbound, DigitName.text_ident]

theorem execute_bootstrap (b : Bindings) :
    b.execute "x=11".toList = b.set bootstrapName.text (.int 11) :=
  execute_of_set (by decide)

theorem Holds.set {n : UInt32} (h : b.Holds n) (m : UInt32) :
    (b.set (DigitName.ofNumber m) (.int m.toNat)).Holds n := by
  by_cases hnm : n = m
  · subst hnm
    exact b.get?_set_self _
  · have hne : DigitName.ofNumber m ≠ DigitName.ofNumber n := fun e =>
      hnm (DigitName.ofNumber_injective e).symm
    exact (b.get?_set_of_ne _ hne).trans h

theorem Holds.bindAll {n : UInt32} (h : b.Holds n) (codes : List UInt32) :
    (b.bindAll codes).Holds n := by
  induction codes generalizing b with
  | nil => exact h
  | cons m codes ih => exact ih (h.set m)

theorem holds_bindAll {codes : List UInt32} {n : UInt32} (h : n ∈ codes) :
    (b.bindAll codes).Holds n := by
  induction codes generalizing b with
  | nil => cases h
  | cons m codes ih =>
    rcases List.mem_cons.1 h with rfl | h
    · exact Holds.bindAll (b := b.set _ _) (b.get?_set_self _) codes
    · exact ih h

/-- The assignments leave every name that is none of theirs. -/
theorem get?_bindAll_of_ne {codes : List UInt32} {name : Text}
    (h : ∀ n ∈ codes, DigitName.ofNumber n ≠ name) : (b.bindAll codes).get? name = b.get? name := by
  induction codes generalizing b with
  | nil => rfl
  | cons m codes ih =>
    obtain ⟨hm, hcodes⟩ := List.forall_mem_cons.1 h
    exact (ih hcodes).trans (b.get?_set_of_ne _ hm)

/-- Setting a name that is no number's leaves what can be spelled. -/
theorem Spells.set {s name : Text} (h : b.Spells s) (hname : ∀ n, DigitName.ofNumber n ≠ name)
    (v : Value) : (b.set name v).Spells s := fun c hc hne =>
  (b.get?_set_of_ne v (hname c.val).symm).trans (h c hc hne)

end Bindings

/-! ## Runs of calls -/

namespace Chain

variable {b : Bindings} {done : List Text}

/-- The assignments run in order once `x` is bound to eleven. -/
theorem evalCalls_assignments (hx : b.get? bootstrapName.text = some (.int 11))
    (codes : List UInt32) (rest : List Expr) :
    evalCalls b done (codes.map assignment ++ rest) =
      evalCalls (b.bindAll codes) ((codes.map assignmentSource).reverse ++ done) rest := by
  induction codes generalizing b done with
  | nil => rfl
  | cons n codes ih =>
    have hx' : (b.set (DigitName.ofNumber n) (.int n.toNat)).get? bootstrapName.text =
        some (.int 11) :=
      (b.get?_set_of_ne _ DigitName.ofNumber_ne_bootstrapName).trans hx
    rw [List.map_cons, List.cons_append, evalCalls_cons_of_str (eval_assignment hx n),
      Bindings.execute_assignmentSource, ih hx']
    simp [Bindings.bindAll]

/-- The accumulator starts with no text. -/
theorem evalCalls_init_cons (hspells : b.Spells Accumulator.init) (rest : List Expr) :
    evalCalls b done (spelling Accumulator.init :: rest) =
      evalCalls (b.set Accumulator.name.text (.str [])) (Accumulator.init :: done) rest := by
  have hexecute : b.execute Accumulator.init = b.set Accumulator.name.text (.str []) :=
    b.execute_empty Accumulator.name
  rw [evalCalls_cons_of_str (eval_spelling hspells), hexecute]

/-- A statement that appends a character puts it behind the collected `text`. -/
theorem evalCalls_append_cons (text : Text) {c : Char}
    (hspells : b.Spells (Accumulator.append c.val)) (rest : List Expr) :
    evalCalls (b.set Accumulator.name.text (.str text)) done
        (spelling (Accumulator.append c.val) :: rest) =
      evalCalls (b.set Accumulator.name.text (.str (text ++ [c])))
        (Accumulator.append c.val :: done) rest := by
  have hspell := hspells.set (fun _ => DigitName.ofNumber_ne_accumulatorName) (.str text)
  -- the appended string replaces the one before it, so the rest of `b` is never touched
  have hexecute : (b.set Accumulator.name.text (.str text)).execute (Accumulator.append c.val) =
      b.set Accumulator.name.text (.str (text ++ [c])) :=
    (Bindings.execute_chr (b.get?_set_self _) c).trans (b.set_set _ _)
  rw [evalCalls_cons_of_str (eval_spelling hspell), hexecute]

/-- The statements that append characters run in order and collect them behind `text`. -/
theorem evalCalls_appends (text : Text) {program : Text}
    (hspells : ∀ c ∈ program, b.Spells (Accumulator.append c.val)) (rest : List Expr) :
    evalCalls (b.set Accumulator.name.text (.str text)) done
        (program.map (fun c => spelling (Accumulator.append c.val)) ++ rest) =
      evalCalls (b.set Accumulator.name.text (.str (text ++ program)))
        ((program.map fun c => Accumulator.append c.val).reverse ++ done) rest := by
  induction program generalizing text done with
  | nil => simp
  | cons c program ih =>
    obtain ⟨hc, hprogram⟩ := List.forall_mem_cons.1 hspells
    rw [List.map_cons, List.cons_append, evalCalls_append_cons text hc, ih (text ++ [c]) hprogram]
    simp

end Chain

/-! ## The whole chain -/

namespace Encoder

/-- What `x` and the codes are bound to before the steps run. -/
def prepared (codes : List UInt32) : Bindings :=
  (Bindings.set {} bootstrapName.text (.int 11)).bindAll codes

theorem spells_prepared {codes : List UInt32} {s : Text} (h : ∀ c ∈ s, c.val ∈ codes) :
    (prepared codes).Spells s := fun c hc _ => Bindings.holds_bindAll (h c hc)

/-- The texts that are executed before the steps run. -/
def preparation (codes : List UInt32) : List Text :=
  "x=11".toList :: codes.map assignmentSource

theorem eval_assemble (codes : List UInt32) (steps : List Step) :
    (assemble codes steps).eval =
      Chain.evalCalls (prepared codes) (preparation codes).reverse (steps.map Step.expr) := by
  have hx : (Bindings.set {} bootstrapName.text (.int 11)).get? bootstrapName.text =
      some (.int 11) := Bindings.get?_set_self {} _
  rw [Chain.eval, assemble, Chain.evalCalls_cons_of_str (eval_bootstrap {}),
    Bindings.execute_bootstrap, Chain.evalCalls_assignments hx]
  simp [prepared, preparation]

end Encoder

namespace Strategy

/-- What the steps of a strategy execute. -/
def trace (program : Text) : Strategy → List Text
  | .direct => [program]
  | .accumulator =>
    "xx=''".toList ::
      (program.map fun c => "xx+=chr(".toList ++ Numeral.decimal c.toNat ++ [')']) ++ [program]

/-- The variables after the steps of a strategy. The program itself is executed last, so it may bind
one too. -/
def bindings (b : Bindings) (program : Text) : Strategy → Bindings
  | .direct => b.execute program
  | .accumulator => (b.set Accumulator.name.text (.str program)).execute program

variable {b : Bindings} (done : List Text) {program : Text}

theorem evalCalls_direct (h : b.Spells program) :
    Chain.evalCalls b done ((direct.payload program).map Step.expr) =
      .ok ⟨done.reverse ++ direct.trace program, direct.bindings b program⟩ := by
  have hcalls : (direct.payload program).map Step.expr = [spelling program] := rfl
  rw [hcalls, Chain.evalCalls_cons_of_str (eval_spelling h), Chain.evalCalls]
  simp [trace, bindings]

theorem map_expr_accumulator (program : Text) :
    (accumulator.payload program).map Step.expr =
      spelling Accumulator.init ::
        (program.map (fun c => spelling (Accumulator.append c.val)) ++
          [.atom (.ident Accumulator.name)]) := by
  simp [payload, Step.expr]

theorem evalCalls_accumulator (hinit : b.Spells Accumulator.init)
    (happend : ∀ c ∈ program, b.Spells (Accumulator.append c.val)) :
    Chain.evalCalls b done ((accumulator.payload program).map Step.expr) =
      .ok ⟨done.reverse ++ accumulator.trace program, accumulator.bindings b program⟩ := by
  have hread : (Expr.atom (.ident Accumulator.name)).eval
      (b.set Accumulator.name.text (.str ([] ++ program))) = .ok (.str ([] ++ program)) := by
    rw [Expr.eval]
    exact Atom.eval_ident (b.get?_set_self _)
  have htrace : accumulator.trace program =
      Accumulator.init :: (program.map fun c => Accumulator.append c.val) ++ [program] := rfl
  rw [map_expr_accumulator, Chain.evalCalls_init_cons hinit, Chain.evalCalls_appends [] happend,
    Chain.evalCalls_cons_of_str hread, Chain.evalCalls, htrace]
  simp [bindings]

theorem forall_mem_accumulator {p : Step → Prop} :
    (∀ step ∈ accumulator.payload program, p step) ↔
      p (.encoded Accumulator.init) ∧ (∀ c ∈ program, p (.encoded (Accumulator.append c.val))) ∧
        p (.verbatim Accumulator.name) := by
  rw [payload, List.forall_mem_append, List.forall_mem_cons, List.forall_mem_map,
    List.forall_mem_singleton, and_assoc]

theorem mem_payload_accumulator {text : Text}
    (h : Step.encoded text ∈ accumulator.payload program) :
    text = Accumulator.init ∨ ∃ c ∈ program, text = Accumulator.append c.val := by
  rcases List.mem_append.1 h with h | h
  · rcases List.mem_cons.1 h with h | h
    · exact .inl (Step.encoded.inj h)
    · obtain ⟨c, hc, heq⟩ := List.mem_map.1 h
      exact .inr ⟨c, hc, (Step.encoded.inj heq).symm⟩
  · cases List.mem_singleton.1 h

/-- The steps of a strategy, run where all they spell is bound, execute its trace. -/
theorem evalCalls_payload (strategy : Strategy)
    (h : ∀ step ∈ strategy.payload program, b.Spells step.spelled) :
    Chain.evalCalls b done ((strategy.payload program).map Step.expr) =
      .ok ⟨done.reverse ++ strategy.trace program, strategy.bindings b program⟩ := by
  cases strategy with
  | direct => exact evalCalls_direct done (h (.encoded program) (by simp [payload]))
  | accumulator =>
    obtain ⟨hinit, happend, -⟩ := forall_mem_accumulator.1 h
    exact evalCalls_accumulator done hinit happend

theorem getLast?_trace (strategy : Strategy) (program : Text) :
    (strategy.trace program).getLast? = some program := by
  cases strategy with
  | direct => rfl
  | accumulator => exact List.getLast?_concat

end Strategy

namespace Encoder

/-- An assembled program executes the preparation and then the trace of its strategy, as long as the
assignments, whichever they are, let it spell its steps. -/
theorem eval_assemble_payload {codes : List UInt32} {program : Text} {strategy : Strategy}
    (h : ∀ step ∈ strategy.payload program, (prepared codes).Spells step.spelled) :
    (assemble codes (strategy.payload program)).eval =
      .ok ⟨preparation codes ++ strategy.trace program,
        strategy.bindings (prepared codes) program⟩ := by
  rw [eval_assemble, strategy.evalCalls_payload _ h, List.reverse_reverse]

end Encoder

end Octoglyph
