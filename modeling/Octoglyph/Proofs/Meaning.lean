import Octoglyph.Evaluation
import Octoglyph.Proofs.Consumed

/-! # The meaning of chains

The rules say what each form of tree comes to, a value or the first fault from the left. The
evaluator of trees follows the rules, and the evaluator of texts follows them on exactly the texts
that are printed chains.
-/

namespace Octoglyph

/-! ## The rules -/

mutual

/-- With the variables `b`, the atom comes to the result. -/
inductive Atom.Yields (b : Bindings) : Atom → Except Fault Value → Prop where
  | literal (body : Literal) : Atom.Yields b (.literal body) (.ok (.str body.text))
  | unit : Atom.Yields b .unit (.ok .unit)
  | bound {name : Ident} {v : Value} (h : b.get? name.text = some v) :
    Atom.Yields b (.ident name) (.ok v)
  | unbound {name : Ident} (h : b.get? name.text = none) :
    Atom.Yields b (.ident name) (.error (.unbound name.text))
  | group {inner : Expr} {result : Except Fault Value} (h : Expr.Yields b inner result) :
    Atom.Yields b (.group inner) result
  | equal {left right : Expr} {v w : Value} (hleft : Expr.Yields b left (.ok v))
    (hright : Expr.Yields b right (.ok w)) :
    Atom.Yields b (.equal left right) (.ok (.bool (v.same w)))
  | equal_left {left right : Expr} {fault : Fault} (hleft : Expr.Yields b left (.error fault)) :
    Atom.Yields b (.equal left right) (.error fault)
  | equal_right {left right : Expr} {v : Value} {fault : Fault}
    (hleft : Expr.Yields b left (.ok v)) (hright : Expr.Yields b right (.error fault)) :
    Atom.Yields b (.equal left right) (.error fault)

/-- With the variables `b`, the expression comes to the result. -/
inductive Expr.Yields (b : Bindings) : Expr → Except Fault Value → Prop where
  | atom {a : Atom} {result : Except Fault Value} (h : Atom.Yields b a result) :
    Expr.Yields b (.atom a) result
  | format {left : Expr} {right : Atom} {v w : Value} (hleft : Expr.Yields b left (.ok v))
    (hright : Atom.Yields b right (.ok w)) :
    Expr.Yields b (.format left right) (Format.apply v w)
  | format_left {left : Expr} {right : Atom} {fault : Fault}
    (hleft : Expr.Yields b left (.error fault)) : Expr.Yields b (.format left right) (.error fault)
  | format_right {left : Expr} {right : Atom} {v : Value} {fault : Fault}
    (hleft : Expr.Yields b left (.ok v)) (hright : Atom.Yields b right (.error fault)) :
    Expr.Yields b (.format left right) (.error fault)

end

/-- Starting with the variables `b`, the calls come to the result: each executes the text that its
expression comes to, and the first fault stops them. -/
inductive Chain.Runs : Bindings → List Expr → Except Fault Outcome → Prop where
  | done (b : Bindings) : Chain.Runs b [] (.ok ⟨[], b⟩)
  | call {b : Bindings} {e : Expr} {rest : List Expr} {source : Text} {outcome : Outcome}
    (he : e.Yields b (.ok (.str source)))
    (hrest : Chain.Runs (b.execute source) rest (.ok outcome)) :
    Chain.Runs b (e :: rest) (.ok ⟨source :: outcome.executed, outcome.bindings⟩)
  | later {b : Bindings} {e : Expr} {rest : List Expr} {source : Text} {fault : Fault}
    (he : e.Yields b (.ok (.str source)))
    (hrest : Chain.Runs (b.execute source) rest (.error fault)) :
    Chain.Runs b (e :: rest) (.error fault)
  | fault {b : Bindings} {e : Expr} {rest : List Expr} {fault : Fault}
    (he : e.Yields b (.error fault)) : Chain.Runs b (e :: rest) (.error fault)
  | notSource {b : Bindings} {e : Expr} {rest : List Expr} {v : Value} (he : e.Yields b (.ok v))
    (hv : v.kind ≠ .str) : Chain.Runs b (e :: rest) (.error (.notSource v.kind))

/-! ## Trees -/

variable {b : Bindings}

mutual

theorem Atom.yields_eval (a : Atom) : a.Yields b (a.eval b) := by
  cases a with
  | literal body => exact .literal body
  | unit => exact .unit
  | ident name =>
    rw [Atom.eval]
    split
    next v h => exact .bound h
    next h => exact .unbound h
  | group inner =>
    rw [Atom.eval]
    exact .group inner.yields_eval
  | equal left right =>
    have hleft := left.yields_eval
    have hright := right.yields_eval
    rw [Atom.eval]
    cases hl : left.eval b with
    | error fault => exact .equal_left (hl ▸ hleft)
    | ok v =>
      rw [hl] at hleft
      cases hr : right.eval b with
      | error fault => exact .equal_right hleft (hr ▸ hright)
      | ok w => exact .equal hleft (hr ▸ hright)

theorem Expr.yields_eval (e : Expr) : e.Yields b (e.eval b) := by
  cases e with
  | atom a =>
    rw [Expr.eval]
    exact .atom a.yields_eval
  | format left right =>
    have hleft := left.yields_eval
    have hright := right.yields_eval
    rw [Expr.eval]
    cases hl : left.eval b with
    | error fault => exact .format_left (hl ▸ hleft)
    | ok v =>
      rw [hl] at hleft
      cases hr : right.eval b with
      | error fault => exact .format_right hleft (hr ▸ hright)
      | ok w => exact .format hleft (hr ▸ hright)

end

mutual

theorem Atom.eval_of_yields {a : Atom} {result : Except Fault Value} (h : a.Yields b result) :
    a.eval b = result := by
  cases h with
  | literal body => rfl
  | unit => rfl
  | bound h => simp [Atom.eval, h]
  | unbound h => simp [Atom.eval, h]
  | group h => rw [Atom.eval, Expr.eval_of_yields h]
  | equal hleft hright =>
    rw [Atom.eval, Expr.eval_of_yields hleft, Expr.eval_of_yields hright]
    rfl
  | equal_left hleft =>
    rw [Atom.eval, Expr.eval_of_yields hleft]
    rfl
  | equal_right hleft hright =>
    rw [Atom.eval, Expr.eval_of_yields hleft, Expr.eval_of_yields hright]
    rfl

theorem Expr.eval_of_yields {e : Expr} {result : Except Fault Value} (h : e.Yields b result) :
    e.eval b = result := by
  cases h with
  | atom h => rw [Expr.eval, Atom.eval_of_yields h]
  | format hleft hright =>
    rw [Expr.eval, Expr.eval_of_yields hleft, Atom.eval_of_yields hright]
    rfl
  | format_left hleft =>
    rw [Expr.eval, Expr.eval_of_yields hleft]
    rfl
  | format_right hleft hright =>
    rw [Expr.eval, Expr.eval_of_yields hleft, Atom.eval_of_yields hright]
    rfl

end

/-! ## Calls -/

namespace Expr

variable {e : Expr}

theorem source_of_str {text : Text} (h : e.eval b = .ok (.str text)) : e.source b = .ok text := by
  rw [source, h]
  rfl

theorem source_of_error {fault : Fault} (h : e.eval b = .error fault) :
    e.source b = .error fault := by
  rw [source, h]
  rfl

theorem source_of_kind_ne {v : Value} (h : e.eval b = .ok v) (hv : v.kind ≠ .str) :
    e.source b = .error (.notSource v.kind) := by
  rw [source, h]
  cases v with
  | str text => exact absurd rfl hv
  | int _ | bool _ | unit => rfl

end Expr

namespace Chain

variable {calls : List Expr} {result : Except Fault Outcome}

/-- What has been executed before stands in front of what a run executes. -/
theorem evalCalls_eq_map (b : Bindings) (before : List Text) (calls : List Expr) :
    evalCalls b before calls =
      (evalCalls b [] calls).map fun o => ⟨before.reverse ++ o.executed, o.bindings⟩ := by
  induction calls generalizing b before with
  | nil => simp [evalCalls, Except.map]
  | cons e rest ih =>
    rw [evalCalls, evalCalls]
    cases e.source b with
    | error fault => rfl
    | ok source =>
      simp only
      rw [ih, ih (b.execute source) [source]]
      cases evalCalls (b.execute source) [] rest with
      | error fault => rfl
      | ok outcome => simp [Except.map]

theorem evalCalls_cons_of_str {e : Expr} {source : Text} (h : e.eval b = .ok (.str source))
    (before : List Text) (calls : List Expr) :
    evalCalls b before (e :: calls) = evalCalls (b.execute source) (source :: before) calls := by
  rw [evalCalls, Expr.source_of_str h]

theorem evalCalls_cons_of_error {e : Expr} {fault : Fault} (h : e.eval b = .error fault)
    (before : List Text) (calls : List Expr) : evalCalls b before (e :: calls) = .error fault := by
  rw [evalCalls, Expr.source_of_error h]

theorem evalCalls_of_runs (h : Runs b calls result) : evalCalls b [] calls = result := by
  induction h with
  | done b => rfl
  | call he _ ih | later he _ ih =>
    rw [evalCalls_cons_of_str (Expr.eval_of_yields he), evalCalls_eq_map, ih]
    rfl
  | fault he => exact evalCalls_cons_of_error (Expr.eval_of_yields he) _ _
  | notSource he hv => rw [evalCalls, Expr.source_of_kind_ne (Expr.eval_of_yields he) hv]

theorem runs_evalCalls (b : Bindings) (calls : List Expr) :
    Runs b calls (evalCalls b [] calls) := by
  induction calls generalizing b with
  | nil => exact .done b
  | cons e rest ih =>
    have hyields := e.yields_eval (b := b)
    cases he : e.eval b with
    | error fault =>
      rw [evalCalls_cons_of_error he]
      exact .fault (he ▸ hyields)
    | ok v =>
      rw [he] at hyields
      by_cases hv : v.kind = .str
      · obtain ⟨source, rfl⟩ : ∃ source, v = .str source := by
          cases v with
          | str source => exact ⟨source, rfl⟩
          | int _ | bool _ | unit => cases hv
        have hrest := ih (b.execute source)
        rw [evalCalls_cons_of_str he, evalCalls_eq_map]
        cases hr : evalCalls (b.execute source) [] rest with
        | error fault => exact .later hyields (hr ▸ hrest)
        | ok outcome => exact .call hyields (hr ▸ hrest)
      · rw [evalCalls, Expr.source_of_kind_ne he hv]
        exact .notSource hyields hv

/-- The evaluator of trees follows the rules. -/
theorem runs_iff : Runs b calls result ↔ evalCalls b [] calls = result :=
  ⟨evalCalls_of_runs, fun h => h ▸ runs_evalCalls b calls⟩

/-- A run that ends executes one text for each call. -/
theorem Runs.length_executed {outcome : Outcome} (h : Runs b calls (.ok outcome)) :
    outcome.executed.length = calls.length := by
  generalize hresult : Except.ok outcome = result at h
  induction h generalizing outcome with
  | done b =>
    cases hresult
    rfl
  | call he hrest ih =>
    cases hresult
    exact congrArg (· + 1) (ih rfl)
  | later _ _ _ | fault _ | notSource _ _ => cases hresult

end Chain

/-! ## Texts -/

theorem Fault.diagnosis_ne_syntaxError (fault : Fault) (position : Nat) (detail : String) :
    fault.diagnosis ≠ .syntaxError position detail := by
  cases fault <;> exact nofun

/-- A printed chain is evaluated as its tree. -/
theorem evaluate_text (chain : Chain) :
    evaluate chain.text = chain.eval.mapError Fault.diagnosis := by
  rw [evaluate, chain.read_text]

/-- Only printed chains are evaluated without a fault. -/
theorem exists_text_of_evaluate {text : Text} {outcome : Outcome}
    (h : evaluate text = .ok outcome) :
    ∃ chain : Chain, chain.text = text ∧ chain.eval = .ok outcome := by
  cases hread : Chain.read text with
  | error stop =>
    rw [evaluate, hread] at h
    simp only at h
    split at h <;> cases h
  | ok chain =>
    have htext := Chain.text_of_read hread
    rw [← htext, evaluate_text] at h
    refine ⟨chain, htext, ?_⟩
    cases heval : chain.eval with
    | error fault =>
      rw [heval] at h
      cases h
    | ok result =>
      rw [heval] at h
      exact congrArg _ (Except.ok.inj h)

/-- The evaluator accepts exactly the grammar of chains and computes their meaning. A printed chain
comes to the one result that the rules give its tree, which is never a syntax error. A text that is
evaluated without a fault is the print of exactly one chain, and executes one text for each of its
calls. -/
theorem evaluate_exact :
    (∀ chain : Chain,
      (∀ position detail, evaluate chain.text ≠ .error (.syntaxError position detail)) ∧
        ∃ result, Chain.Runs {} chain.calls result ∧
          (∀ other, Chain.Runs {} chain.calls other → other = result) ∧
            evaluate chain.text = result.mapError Fault.diagnosis) ∧
      ∀ text outcome, evaluate text = .ok outcome →
        ∃ chain : Chain, chain.text = text ∧
          (∀ other : Chain, other.text = text → other = chain) ∧
            Chain.Runs {} chain.calls (.ok outcome) ∧
              outcome.executed.length = chain.calls.length := by
  constructor
  · intro chain
    refine ⟨fun position detail h => ?_, chain.eval, Chain.runs_evalCalls {} chain.calls,
      fun other h => (Chain.evalCalls_of_runs h).symm, evaluate_text chain⟩
    rw [evaluate_text] at h
    cases heval : chain.eval with
    | error fault =>
      rw [heval] at h
      exact fault.diagnosis_ne_syntaxError position detail (Except.error.inj h)
    | ok outcome =>
      rw [heval] at h
      cases h
  · intro text outcome h
    obtain ⟨chain, htext, heval⟩ := exists_text_of_evaluate h
    have hruns : Chain.Runs {} chain.calls (.ok outcome) := Chain.runs_iff.2 heval
    exact ⟨chain, htext, fun other hother => Chain.text_injective (hother.trans htext.symm),
      hruns, hruns.length_executed⟩

/-- A chain that binds a variable and reads it. -/
theorem evaluate_exact_assignment :
    ∃ chain : Chain, chain.text = "exec('c=10')==exec('%x'%c)".toList ∧
      (∀ other : Chain, other.text = "exec('c=10')==exec('%x'%c)".toList → other = chain) ∧
        chain.calls.length = 2 := by
  have h : (evaluate "exec('c=10')==exec('%x'%c)".toList).toOption =
      some ⟨[['c', '=', '1', '0'], ['a']], ⟨[(['c'], .int 10)]⟩⟩ := by
    decide +kernel
  cases heval : evaluate "exec('c=10')==exec('%x'%c)".toList with
  | error diagnosis =>
    rw [heval] at h
    cases h
  | ok outcome =>
    rw [heval] at h
    cases h
    obtain ⟨chain, htext, hunique, -, hlength⟩ := evaluate_exact.2 _ _ heval
    exact ⟨chain, htext, hunique, hlength.symm⟩

end Octoglyph
