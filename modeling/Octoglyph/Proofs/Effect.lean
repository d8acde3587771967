import Octoglyph.Proofs.Extension
import Octoglyph.Proofs.Length
import Octoglyph.Proofs.Trace

/-! # What a single statement does

The statements of an encoded program rely on variables and on nothing else. So each of them can be
judged by itself, in any state: a spelling executes its text or reports the first variable that it
misses, and the assignment of a number binds the variable of the number and leaves all others.
-/

namespace Octoglyph

open Statement

/-- The reader takes the argument of a call for this expression. -/
def ReadsAs (argument : Text) (e : Expr) : Prop :=
  ∃ chain, Chain.read (callText argument) = .ok chain ∧ chain.calls = [e]

theorem readsAs_text (e : Expr) : ReadsAs e.text e := by
  let chain : Chain := ⟨[e], List.cons_ne_nil _ _⟩
  have htext : chain.text = callText e.text := joinCalls_singleton e.text
  exact ⟨chain, htext ▸ chain.read_text, rfl⟩

/-! ## Spellings -/

namespace Bindings

variable {b : Bindings} {s : Text}

/-- Each variable that spelling the text reads is unbound or holds its code. -/
def Suits (b : Bindings) (s : Text) : Prop :=
  ∀ c ∈ s, c ≠ '%' → b.get? (DigitName.ofNumber c.val) = none ∨ b.Holds c.val

/-- The first character of the text whose variable is missed, if one is; percents need none. -/
def missing? (b : Bindings) (s : Text) : Option Char :=
  s.find? fun c => c != '%' && (b.get? (DigitName.ofNumber c.val)).isNone

namespace Suits

theorem holds (h : b.Suits s) {c : Char} (hc : c ∈ s) (hne : c ≠ '%')
    (hbound : b.get? (DigitName.ofNumber c.val) ≠ none) : b.Holds c.val :=
  (h c hc hne).resolve_left hbound

theorem eval_spelling (h : b.Suits s) (hs : b.missing? s = none) :
    (spelling s).eval b = .ok (.str s) := by
  refine Statement.eval_spelling fun c hc hne => h.holds hc hne ?_
  simpa [hne] using List.find?_eq_none.1 hs c hc

theorem eval_spelling_of_missing (h : b.Suits s) {c : Char} (hs : b.missing? s = some c) :
    (spelling s).eval b = .error (.unbound (DigitName.ofNumber c.val)) := by
  obtain ⟨hc, front, rest, rfl, hfront⟩ := List.find?_eq_some_iff_append.1 hs
  obtain ⟨hne, hunbound⟩ := Bool.and_eq_true_iff.1 hc
  -- all that stands in front of the character can be spelled
  refine eval_spelling_of_unbound ?_ (by simpa using hne)
    (Option.isNone_iff_eq_none.1 hunbound) rest
  intro d hd hdne
  have hbound : (b.get? (DigitName.ofNumber d.val)).isSome := by simpa [hdne] using hfront d hd
  exact h.holds (List.mem_append_left _ hd) hdne (Option.isSome_iff_ne_none.1 hbound)

end Suits

end Bindings

/-- The spelling of a text, read as the argument of a call. In every state in which the variables of
its characters are unbound or hold their codes, it comes to the text, which is executed with the
variables as they are, or else reports the variable of the first character that has none. The same
is seen of every text to which the call is added. -/
theorem spelling_rebuilds_or_misses (s : Text) :
    ∃ e, ReadsAs (spelling s).text e ∧
      (∀ o : Outcome, o.bindings.Suits s →
        (o.bindings.missing? s = none →
          e.eval o.bindings = .ok (.str s) ∧ o.call e = .ok (o.execute s)) ∧
        ∀ c, o.bindings.missing? s = some c →
          e.eval o.bindings = .error (.unbound (DigitName.ofNumber c.val)) ∧
            o.call e = .error (.unbound (DigitName.ofNumber c.val))) ∧
      ∀ text outcome, evaluate text = .ok outcome → outcome.bindings.Suits s →
        (outcome.bindings.missing? s = none →
          evaluate (withCall text (spelling s).text) = .ok (outcome.execute s)) ∧
        ∀ c, outcome.bindings.missing? s = some c →
          evaluate (withCall text (spelling s).text) =
            .error (.nameError (String.ofList (DigitName.ofNumber c.val))) := by
  refine ⟨spelling s, readsAs_text _, fun o ho => ⟨fun hs => ?_, fun c hs => ?_⟩,
    fun text outcome h ho => ⟨fun hs => ?_, fun c hs => ?_⟩⟩
  · have heval := ho.eval_spelling hs
    exact ⟨heval, Outcome.call_of_str heval⟩
  · have heval := ho.eval_spelling_of_missing hs
    exact ⟨heval, Outcome.call_of_error heval⟩
  · exact evaluate_withCall_of_str h (ho.eval_spelling hs)
  · exact evaluate_withCall_of_error h (ho.eval_spelling_of_missing hs)

/-- With the variable of the quote bound and no other, a percent and a quote can be spelled, and a
letter behind them is missed. -/
theorem spelling_rebuilds_or_misses_quote :
    evaluate (withCall "exec('ecceee=39')".toList (spelling ['%', '\'']).text) =
        .ok ⟨["ecceee=39".toList, ['%', '\'']], ⟨[("ecceee".toList, .int 39)]⟩⟩ ∧
      evaluate (withCall "exec('ecceee=39')".toList (spelling ['%', '\'', 'a', 'b']).text) =
        .error (.nameError "eecccce") := by
  have h : evaluate "exec('ecceee=39')".toList =
      .ok ⟨["ecceee=39".toList], ⟨[("ecceee".toList, .int 39)]⟩⟩ :=
    evaluate_eq_ok_of_toOption (by decide +kernel)
  have hquote : DigitName.ofNumber '\''.val = "ecceee".toList := by decide +kernel
  have hletter : DigitName.ofNumber 'a'.val = "eecccce".toList := by decide +kernel
  have hsecond : DigitName.ofNumber 'b'.val = "eecccec".toList := by decide +kernel
  have hsuits : (⟨[("ecceee".toList, .int 39)]⟩ : Bindings).Suits ['%', '\'', 'a', 'b'] := by
    intro c hc hne
    obtain rfl | rfl | rfl | rfl : c = '%' ∨ c = '\'' ∨ c = 'a' ∨ c = 'b' := by simpa using hc
    · exact absurd rfl hne
    · exact .inr (by rw [Bindings.Holds, hquote]; rfl)
    · exact .inl (by rw [hletter]; rfl)
    · exact .inl (by rw [hsecond]; rfl)
  have hnone : (⟨[("ecceee".toList, .int 39)]⟩ : Bindings).missing? ['%', '\''] = none := by
    decide +kernel
  have hmissing : (⟨[("ecceee".toList, .int 39)]⟩ : Bindings).missing? ['%', '\'', 'a', 'b'] =
      some 'a' := by decide +kernel
  obtain ⟨-, -, -, hspelled⟩ := spelling_rebuilds_or_misses ['%', '\'']
  obtain ⟨-, -, -, hmissed⟩ := spelling_rebuilds_or_misses ['%', '\'', 'a', 'b']
  refine ⟨(hspelled _ _ h fun c hc => hsuits c (List.mem_append_left _ hc)).1 hnone, ?_⟩
  rw [(hmissed _ _ h hsuits).2 'a' hmissing, hletter]
  rfl

/-! ## Assignments -/

namespace Expr

/-- The operands to which `%` applies the expression, in order. -/
def operands : Expr → List Atom
  | .atom _ => []
  | .format left right => left.operands ++ [right]

theorem operands_applied (e : Expr) (args : List Atom) :
    (e.applied args).operands = e.operands ++ args := by
  induction args generalizing e with
  | nil => simp [applied]
  | cons a args ih =>
    have hfirst : e.applied (a :: args) = (Expr.format e a).applied args := rfl
    rw [hfirst, ih, operands, List.append_assoc]
    rfl

end Expr

/-- From the first state to the second, the number has been assigned and nothing else has
changed. -/
structure Outcome.Assigns (n : UInt32) (o o' : Outcome) : Prop where
  executed_eq : o'.executed =
    o.executed ++ [DigitName.ofNumber n ++ "=0b".toList ++ Nat.toDigits 2 n.toNat]
  bound : o'.bindings.get? (DigitName.ofNumber n) = some (.int n.toNat)
  others : ∀ name, name ≠ DigitName.ofNumber n → o'.bindings.get? name = o.bindings.get? name
  kept : ∀ name ∈ [['x'], ['x', 'x']], o'.bindings.get? name = o.bindings.get? name

namespace Statement

theorem length_operands_assignment (n : UInt32) :
    (assignment n).operands.length = assignmentSlots n := by
  rw [assignment, assignmentOf, Expr.operands_applied, Expr.operands, List.nil_append,
    assignmentArgs, List.length_cons, List.length_cons, List.length_map, length_digits]
  unfold assignmentSlots nameLength
  omega

theorem assigns_execute (n : UInt32) (o : Outcome) :
    Outcome.Assigns n o (o.execute (assignmentSource n)) := by
  have hothers : ∀ name, name ≠ DigitName.ofNumber n →
      (o.execute (assignmentSource n)).bindings.get? name = o.bindings.get? name := by
    intro name hname
    rw [Outcome.bindings_execute, Bindings.execute_assignmentSource]
    exact o.bindings.get?_set_of_ne _ hname.symm
  refine ⟨?_, ?_, hothers, ?_⟩
  · rw [Outcome.executed_execute, assignmentSource, Numeral.binary,
      Numeral.text_eq_toDigits (Nat.le_refl 2)]
  · rw [Outcome.bindings_execute, Bindings.execute_assignmentSource, Bindings.get?_set_self]
  · intro name hname
    apply hothers
    rcases List.mem_pair.1 hname with rfl | rfl
    · exact DigitName.ofNumber_ne_bootstrapName.symm
    · exact DigitName.ofNumber_ne_accumulatorName.symm

end Statement

/-- The assignment of a number, read as the argument of a call, has as many operands as it is said
to take. In every state in which `x` holds eleven, it executes the name of the number, `=0b` and its
binary digits, binds this name to the number, and leaves every other variable as it is. The same is
seen of every text to which the call is added. -/
theorem assignment_binds_only_its_number (n : UInt32) :
    ∃ e, ReadsAs (assignment n).text e ∧ e.operands.length = assignmentSlots n ∧
      (∀ o : Outcome, o.bindings.get? ['x'] = some (.int 11) →
        ∃ o', o.call e = .ok o' ∧ o.Assigns n o') ∧
      ∀ text outcome, evaluate text = .ok outcome →
        outcome.bindings.get? ['x'] = some (.int 11) →
          ∃ outcome', evaluate (withCall text (assignment n).text) = .ok outcome' ∧
            outcome.Assigns n outcome' := by
  refine ⟨assignment n, readsAs_text _, length_operands_assignment n, fun o hx => ?_,
    fun text outcome h hx => ?_⟩
  · exact ⟨_, Outcome.call_of_str (eval_assignment hx n), assigns_execute n o⟩
  · exact ⟨_, evaluate_withCall_of_str h (eval_assignment hx n), assigns_execute n outcome⟩

/-- Zero is assigned behind the first statement. -/
theorem assignment_binds_only_its_number_zero :
    ∃ outcome, evaluate (withCall "exec('x=11')".toList (assignment 0).text) = .ok outcome ∧
      outcome.executed = ["x=11".toList, "c=0b0".toList] ∧
        outcome.bindings.get? ['c'] = some (.int 0) ∧
          outcome.bindings.get? ['x'] = some (.int 11) := by
  have h : evaluate "exec('x=11')".toList = .ok ⟨["x=11".toList], ⟨[(['x'], .int 11)]⟩⟩ :=
    evaluate_eq_ok_of_toOption (by decide +kernel)
  have hname : DigitName.ofNumber 0 = ['c'] := by decide +kernel
  obtain ⟨-, -, -, -, hassigns⟩ := assignment_binds_only_its_number 0
  obtain ⟨outcome, heval, hassigns⟩ := hassigns _ _ h rfl
  have hbound := hassigns.bound
  have hexecuted := hassigns.executed_eq
  rw [hname] at hbound hexecuted
  exact ⟨outcome, heval, hexecuted, hbound, hassigns.kept ['x'] (by decide)⟩

end Octoglyph
