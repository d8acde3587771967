import Octoglyph.Proofs.Recognition
import Octoglyph.Proofs.Statement
import Octoglyph.Proofs.Meaning

/-! # Chains with one more call

A chain stays a chain when `==` and another call are put behind it. The new call runs in the state
that the chain ends in, so whatever the chain has bound can be used there. It can be read there too,
with one exception: a statement may bind a name that begins with an underscore, and no operand of a
chain may begin with one.
-/

namespace Octoglyph

/-! ## One more call -/

/-- The text with one more call behind it. -/
def withCall (text argument : Text) : Text := text ++ '=' :: '=' :: callText argument

namespace Outcome

variable {o : Outcome} {e : Expr}

/-- What has been executed and bound when one more text is executed. -/
def execute (o : Outcome) (source : Text) : Outcome :=
  ⟨o.executed ++ [source], o.bindings.execute source⟩

@[simp] theorem executed_execute (o : Outcome) (source : Text) :
    (o.execute source).executed = o.executed ++ [source] := rfl

@[simp] theorem bindings_execute (o : Outcome) (source : Text) :
    (o.execute source).bindings = o.bindings.execute source := rfl

@[simp] theorem payload?_execute (o : Outcome) (source : Text) :
    (o.execute source).payload? = some source := by
  simp [payload?]

/-- Runs one more call. -/
def call (o : Outcome) (e : Expr) : Except Fault Outcome :=
  Chain.evalCalls o.bindings o.executed.reverse [e]

theorem call_of_str {source : Text} (h : e.eval o.bindings = .ok (.str source)) :
    o.call e = .ok (o.execute source) := by
  rw [call, Chain.evalCalls_cons_of_str h, Chain.evalCalls]
  simp [execute]

theorem call_of_error {fault : Fault} (h : e.eval o.bindings = .error fault) :
    o.call e = .error fault :=
  Chain.evalCalls_cons_of_error h _ _

end Outcome

namespace Chain

/-- The chain with one more call at its end. -/
def concat (chain : Chain) (e : Expr) : Chain := ⟨chain.calls ++ [e], by simp⟩

theorem text_concat (chain : Chain) (e : Expr) :
    (chain.concat e).text = withCall chain.text e.text := by
  have harguments : (chain.concat e).arguments = chain.arguments ++ [e.text] := by
    simp [arguments, concat]
  have hnonempty : chain.arguments ≠ [] := fun h => chain.nonempty (List.map_eq_nil_iff.1 h)
  rw [text, harguments, joinCalls_append_singleton hnonempty, withCall, text]

/-- What is left of a list of calls runs where the first part ended. -/
theorem evalCalls_append (b : Bindings) (before : List Text) (calls rest : List Expr) :
    evalCalls b before (calls ++ rest) =
      (evalCalls b before calls).bind fun o =>
        evalCalls o.bindings o.executed.reverse rest := by
  induction calls generalizing b before with
  | nil => simp [evalCalls, Except.bind]
  | cons e calls ih =>
    rw [List.cons_append, evalCalls, evalCalls]
    cases e.source b with
    | error fault => rfl
    | ok source => exact ih _ _

theorem eval_concat {chain : Chain} {outcome : Outcome} (h : chain.eval = .ok outcome) (e : Expr) :
    (chain.concat e).eval = outcome.call e := by
  rw [eval] at h
  rw [eval, concat, evalCalls_append, h]
  rfl

/-- What every executed text preserves holds at the end of a run. -/
theorem evalCalls_preserves {P : Bindings → Prop} (hstep : ∀ b source, P b → P (b.execute source))
    {b : Bindings} {before : List Text} {calls : List Expr} {outcome : Outcome} (hb : P b)
    (h : evalCalls b before calls = .ok outcome) : P outcome.bindings := by
  induction calls generalizing b before with
  | nil =>
    cases h
    exact hb
  | cons e calls ih =>
    rw [evalCalls] at h
    cases hsource : e.source b with
    | error fault =>
      rw [hsource] at h
      cases h
    | ok source =>
      rw [hsource] at h
      exact ih (hstep b source hb) h

end Chain

section

variable {text : Text} {outcome : Outcome} (h : evaluate text = .ok outcome) {e : Expr}

include h

theorem evaluate_withCall (e : Expr) :
    evaluate (withCall text e.text) = (outcome.call e).mapError Fault.diagnosis := by
  obtain ⟨chain, rfl, heval⟩ := exists_text_of_evaluate h
  rw [← chain.text_concat, evaluate_text, Chain.eval_concat heval]

theorem evaluate_withCall_of_str {source : Text}
    (he : e.eval outcome.bindings = .ok (.str source)) :
    evaluate (withCall text e.text) = .ok (outcome.execute source) := by
  rw [evaluate_withCall h, Outcome.call_of_str he]
  rfl

theorem evaluate_withCall_of_error {fault : Fault} (he : e.eval outcome.bindings = .error fault) :
    evaluate (withCall text e.text) = .error fault.diagnosis := by
  rw [evaluate_withCall h, Outcome.call_of_error he]
  rfl

end

/-! ## What can be bound -/

namespace Bindings

variable {b : Bindings}

/-- Every bound name can be assigned to, and holds what an assignment can give it. -/
def Assigned (b : Bindings) : Prop :=
  ∀ name v, b.get? name = some v → isTarget name = true ∧ (v.kind = .int ∨ v.kind = .str)

theorem kind_of_assigned? {literal : Text} {v : Value} (h : Assignment.assigned? literal = some v) :
    v.kind = .int ∨ v.kind = .str := by
  rcases Assignment.assigned?_eq_some_iff.1 h with ⟨-, rfl⟩ | ⟨-, -, -, -, rfl⟩ | ⟨-, -, rfl⟩
  · exact .inr rfl
  · exact .inl rfl
  · exact .inl rfl

theorem Assigned.execute (h : b.Assigned) (source : Text) : (b.execute source).Assigned := by
  unfold Bindings.execute
  split
  next target w hrecognise =>
    obtain ⟨htarget, hform⟩ := exists_of_recognise? hrecognise
    have hkind : w.kind = .int ∨ w.kind = .str := by
      rcases hform with ⟨literal, -, hw⟩ | ⟨-, -, -, -, -, -, rfl⟩
      · exact kind_of_assigned? hw
      · exact .inr rfl
    intro name v hv
    by_cases hname : target = name
    · subst hname
      rw [get?_set_self] at hv
      cases hv
      exact ⟨htarget, hkind⟩
    · rw [get?_set_of_ne b w hname] at hv
      exact h name v hv
  next => exact h

end Bindings

/-- However a chain runs, what it binds has been assigned. -/
theorem assigned_of_evaluate {text : Text} {outcome : Outcome} (h : evaluate text = .ok outcome) :
    outcome.bindings.Assigned := by
  obtain ⟨chain, -, heval⟩ := exists_text_of_evaluate h
  have hempty : ({} : Bindings).Assigned := fun name v hv => by cases hv
  exact Chain.evalCalls_preserves (fun _ source hb => hb.execute source) hempty heval

/-- A name that can be assigned to is one that operands have, unless it begins with an
underscore. -/
theorem exists_ident_of_isTarget {name : Text} (h : isTarget name = true)
    (hfirst : name.head? ≠ some '_') : ∃ i : Ident, i.text = name := by
  cases name with
  | nil => cases h
  | cons c rest =>
    obtain ⟨hc, hrest⟩ := Bool.and_eq_true_iff.1 h
    have hunderscore : (c == '_') = false := by simpa using hfirst
    rw [hunderscore, Bool.or_false] at hc
    exact ⟨⟨c, rest, hc, hrest⟩, rfl⟩

/-! ## Reading a variable -/

/-- The argument of a call that executes what a variable holds, and the text that it executes. A
string is executed as it is and a number in hexadecimal. -/
inductive ReadsBack (name : Text) : Value → (argument source : Text) → Prop where
  | str (source : Text) : ReadsBack name (.str source) name source
  | int (n : Int) : ReadsBack name (.int n) ("'%x'%".toList ++ name) (Numeral.signed 16 n)

namespace ReadsBack

/-- The template that writes a number in hexadecimal. -/
def hexTemplate : Expr := .atom (.literal ⟨['%', 'x'], by decide⟩)

variable {name argument source : Text} {v : Value}

theorem exists_of_kind (name : Text) (h : v.kind = .int ∨ v.kind = .str) :
    ∃ argument source, ReadsBack name v argument source := by
  cases v with
  | int n => exact ⟨_, _, .int n⟩
  | str source => exact ⟨_, _, .str source⟩
  | bool _ | unit => rcases h with h | h <;> cases h

theorem eval_hexTemplate (b : Bindings) : hexTemplate.eval b = .ok (.str ['%', 'x']) := rfl

theorem apply_hexTemplate (n : Int) :
    Format.apply (.str ['%', 'x']) (.int n) = .ok (.str (Numeral.signed 16 n)) := by
  have hconvert : Format.convert Conversion.hex.letter (.int n) = .ok (Numeral.signed 16 n) := rfl
  have hfill : Format.fill [] (some (.int n)) ['%', 'x'] = .ok (Numeral.signed 16 n) := by
    refine (Format.fill_conversion hconvert [] []).trans ?_
    simp [Format.fill]
  simp [Format.apply, Format.argument?, hfill, Except.map]

/-- Nothing or the template stands in front of the name, and both together come to the text. -/
theorem exists_left (h : ReadsBack name v argument source) :
    ∃ left : Option Expr, argument = leftText left ++ name ∧
      (∀ e ∈ left, ∀ b : Bindings, ∃ w, e.eval b = .ok w) ∧
      ∀ (b : Bindings) (i : Ident), i.text = name → b.get? name = some v →
        (Expr.join left (.ident i)).eval b = .ok (.str source) := by
  cases h with
  | str source =>
    refine ⟨none, rfl, nofun, ?_⟩
    rintro b i rfl hv
    rw [Expr.join, Expr.eval]
    exact Atom.eval_ident hv
  | int n =>
    refine ⟨some hexTemplate, rfl, ?_, ?_⟩
    · rintro e ⟨⟩ b
      exact ⟨_, eval_hexTemplate b⟩
    · rintro b i rfl hv
      rw [Expr.join, Expr.eval_format (eval_hexTemplate b) (Atom.eval_ident hv)]
      exact apply_hexTemplate n

end ReadsBack

/-! ## Names that cannot be read -/

namespace Reading

variable {calls : List Expr} {frames : List Frame}

theorem scan_leftText (left : Option Expr) (position : Nat) (rest : Text) :
    scan ⟨calls, frames, .operand none⟩ position (leftText left ++ rest) =
      scan ⟨calls, frames, .operand left⟩ (position + (leftText left).length) rest := by
  cases left with
  | none => rfl
  | some e =>
    have hpercent : ∀ position, step ⟨calls, frames, .operator e⟩ position '%' =
        .ok ⟨calls, frames, .operand (some e)⟩ := fun _ => rfl
    have htext : leftText (some e) ++ rest = e.onto ('%' :: rest) := by
      simp [e.onto_eq]
    rw [htext, scan_expr e calls frames (by decide), scan_of_step (hpercent _)]
    simp [Nat.add_assoc]

theorem scan_underscore (left : Option Expr) (position : Nat) (rest : Text) :
    scan ⟨calls, [], .operand left⟩ position ('_' :: rest) =
      .error ⟨position, .unexpected '_', ⟨calls, [], .operand left⟩⟩ := rfl

theorem evalRead_operand {left : Option Expr} {outcome : Outcome}
    (h : Chain.evalCalls {} [] calls.reverse = .ok outcome)
    (hleft : ∀ e ∈ left, ∃ v, e.eval outcome.bindings = .ok v) :
    evalRead ⟨calls, [], .operand left⟩ = .ok () := by
  have hclosed : closedCalls ⟨calls, [], .operand left⟩ = calls.reverse := rfl
  have hopen : openExprs ⟨calls, [], .operand left⟩ = left.toList := by
    simp [openExprs, Focus.exprs]
  rw [evalRead, hclosed, hopen, h]
  cases left with
  | none => rfl
  | some e =>
    obtain ⟨v, hv⟩ := hleft e rfl
    have hdiscard : discard (e.eval outcome.bindings) = Except.ok () := by
      rw [hv]
      rfl
    change (discard (e.eval outcome.bindings) >>= fun _ => pure ()) = _
    rw [hdiscard]
    rfl

end Reading

/-- The texts in front of the name are all read and evaluated, and it is the underscore that stops
the reader. -/
theorem evaluate_withCall_of_underscore {text : Text} {outcome : Outcome}
    (h : evaluate text = .ok outcome) {left : Option Expr}
    (hleft : ∀ e ∈ left, ∃ v, e.eval outcome.bindings = .ok v) (rest : Text) :
    evaluate (withCall text (leftText left ++ '_' :: rest)) =
      .error (.syntaxError (text.length + 7 + (leftText left).length) "unexpected '_'") := by
  obtain ⟨chain, rfl, heval⟩ := exists_text_of_evaluate h
  obtain ⟨front, last, hcalls⟩ := chain.exists_concat
  have hequals : ∀ position, Reading.step ⟨front.reverse, [], .close last⟩ position '=' =
      .ok ⟨front.reverse, [], .closeEquals last⟩ := fun _ => rfl
  have hsecond : ∀ position, Reading.step ⟨front.reverse, [], .closeEquals last⟩ position '=' =
      .ok ⟨last :: front.reverse, [], .call 0⟩ := fun _ => rfl
  have htext : withCall chain.text (leftText left ++ '_' :: rest) =
      chain.text ++ '=' :: '=' ::
        (Reading.opening ++ (leftText left ++ '_' :: (rest ++ [')']))) := by
    simp [withCall, callText, Reading.opening]
  have hread : Chain.read (withCall chain.text (leftText left ++ '_' :: rest)) =
      .error ⟨chain.text.length + 7 + (leftText left).length, .unexpected '_',
        ⟨last :: front.reverse, [], .operand left⟩⟩ := by
    rw [Chain.read, htext, Chain.scan_text hcalls, Reading.scan_of_step (hequals _),
      Reading.scan_of_step (hsecond _), Reading.scan_opening, Reading.scan_leftText,
      Reading.scan_underscore]
    rfl
  have hcalls' : (last :: front.reverse).reverse = chain.calls := by simp [hcalls]
  have hrun : Reading.evalRead ⟨last :: front.reverse, [], .operand left⟩ = .ok () := by
    refine Reading.evalRead_operand ?_ hleft
    rw [hcalls']
    exact heval
  rw [evaluate, hread]
  simp only [hrun]
  rfl

/-! ## Reading back -/

theorem evaluate_eq_ok_of_toOption {text : Text} {outcome : Outcome}
    (h : (evaluate text).toOption = some outcome) : evaluate text = .ok outcome := by
  cases heval : evaluate text with
  | error diagnosis =>
    rw [heval] at h
    cases h
  | ok other =>
    rw [heval] at h
    cases h
    rfl

/-- Behind a chain that has bound a variable, one more call that reads it executes what the variable
holds, which is a string or a number, unless the name begins with an underscore. Then the call is no
call, and the reader stops at the underscore. -/
theorem evaluate_read_back {text : Text} {outcome : Outcome} (h : evaluate text = .ok outcome)
    {name : Text} {v : Value} (hname : outcome.bindings.get? name = some v) :
    ∃ argument source, ReadsBack name v argument source ∧
      (name.head? ≠ some '_' →
        evaluate (withCall text argument) = .ok (outcome.execute source) ∧
          (outcome.execute source).payload? = some source) ∧
      (name.head? = some '_' →
        ∃ position, position + (name.length + 1) = (withCall text argument).length ∧
          evaluate (withCall text argument) =
            .error (.syntaxError position "unexpected '_'")) := by
  obtain ⟨htarget, hkind⟩ := assigned_of_evaluate h name v hname
  obtain ⟨argument, source, hreads⟩ := ReadsBack.exists_of_kind name hkind
  obtain ⟨left, rfl, hleft, heval⟩ := hreads.exists_left
  refine ⟨_, _, hreads, fun hfirst => ?_, fun hfirst => ?_⟩
  · obtain ⟨i, rfl⟩ := exists_ident_of_isTarget htarget hfirst
    have hcall := evaluate_withCall_of_str h (heval outcome.bindings i rfl hname)
    rw [Expr.text_join, Atom.text_ident] at hcall
    exact ⟨hcall, outcome.payload?_execute source⟩
  · obtain ⟨rest, rfl⟩ : ∃ rest, name = '_' :: rest := List.head?_eq_some_iff.1 hfirst
    refine ⟨_, ?_, evaluate_withCall_of_underscore h (fun e he => hleft e he _) rest⟩
    simp only [withCall, callText, List.length_append, List.length_cons, List.length_nil]
    omega

/-- A number is read back under a name that has an underscore further behind. -/
theorem evaluate_read_back_number :
    ∃ extended, evaluate "exec('a_1=0b1010')==exec('%x'%a_1)".toList = .ok extended ∧
      extended.payload? = some ['a'] := by
  have h : evaluate "exec('a_1=0b1010')".toList =
      .ok ⟨["a_1=0b1010".toList], ⟨[("a_1".toList, .int 10)]⟩⟩ :=
    evaluate_eq_ok_of_toOption (by decide +kernel)
  have hsource : Numeral.signed 16 10 = ['a'] := Numeral.text_of_lt (by decide)
  obtain ⟨argument, source, hreads, hread, -⟩ :=
    @evaluate_read_back _ _ h "a_1".toList (.int 10) rfl
  cases hreads with
  | int =>
    obtain ⟨hextended, hpayload⟩ := hread (by decide)
    exact ⟨_, hextended, hpayload.trans (congrArg some hsource)⟩

/-- A chain that binds `_` and the call that should read it. -/
theorem underscore_bound_not_read :
    ∃ outcome, evaluate "exec('_=1')".toList = .ok outcome ∧
      outcome.bindings.get? ['_'] = some (.int 1) ∧
      ReadsBack ['_'] (.int 1) "'%x'%_".toList (Numeral.signed 16 1) ∧
      evaluate "exec('_=1')==exec('%x'%_)".toList =
        .error (.syntaxError 23 "unexpected '_'") := by
  have h : evaluate "exec('_=1')".toList = .ok ⟨["_=1".toList], ⟨[(['_'], .int 1)]⟩⟩ :=
    evaluate_eq_ok_of_toOption (by decide +kernel)
  have hleft : ∀ e ∈ some ReadsBack.hexTemplate, ∃ v, e.eval ⟨[(['_'], .int 1)]⟩ = .ok v := by
    rintro e ⟨⟩
    exact ⟨_, ReadsBack.eval_hexTemplate _⟩
  exact ⟨_, h, rfl, .int 1, evaluate_withCall_of_underscore h hleft []⟩

end Octoglyph
