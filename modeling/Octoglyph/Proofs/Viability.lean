import Mathlib.Control.Monad.Basic
import Octoglyph.Proofs.Meaning

/-! # Where texts stop being chains

Whatever has been read can be completed: the open literal or name is ended, an empty literal is put
where an operand is missing, and the open brackets are closed from the inside out. So the text in
front of the place where the reader stops is the beginning of a chain. The place is also not far
from the character that makes the rest hopeless: the reader looks ahead by one opening of a call at
most.
-/

namespace Octoglyph

/-- The text can be continued to the text of a chain. -/
def Viable (text : Text) : Prop := ∃ chain : Chain, text <+: chain.text

theorem Viable.of_isPrefix {text longer : Text} (h : Viable longer) (hfront : text <+: longer) :
    Viable text := by
  obtain ⟨chain, hchain⟩ := h
  exact ⟨chain, hfront.trans hchain⟩

/-! ## Completing what has been read -/

/-- An operand for any place where one is missing. -/
def Expr.blank : Expr := .atom (.literal .empty)

/-- The expression in the bracket, and the bracket closed behind it. -/
def Frame.close (e : Expr) : Frame → Expr
  | .bracket left => .join left (.group e)
  | .comparison left side => .join left (.equal side e)

theorem Frame.text_append_isPrefix (frame : Frame) (e : Expr) :
    frame.text ++ e.text <+: (frame.close e).text := by
  refine ⟨[')'], ?_⟩
  cases frame <;> simp [Frame.text, Frame.close, Expr.text_join]

/-- The expression at the open place, ended as soon as possible. -/
def Focus.complete : Focus → Expr
  | .call _ => .blank
  | .operand left => .join left (.literal .empty)
  | .literal left body => .join left (.literal body.reverse)
  | .ident left name => .join left (.ident name.reverseRest)
  | .operator e => e
  | .equals left e => .join left (.equal e .blank)
  | .close last | .closeEquals last => last

namespace Reading

/-- The expression, and all brackets closed behind it. -/
def closeAll (frames : List Frame) (e : Expr) : Expr := frames.foldl Frame.close e

theorem framesText_append_isPrefix (frames : List Frame) (e : Expr) :
    framesText frames ++ e.text <+: (closeAll frames e).text := by
  induction frames generalizing e with
  | nil => exact List.prefix_rfl
  | cons frame frames ih =>
    rw [framesText_cons, List.append_assoc]
    exact ((List.prefix_append_right_inj _).2 (frame.text_append_isPrefix e)).trans (ih _)

theorem opening_append_isPrefix {text : Text} {e : Expr} (h : text <+: e.text)
    (frames : List Frame) :
    opening ++ framesText frames ++ text <+: callText (closeAll frames e).text := by
  have hclosed : framesText frames ++ text <+: (closeAll frames e).text :=
    ((List.prefix_append_right_inj _).2 h).trans (framesText_append_isPrefix frames e)
  have hopening : opening ++ (framesText frames ++ text) <+: opening ++ (closeAll frames e).text :=
    (List.prefix_append_right_inj _).2 hclosed
  rw [List.append_assoc]
  exact hopening.trans (List.prefix_append _ [')'])

/-- The chain that is reached from a reading when its open place is ended as soon as possible. Where
half of `==` stands behind the last call, one more call is needed. -/
def completion (r : Reading) : Chain where
  calls := match r.focus with
    | .closeEquals last => (last :: r.calls).reverse ++ [.blank]
    | focus => r.calls.reverse ++ [closeAll r.frames focus.complete]
  nonempty := by split <;> simp

variable {r : Reading}

theorem text_completion (h : ∀ last, r.focus ≠ .closeEquals last) :
    r.completion.text =
      callsText r.calls ++ callText (closeAll r.frames r.focus.complete).text := by
  obtain ⟨calls, frames, focus⟩ := r
  cases focus with
  | closeEquals last => exact absurd rfl (h last)
  | call _ | operand _ | literal _ _ | ident _ _ | operator _ | equals _ _ | close _ =>
    exact joinCalls_concat calls _

/-- The last call begins with what has been read of it. -/
theorem lastText_isPrefix (hr : r.Closed) (h : ∀ last, r.focus ≠ .closeEquals last) :
    lastText r.frames r.focus <+: callText (closeAll r.frames r.focus.complete).text := by
  obtain ⟨calls, frames, focus⟩ := r
  cases focus with
  | call seen =>
    have hopening : opening <+: callText (closeAll frames Expr.blank).text :=
      (List.prefix_append _ _).trans (List.prefix_append _ _)
    exact (List.take_prefix seen opening).trans hopening
  | operand left =>
    refine opening_append_isPrefix ?_ frames
    rw [Focus.complete, Expr.text_join]
    exact List.prefix_append _ _
  | literal left body =>
    have htext : leftText left ++ '\'' :: body.text.reverse <+:
        (Focus.literal left body).complete.text :=
      ⟨['\''], by simp [Focus.complete, Expr.text_join, Literal.reverse]⟩
    simpa [lastText] using opening_append_isPrefix htext frames
  | ident left name =>
    have htext : leftText left ++ name.first :: name.rest.reverse <+:
        (Focus.ident left name).complete.text :=
      ⟨[], by simp [Focus.complete, Expr.text_join, Ident.text, Ident.reverseRest]⟩
    simpa [lastText] using opening_append_isPrefix htext frames
  | operator e => exact opening_append_isPrefix List.prefix_rfl frames
  | equals left e =>
    have htext : leftText left ++ '(' :: (e.text ++ ['=']) <+:
        (Focus.equals left e).complete.text :=
      ⟨'=' :: (Expr.blank.text ++ [')']), by simp [Focus.complete, Expr.text_join]⟩
    simpa [lastText] using opening_append_isPrefix htext frames
  | close last =>
    obtain rfl : frames = [] := hr
    exact List.prefix_rfl
  | closeEquals last => exact absurd rfl (h last)

/-- What has been read is the beginning of a chain. -/
theorem consumed_isPrefix_completion (hr : r.Closed) : r.consumed <+: r.completion.text := by
  by_cases h : ∀ last, r.focus ≠ .closeEquals last
  · rw [text_completion h]
    exact (List.prefix_append_right_inj _).2 (lastText_isPrefix hr h)
  · -- half of `==` cannot be taken back, so the chain goes on with a blank call
    obtain ⟨calls, frames, focus⟩ := r
    obtain ⟨last, rfl⟩ : ∃ last, focus = .closeEquals last := by simpa using h
    refine ⟨'=' :: callText Expr.blank.text, ?_⟩
    have htext : (completion ⟨calls, frames, .closeEquals last⟩).text =
        callsText (last :: calls) ++ callText Expr.blank.text := joinCalls_concat (last :: calls) _
    rw [htext, callsText_cons]
    simp [consumed, lastText]

theorem viable_consumed (hr : r.Closed) : Viable r.consumed :=
  ⟨r.completion, consumed_isPrefix_completion hr⟩

/-! ## Where the reader stops -/

variable {position : Nat} {c : Char} {stop : Stop}

theorem position_of_stepOperator {e : Expr} (h : r.stepOperator e position c = .error stop) :
    stop.position = position := by
  unfold stepOperator at h
  repeat' split at h
  all_goals cases h
  rfl

theorem position_of_stepOperand {left : Option Expr}
    (h : r.stepOperand left position c = .error stop) : stop.position = position := by
  unfold stepOperand at h
  repeat' split at h
  all_goals cases h
  rfl

/-- The reader stops at the character that it cannot read, or at the first one of the token that the
character should continue. -/
theorem position_of_step (hr : r.Closed) (h : r.step position c = .error stop) :
    stop.position ≤ position ∧ position < stop.position + opening.length := by
  have hlength : 1 < opening.length := by decide
  obtain ⟨calls, frames, focus⟩ := r
  cases focus with
  | call seen =>
    obtain ⟨-, hseen⟩ := hr
    simp only [step] at h
    repeat' split at h
    all_goals cases h
    simp only
    omega
  | operand left =>
    rw [position_of_stepOperand h]
    omega
  | literal left body =>
    simp only [step] at h
    split at h <;> cases h
  | ident left name =>
    simp only [step] at h
    split at h
    · cases h
    · rw [position_of_stepOperator h]
      omega
  | operator e =>
    rw [position_of_stepOperator h]
    omega
  | equals left e | close last | closeEquals last =>
    simp only [step] at h
    split at h
    · cases h
    · cases h
      simp only
      omega

theorem position_of_finish (h : r.finish position = .error stop) : stop.position ≤ position := by
  unfold finish at h
  repeat' split at h
  all_goals cases h
  all_goals simp

/-- How a text is read up to a stop: from `r` the reader gets to `last` over `front`, whatever
follows it, and stops there because the text ends or because of the next character. -/
structure Halts (r : Reading) (position : Nat) (text : Text) (stop : Stop) (front : Text)
    (last : Reading) : Prop where
  closed : last.Closed
  consumed_eq : last.consumed = r.consumed ++ front
  scan_eq : ∀ rest, r.scan position (front ++ rest) = last.scan (position + front.length) rest
  stops : (text = front ∧ last.finish (position + front.length) = .error stop) ∨
    ∃ c rest, text = front ++ c :: rest ∧ last.step (position + front.length) c = .error stop

theorem exists_halts {text : Text} (hr : r.Closed) (h : r.scan position text = .error stop) :
    ∃ front last, r.Halts position text stop front last := by
  induction text generalizing r position with
  | nil => exact ⟨[], r, hr, by simp, fun rest => rfl, .inl ⟨rfl, h⟩⟩
  | cons c rest ih =>
    rw [scan] at h
    cases hstep : r.step position c with
    | error other =>
      rw [hstep] at h
      cases h
      exact ⟨[], r, hr, by simp, fun rest => rfl, .inr ⟨c, rest, rfl, hstep⟩⟩
    | ok next =>
      rw [hstep] at h
      have hnext := step_extends hr hstep
      obtain ⟨front, last, hhalts⟩ := ih hnext.closed h
      have hposition : position + (c :: front).length = position + 1 + front.length := by
        rw [List.length_cons]
        omega
      refine ⟨c :: front, last, hhalts.closed, ?_, fun rest => ?_, ?_⟩
      · rw [hhalts.consumed_eq, hnext.consumed_eq]
        simp
      · rw [List.cons_append, scan_of_step hstep, hhalts.scan_eq, hposition]
      · rw [hposition]
        rcases hhalts.stops with ⟨rfl, hfinish⟩ | ⟨d, tail, rfl, hd⟩
        · exact .inl ⟨rfl, hfinish⟩
        · exact .inr ⟨d, tail, rfl, hd⟩

end Reading

namespace Chain

variable {text : Text} {stop : Stop}

/-- No chain begins with a text whose last character stops the reader. -/
theorem not_viable_of_step {front : Text} {last : Reading} {c : Char}
    (hscan : ∀ rest, Chain.read (front ++ rest) = last.scan front.length rest)
    (hstep : last.step front.length c = .error stop) : ¬ Viable (front ++ [c]) := by
  rintro ⟨chain, rest, hrest⟩
  have hread := chain.read_text
  rw [← hrest, List.append_assoc, hscan, List.singleton_append, Reading.scan, hstep] at hread
  cases hread

/-- The place where reading stops: what stands before it is the beginning of a chain, and, if the
text is not, then it goes wrong within the length of an opening from there. -/
theorem viable_of_read_eq_error (h : Chain.read text = .error stop) :
    stop.position ≤ text.length ∧ Viable (text.take stop.position) ∧
      (Viable text ∨ ¬ Viable (text.take (stop.position + Reading.opening.length))) := by
  have hstart : Reading.start.Closed := ⟨rfl, by decide⟩
  obtain ⟨front, last, hhalts⟩ := Reading.exists_halts hstart h
  have hviable : Viable front := by
    have hconsumed : last.consumed = front := hhalts.consumed_eq
    exact hconsumed ▸ Reading.viable_consumed hhalts.closed
  rcases hhalts.stops with ⟨rfl, hfinish⟩ | ⟨c, rest, rfl, hstep⟩
  · rw [Nat.zero_add] at hfinish
    exact ⟨Reading.position_of_finish hfinish, hviable.of_isPrefix (List.take_prefix _ _),
      .inl hviable⟩
  · rw [Nat.zero_add] at hstep
    -- the character that cannot be read is among the next ones, whatever stands behind it
    obtain ⟨hle, hlt⟩ := Reading.position_of_step hhalts.closed hstep
    have hlength : (front ++ c :: rest).length = front.length + (rest.length + 1) := by simp
    refine ⟨by omega, ?_, .inr fun hlater => ?_⟩
    · rw [List.take_append_of_le_length hle]
      exact hviable.of_isPrefix (List.take_prefix _ _)
    · have hscan : ∀ rest, Chain.read (front ++ rest) = last.scan front.length rest := by
        intro rest
        rw [Chain.read, hhalts.scan_eq, Nat.zero_add]
      refine not_viable_of_step hscan hstep (hlater.of_isPrefix ?_)
      rw [List.prefix_take_iff]
      refine ⟨⟨rest, by simp⟩, ?_⟩
      rw [List.length_append, List.length_singleton]
      omega

end Chain

theorem exists_stop_of_evaluate {text : Text} {position : Nat} {detail : String}
    (h : evaluate text = .error (.syntaxError position detail)) :
    ∃ stop, Chain.read text = .error stop ∧ stop.position = position := by
  cases hread : Chain.read text with
  | ok chain =>
    rw [evaluate, hread] at h
    cases heval : chain.eval with
    | error fault =>
      simp only [heval] at h
      exact absurd (Except.error.inj h) (fault.diagnosis_ne_syntaxError _ _)
    | ok outcome =>
      simp only [heval] at h
      cases h
  | error stop =>
    rw [evaluate, hread] at h
    simp only at h
    split at h
    next fault _ => exact absurd (Except.error.inj h) (fault.diagnosis_ne_syntaxError _ _)
    next =>
      cases h
      exact ⟨stop, rfl, rfl⟩

/-- A syntax error is reported at a place in the text or at its end, and everything before that
place is the beginning of a chain. Nor is the place arbitrarily early: a text that no chain begins
with goes wrong within the next characters, as many as open a call. -/
theorem syntaxError_behind_viable {text : Text} {position : Nat} {detail : String}
    (h : evaluate text = .error (.syntaxError position detail)) :
    position ≤ text.length ∧ Viable (text.take position) ∧
      (Viable text ∨ ¬ Viable (text.take (position + Reading.opening.length))) := by
  obtain ⟨stop, hread, rfl⟩ := exists_stop_of_evaluate h
  exact Chain.viable_of_read_eq_error hread

/-- A literal without an end is reported where it begins, and a lone `=` behind a call where that
stands. -/
theorem syntaxError_behind_viable_literal :
    (evaluate "exec('%c'%'a)".toList = .error (.syntaxError 10 "unterminated string literal") ∧
      Viable "exec('%c'%".toList) ∧
    evaluate "exec('')=exec('')".toList =
      .error (.syntaxError 8 "trailing text after last statement") ∧ Viable "exec('')".toList := by
  have hliteral : evaluate "exec('%c'%'a)".toList =
      .error (.syntaxError 10 "unterminated string literal") := by
    decide +kernel
  have htrailing : evaluate "exec('')=exec('')".toList =
      .error (.syntaxError 8 "trailing text after last statement") := by
    decide +kernel
  obtain ⟨-, hopen, -⟩ := syntaxError_behind_viable hliteral
  obtain ⟨-, hclosed, -⟩ := syntaxError_behind_viable htrailing
  exact ⟨⟨hliteral, hopen⟩, htrailing, hclosed⟩

end Octoglyph
