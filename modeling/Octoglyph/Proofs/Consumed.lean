import Mathlib.Data.Nat.Init
import Octoglyph.Proofs.Printed

/-! # What has been read

A reading determines the text that led to it. Each step adds its character to that text, so a chain
that is read is a chain that has been printed, and no text has two of them.
-/

namespace Octoglyph

/-! ## The text behind a reading -/

/-- What joins an operand to the expression before it. -/
def leftText : Option Expr → Text
  | none => []
  | some e => e.text ++ ['%']

@[simp] theorem leftText_none : leftText none = [] := rfl

@[simp] theorem leftText_some (e : Expr) : leftText (some e) = e.text ++ ['%'] := rfl

theorem Expr.text_join (left : Option Expr) (a : Atom) :
    (Expr.join left a).text = leftText left ++ a.text := by
  cases left <;> simp [Expr.join]

/-- A bracket up to the open place. -/
def Frame.text : Frame → Text
  | .bracket left => leftText left ++ ['(']
  | .comparison left side => leftText left ++ '(' :: (side.text ++ ['=', '='])

namespace Reading

def framesText (frames : List Frame) : Text := frames.reverse.flatMap Frame.text

@[simp] theorem framesText_nil : framesText [] = [] := rfl

@[simp] theorem framesText_cons (frame : Frame) (frames : List Frame) :
    framesText (frame :: frames) = framesText frames ++ frame.text := by
  simp [framesText]

/-- The calls with what joins each to the next. -/
def callsText (calls : List Expr) : Text :=
  calls.reverse.flatMap fun e => callText e.text ++ ['=', '=']

@[simp] theorem callsText_cons (e : Expr) (calls : List Expr) :
    callsText (e :: calls) = callsText calls ++ (callText e.text ++ ['=', '=']) := by
  simp [callsText]

/-- The call that is not joined to another one yet. -/
def lastText (frames : List Frame) : Focus → Text
  | .call seen => opening.take seen
  | .operand left => opening ++ framesText frames ++ leftText left
  | .literal left body =>
    opening ++ framesText frames ++ leftText left ++ '\'' :: body.text.reverse
  | .ident left name =>
    opening ++ framesText frames ++ leftText left ++ name.first :: name.rest.reverse
  | .operator e => opening ++ framesText frames ++ e.text
  | .equals left e =>
    opening ++ framesText frames ++ leftText left ++ '(' :: (e.text ++ ['='])
  | .close last => callText last.text
  | .closeEquals last => callText last.text ++ ['=']

/-- The text that has been read. -/
def consumed (r : Reading) : Text := callsText r.calls ++ lastText r.frames r.focus

/-- Outside of calls no bracket is open. -/
def Closed (r : Reading) : Prop :=
  match r.focus with
  | .call seen => r.frames = [] ∧ seen < opening.length
  | .close _ | .closeEquals _ => r.frames = []
  | _ => True

/-! ## One step -/

variable {r r' : Reading} {position : Nat} {c : Char}

/-- A step that keeps brackets balanced and adds one character. -/
structure Extends (text : Text) (c : Char) (r : Reading) : Prop where
  closed : r.Closed
  consumed_eq : r.consumed = text ++ [c]

theorem stepOperator_extends {e : Expr} (h : r.stepOperator e position c = .ok r') :
    Extends (callsText r.calls ++ (opening ++ framesText r.frames ++ e.text)) c r' := by
  obtain ⟨calls, frames, focus⟩ := r
  simp only [stepOperator] at h
  split at h
  next hc =>
    subst hc
    cases h
    exact ⟨trivial, by simp [consumed, lastText]⟩
  · split at h
    next hc =>
      subst hc
      cases frames with
      | nil =>
        cases h
        exact ⟨rfl, by simp [consumed, lastText, callText, opening]⟩
      | cons frame frames =>
        cases frame <;> cases h <;>
          exact ⟨trivial, by simp [consumed, lastText, Frame.text, Expr.text_join]⟩
    · split at h
      · cases h
        exact ⟨trivial, by simp [consumed, lastText, Frame.text]⟩
      · cases h

theorem stepOperand_extends {left : Option Expr} (h : r.stepOperand left position c = .ok r') :
    Extends (callsText r.calls ++ (opening ++ framesText r.frames ++ leftText left)) c r' := by
  obtain ⟨calls, frames, focus⟩ := r
  simp only [stepOperand] at h
  split at h
  next hc =>
    subst hc
    cases h
    exact ⟨trivial, by simp [consumed, lastText, Literal.empty]⟩
  · split at h
    next hc =>
      subst hc
      cases h
      exact ⟨trivial, by simp [consumed, lastText, Frame.text]⟩
    · split at h
      · cases h
        exact ⟨trivial, by simp [consumed, lastText]⟩
      · split at h
        · cases h
          exact ⟨trivial, by simp [consumed, lastText, Frame.text, Expr.text_join]⟩
        · cases h

/-- A step adds its character to what has been read. -/
theorem step_extends (hr : r.Closed) (h : r.step position c = .ok r') :
    Extends r.consumed c r' := by
  obtain ⟨calls, frames, focus⟩ := r
  cases focus with
  | call seen =>
    obtain ⟨hframes, hseen⟩ := hr
    simp only at hframes
    subst hframes
    simp only [step] at h
    split at h
    next hc =>
      have htake : opening.take (seen + 1) = opening.take seen ++ [c] := by
        rw [List.take_add_one, hc]
        rfl
      -- with its last character the opening is complete, and an operand is to come
      split at h
      next hlast =>
        cases h
        rw [hlast, List.take_length] at htake
        refine ⟨trivial, ?_⟩
        simp only [consumed, lastText, framesText_nil, leftText_none, List.append_nil,
          List.append_assoc]
        rw [← htake]
      next hnot =>
        cases h
        exact ⟨⟨rfl, by omega⟩, by simp [consumed, lastText, htake]⟩
    · cases h
  | operand left => exact stepOperand_extends h
  | literal left body =>
    simp only [step] at h
    split at h
    next hc =>
      subst hc
      cases h
      exact ⟨trivial, by simp [consumed, lastText, Expr.text_join, Literal.reverse]⟩
    · cases h
      exact ⟨trivial, by simp [consumed, lastText, Literal.cons]⟩
  | ident left name =>
    simp only [step] at h
    split at h
    · cases h
      exact ⟨trivial, by simp [consumed, lastText, Ident.insertSecond]⟩
    · have hext := stepOperator_extends h
      refine ⟨hext.closed, hext.consumed_eq.trans ?_⟩
      simp [consumed, lastText, Expr.text_join, Ident.text, Ident.reverseRest]
  | operator e => exact stepOperator_extends h
  | equals left e =>
    simp only [step] at h
    split at h
    next hc =>
      subst hc
      cases h
      exact ⟨trivial, by simp [consumed, lastText, Frame.text]⟩
    · cases h
  | close last =>
    simp only [step] at h
    split at h
    next hc =>
      subst hc
      cases h
      exact ⟨hr, by simp [consumed, lastText]⟩
    · cases h
  | closeEquals last =>
    simp only [step] at h
    split at h
    next hc =>
      subst hc
      cases h
      exact ⟨⟨hr, by decide⟩, by simp [consumed, lastText]⟩
    · cases h

/-! ## Whole texts -/

theorem joinCalls_concat (calls : List Expr) (last : Expr) :
    joinCalls ((calls.reverse ++ [last]).map Expr.text) =
      callsText calls ++ callText last.text := by
  induction calls generalizing last with
  | nil => simp [joinCalls_singleton, callsText]
  | cons e calls ih =>
    rw [List.map_append, List.map_singleton, joinCalls_append_singleton (by simp),
      List.reverse_cons, ih]
    simp

theorem text_of_finish {chain : Chain} (h : r.finish position = .ok chain) :
    chain.text = r.consumed := by
  obtain ⟨calls, frames, focus⟩ := r
  cases focus with
  | close last =>
    cases h
    rw [Chain.text, Chain.arguments]
    simp only [List.reverse_cons]
    exact joinCalls_concat calls last
  | call seen =>
    simp only [finish] at h
    split at h <;> cases h
  | operand _ | literal _ _ | ident _ _ | operator _ | equals _ _ | closeEquals _ => cases h

theorem text_of_scan {chain : Chain} {text : Text} (hr : r.Closed)
    (h : r.scan position text = .ok chain) : chain.text = r.consumed ++ text := by
  induction text generalizing r position with
  | nil =>
    rw [scan] at h
    rw [text_of_finish h, List.append_nil]
  | cons c rest ih =>
    rw [scan] at h
    cases hstep : r.step position c with
    | error stop =>
      rw [hstep] at h
      cases h
    | ok r' =>
      rw [hstep] at h
      have hext := step_extends hr hstep
      rw [ih hext.closed h, hext.consumed_eq]
      simp

end Reading

namespace Chain

variable {text : Text} {chain : Chain}

theorem text_of_read (h : Chain.read text = .ok chain) : chain.text = text := by
  have hstart : Reading.start.Closed := ⟨rfl, by decide⟩
  exact Reading.text_of_scan hstart h

/-- Reading is the inverse of printing. -/
theorem read_eq_ok_iff : Chain.read text = .ok chain ↔ chain.text = text :=
  ⟨text_of_read, fun h => h ▸ chain.read_text⟩

theorem text_injective {other : Chain} (h : chain.text = other.text) : chain = other := by
  have hread : Chain.read other.text = .ok chain := read_eq_ok_iff.2 h
  exact Except.ok.inj (hread.symm.trans other.read_text)

end Chain

end Octoglyph
