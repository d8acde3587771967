import Octoglyph.Chain.Reader

/-! # Printed chains are read back

The text of a tree, read where an operand is to come, leads behind the tree. What follows must not
continue a name, and inside a chain nothing that can follow does. Reading the text of a chain
therefore gives the chain.
-/

namespace Octoglyph

@[ext] theorem Literal.ext {l m : Literal} (h : l.text = m.text) : l = m := by
  cases l
  cases m
  cases h
  rfl

@[ext] theorem Ident.ext {i j : Ident} (hfirst : i.first = j.first) (hrest : i.rest = j.rest) :
    i = j := by
  cases i
  cases j
  cases hfirst
  cases hrest
  rfl

@[ext] theorem Chain.ext {c d : Chain} (h : c.calls = d.calls) : c = d := by
  cases c
  cases d
  cases h
  rfl

/-! ## Texts of trees -/

mutual

theorem Atom.onto_eq_append (a : Atom) (rest : Text) : a.onto rest = a.onto [] ++ rest := by
  cases a with
  | literal body => simp [Atom.onto]
  | unit => rfl
  | ident name => simp [Atom.onto]
  | group inner =>
    rw [Atom.onto, Atom.onto, inner.onto_eq_append, inner.onto_eq_append [')']]
    simp
  | equal left right =>
    rw [Atom.onto, Atom.onto, left.onto_eq_append, right.onto_eq_append,
      left.onto_eq_append ('=' :: '=' :: _), right.onto_eq_append [')']]
    simp

theorem Expr.onto_eq_append (e : Expr) (rest : Text) : e.onto rest = e.onto [] ++ rest := by
  cases e with
  | atom a => exact a.onto_eq_append rest
  | format left right =>
    rw [Expr.onto, Expr.onto, left.onto_eq_append, right.onto_eq_append,
      left.onto_eq_append ('%' :: right.onto [])]
    simp

end

theorem Atom.onto_eq (a : Atom) (rest : Text) : a.onto rest = a.text ++ rest :=
  a.onto_eq_append rest

theorem Expr.onto_eq (e : Expr) (rest : Text) : e.onto rest = e.text ++ rest :=
  e.onto_eq_append rest

namespace Atom

@[simp] theorem text_literal (body : Literal) :
    (Atom.literal body).text = '\'' :: (body.text ++ ['\'']) := rfl

@[simp] theorem text_unit : Atom.unit.text = ['(', ')'] := rfl

@[simp] theorem text_ident (name : Ident) : (Atom.ident name).text = name.text := by
  simp [text, onto]

@[simp] theorem text_group (inner : Expr) :
    (Atom.group inner).text = '(' :: (inner.text ++ [')']) := by
  rw [text, onto, inner.onto_eq]

@[simp] theorem text_equal (left right : Expr) :
    (Atom.equal left right).text =
      '(' :: (left.text ++ '=' :: '=' :: (right.text ++ [')'])) := by
  rw [text, onto, left.onto_eq, right.onto_eq]

end Atom

namespace Expr

@[simp] theorem text_atom (a : Atom) : (Expr.atom a).text = a.text := rfl

@[simp] theorem text_format (left : Expr) (right : Atom) :
    (Expr.format left right).text = left.text ++ '%' :: right.text := by
  rw [text, onto, left.onto_eq]
  rfl

end Expr

theorem joinCalls_singleton (argument : Text) : joinCalls [argument] = callText argument := by
  simp [joinCalls]

theorem joinCalls_cons_cons (argument next : Text) (rest : List Text) :
    joinCalls (argument :: next :: rest) =
      callText argument ++ '=' :: '=' :: joinCalls (next :: rest) := by
  simp [joinCalls, List.intercalate_cons_cons]

theorem joinCalls_cons (argument : Text) {rest : List Text} (h : rest ≠ []) :
    joinCalls (argument :: rest) = callText argument ++ '=' :: '=' :: joinCalls rest := by
  obtain ⟨next, rest, rfl⟩ := List.exists_cons_of_ne_nil h
  exact joinCalls_cons_cons argument next rest

theorem joinCalls_append_singleton {arguments : List Text} (h : arguments ≠ []) (argument : Text) :
    joinCalls (arguments ++ [argument]) =
      joinCalls arguments ++ '=' :: '=' :: callText argument := by
  induction arguments with
  | nil => exact absurd rfl h
  | cons first rest ih =>
    rw [List.cons_append, joinCalls_cons _ (by simp)]
    cases rest with
    | nil => simp [joinCalls_singleton]
    | cons next rest =>
      rw [ih (List.cons_ne_nil _ _), joinCalls_cons_cons]
      simp

/-! ## Reading a printed tree -/

namespace Reading

variable {calls : List Expr} {frames : List Frame} {left : Option Expr}

theorem scan_of_step {r r' : Reading} {position : Nat} {c : Char}
    (h : r.step position c = .ok r') (rest : Text) :
    r.scan position (c :: rest) = r'.scan (position + 1) rest := by
  rw [scan, h]

/-- The rest of a literal, up to its quote. -/
theorem scan_literal {text : Text} (htext : '\'' ∉ text) {body l : Literal}
    (hl : l.text = body.text.reverse ++ text) (position : Nat) (rest : Text) :
    scan ⟨calls, frames, .literal left body⟩ position (text ++ '\'' :: rest) =
      scan ⟨calls, frames, .operator (.join left (.literal l))⟩
        (position + (text.length + 1)) rest := by
  induction text generalizing body position with
  | nil =>
    have hbody : body.reverse = l := Literal.ext (by simpa [Literal.reverse] using hl.symm)
    have hstep : step ⟨calls, frames, .literal left body⟩ position '\'' =
        .ok ⟨calls, frames, .operator (.join left (.literal l))⟩ := by
      simp [step, hbody]
    exact scan_of_step hstep rest
  | cons c text ih =>
    have hc : c ≠ '\'' := fun e => htext (e ▸ List.mem_cons_self)
    have hstep : step ⟨calls, frames, .literal left body⟩ position c =
        .ok ⟨calls, frames, .literal left (body.cons c hc)⟩ := by
      simp [step, hc]
    rw [List.cons_append, scan_of_step hstep,
      ih (fun hm => htext (List.mem_cons_of_mem _ hm)) (by simpa [Literal.cons] using hl)]
    rw [List.length_cons, Nat.add_assoc, Nat.add_comm 1]

/-- Behind a name it does not matter whether the name is known to be complete. -/
theorem scan_ident_end {name : Ident} {c : Char} (hc : isWordChar c = false) (position : Nat)
    (rest : Text) :
    scan ⟨calls, frames, .ident left name⟩ position (c :: rest) =
      scan ⟨calls, frames, .operator (.join left (.ident name.reverseRest))⟩
        position (c :: rest) := by
  have hstep : step ⟨calls, frames, .ident left name⟩ position c =
      step ⟨calls, frames, .operator (.join left (.ident name.reverseRest))⟩ position c := by
    simp [step, hc, stepOperator]
  rw [scan, scan, hstep]

/-- The rest of a name, up to a character that does not continue it. -/
theorem scan_ident {text : Text} (htext : text.all isWordChar = true) {i j : Ident}
    (hfirst : i.first = j.first) (hrest : i.rest = j.rest.reverse ++ text) {c : Char}
    (hc : isWordChar c = false) (position : Nat) (rest : Text) :
    scan ⟨calls, frames, .ident left j⟩ position (text ++ c :: rest) =
      scan ⟨calls, frames, .operator (.join left (.ident i))⟩
        (position + text.length) (c :: rest) := by
  induction text generalizing j position with
  | nil =>
    have hj : j.reverseRest = i :=
      Ident.ext hfirst.symm (by simpa [Ident.reverseRest] using hrest.symm)
    rw [List.nil_append, scan_ident_end hc, hj]
    rfl
  | cons d text ih =>
    have hd : isWordChar d = true ∧ text.all isWordChar = true := by simpa using htext
    have hstep : step ⟨calls, frames, .ident left j⟩ position d =
        .ok ⟨calls, frames, .ident left (j.insertSecond d hd.1)⟩ := by
      simp [step, hd.1]
    rw [List.cons_append, scan_of_step hstep,
      ih hd.2 (by simpa [Ident.insertSecond] using hfirst)
        (by simpa [Ident.insertSecond] using hrest)]
    rw [List.length_cons, Nat.add_assoc, Nat.add_comm 1]

theorem step_operand_of_isAlpha {c : Char} (h : c.isAlpha = true) (position : Nat) :
    step ⟨calls, frames, .operand left⟩ position c =
      .ok ⟨calls, frames, .ident left ⟨c, [], h, rfl⟩⟩ := by
  have hquote : c ≠ '\'' := fun e => absurd (e ▸ h) (by decide)
  have hopen : c ≠ '(' := fun e => absurd (e ▸ h) (by decide)
  simp [step, stepOperand, hquote, hopen, h]

theorem step_open (position : Nat) :
    step ⟨calls, frames, .operand left⟩ position '(' =
      .ok ⟨calls, .bracket left :: frames, .operand none⟩ := rfl

mutual

/-- The text of an atom, read where an operand is to come. -/
theorem scan_atom (a : Atom) (calls : List Expr) (frames : List Frame) (left : Option Expr)
    {c : Char} (hc : isWordChar c = false) (position : Nat) (rest : Text) :
    scan ⟨calls, frames, .operand left⟩ position (a.onto (c :: rest)) =
      scan ⟨calls, frames, .operator (.join left a)⟩ (position + a.text.length) (c :: rest) := by
  cases a with
  | literal body =>
    have hopen : step ⟨calls, frames, .operand left⟩ position '\'' =
        .ok ⟨calls, frames, .literal left .empty⟩ := rfl
    rw [Atom.onto, scan_of_step hopen,
      scan_literal (l := body) body.quoteless (by simp [Literal.empty])]
    simp [Nat.add_assoc, Nat.add_comm 1]
  | unit =>
    have hclose : step ⟨calls, .bracket left :: frames, .operand none⟩ (position + 1) ')' =
        .ok ⟨calls, frames, .operator (.join left .unit)⟩ := rfl
    rw [Atom.onto, scan_of_step (step_open position), scan_of_step hclose]
    rfl
  | ident name =>
    rw [Atom.onto, Ident.text, List.cons_append,
      scan_of_step (step_operand_of_isAlpha name.first_isAlpha position),
      scan_ident (i := name) (j := ⟨_, [], name.first_isAlpha, rfl⟩) name.rest_isWord rfl rfl hc]
    simp [Ident.text, Nat.add_assoc, Nat.add_comm 1]
  | group inner =>
    have hclose : ∀ position, step ⟨calls, .bracket left :: frames, .operator inner⟩ position ')' =
        .ok ⟨calls, frames, .operator (.join left (.group inner))⟩ := fun _ => rfl
    rw [Atom.onto, scan_of_step (step_open position),
      scan_expr inner calls (.bracket left :: frames) (by decide), scan_of_step (hclose _)]
    simp [Nat.add_assoc, Nat.add_comm 1]
  | equal l r =>
    have hequals : ∀ position, step ⟨calls, .bracket left :: frames, .operator l⟩ position '=' =
        .ok ⟨calls, frames, .equals left l⟩ := fun _ => rfl
    have hsecond : ∀ position, step ⟨calls, frames, .equals left l⟩ position '=' =
        .ok ⟨calls, .comparison left l :: frames, .operand none⟩ := fun _ => rfl
    have hclose : ∀ position,
        step ⟨calls, .comparison left l :: frames, .operator r⟩ position ')' =
          .ok ⟨calls, frames, .operator (.join left (.equal l r))⟩ := fun _ => rfl
    rw [Atom.onto, scan_of_step (step_open position),
      scan_expr l calls (.bracket left :: frames) (by decide), scan_of_step (hequals _),
      scan_of_step (hsecond _), scan_expr r calls (.comparison left l :: frames) (by decide),
      scan_of_step (hclose _)]
    simp [Nat.add_assoc, Nat.add_comm, Nat.add_left_comm]

/-- The text of an expression, read where its first operand is to come. -/
theorem scan_expr (e : Expr) (calls : List Expr) (frames : List Frame) {c : Char}
    (hc : isWordChar c = false) (position : Nat) (rest : Text) :
    scan ⟨calls, frames, .operand none⟩ position (e.onto (c :: rest)) =
      scan ⟨calls, frames, .operator e⟩ (position + e.text.length) (c :: rest) := by
  cases e with
  | atom a => exact scan_atom a calls frames none hc position rest
  | format left right =>
    have hpercent : ∀ position, step ⟨calls, frames, .operator left⟩ position '%' =
        .ok ⟨calls, frames, .operand (some left)⟩ := fun _ => rfl
    rw [Expr.onto, scan_expr left calls frames (by decide), scan_of_step (hpercent _),
      scan_atom right calls frames (some left) hc]
    simp [Expr.join, Nat.add_assoc, Nat.add_comm 1]

end

theorem scan_opening (calls : List Expr) (frames : List Frame) (position : Nat) (rest : Text) :
    scan ⟨calls, frames, .call 0⟩ position (opening ++ rest) =
      scan ⟨calls, frames, .operand none⟩ (position + opening.length) rest := rfl

/-- The text of a call. -/
theorem scan_call (calls : List Expr) (e : Expr) (position : Nat) (rest : Text) :
    scan ⟨calls, [], .call 0⟩ position (callText e.text ++ rest) =
      scan ⟨calls, [], .close e⟩ (position + (callText e.text).length) rest := by
  have hclose : ∀ position, step ⟨calls, [], .operator e⟩ position ')' =
      .ok ⟨calls, [], .close e⟩ := fun _ => rfl
  have htext : callText e.text ++ rest = opening ++ e.onto (')' :: rest) := by
    simp [callText, opening, e.onto_eq]
  have hlength : position + opening.length + e.text.length + 1 =
      position + (callText e.text).length := by
    simp only [callText, opening, List.length_append, List.length_cons, List.length_nil]
    omega
  rw [htext, scan_opening, scan_expr e calls [] (by decide), scan_of_step (hclose _), hlength]

/-- The text of calls, read where a call is to come, leads behind the last of them. -/
theorem scan_joinCalls_append (calls front : List Expr) (last : Expr) (position : Nat)
    (rest : Text) :
    scan ⟨calls, [], .call 0⟩ position (joinCalls ((front ++ [last]).map Expr.text) ++ rest) =
      scan ⟨front.reverse ++ calls, [], .close last⟩
        (position + (joinCalls ((front ++ [last]).map Expr.text)).length) rest := by
  induction front generalizing calls position with
  | nil =>
    rw [List.nil_append, List.map_singleton, joinCalls_singleton]
    exact scan_call calls last position rest
  | cons e front ih =>
    have hequals : ∀ position, step ⟨calls, [], .close e⟩ position '=' =
        .ok ⟨calls, [], .closeEquals e⟩ := fun _ => rfl
    have hsecond : ∀ position, step ⟨calls, [], .closeEquals e⟩ position '=' =
        .ok ⟨e :: calls, [], .call 0⟩ := fun _ => rfl
    rw [List.cons_append, List.map_cons, joinCalls_cons _ (by simp), List.append_assoc, scan_call,
      List.cons_append, List.cons_append, scan_of_step (hequals _), scan_of_step (hsecond _), ih]
    simp [Nat.add_assoc, Nat.add_comm, Nat.add_left_comm]

end Reading

namespace Chain

theorem exists_concat (chain : Chain) : ∃ front last, chain.calls = front ++ [last] :=
  ⟨_, _, (List.dropLast_concat_getLast chain.nonempty).symm⟩

/-- The text of a chain, whatever follows it, leads behind its last call. -/
theorem scan_text {chain : Chain} {front : List Expr} {last : Expr}
    (h : chain.calls = front ++ [last]) (rest : Text) :
    Reading.start.scan 0 (chain.text ++ rest) =
      Reading.scan ⟨front.reverse, [], .close last⟩ chain.text.length rest := by
  have hscan := Reading.scan_joinCalls_append [] front last 0 rest
  rwa [← h, List.append_nil, Nat.zero_add] at hscan

/-- Reading the text of a chain gives the chain. -/
theorem read_text (chain : Chain) : Chain.read chain.text = .ok chain := by
  obtain ⟨front, last, h⟩ := chain.exists_concat
  have hscan := scan_text h []
  rw [List.append_nil] at hscan
  rw [Chain.read, hscan, Reading.scan, Reading.finish]
  exact congrArg Except.ok (Chain.ext (by simp [h]))

end Chain

end Octoglyph
