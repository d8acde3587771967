import Octoglyph.Harness.Check
import Octoglyph.Proofs.CodeSet
import Octoglyph.Proofs.Printed

/-! # Encodings are spelled with the eight symbols

Every emitter keeps to the symbols: names are made of two letters, templates of percents and a
conversion letter, and all else is fixed text. The first statement alone uses all eight, so every
encoding uses exactly these.
-/

namespace Octoglyph

/-! ## The first character of a kind -/

namespace Text

variable {p : Char → Bool}

theorem locateFrom?_eq_none_iff {start : Nat} {text : Text} :
    locateFrom? p start text = none ↔ ∀ c ∈ text, p c = false := by
  induction text generalizing start with
  | nil => simp [locateFrom?]
  | cons c rest ih =>
    rw [locateFrom?, List.forall_mem_cons]
    cases p c <;> simp [ih]

theorem locate?_eq_none_iff {text : Text} : text.locate? p = none ↔ ∀ c ∈ text, p c = false :=
  locateFrom?_eq_none_iff

theorem locateFrom?_append {front : Text} (hfront : ∀ d ∈ front, p d = false) {c : Char}
    (hc : p c = true) (start : Nat) (rest : Text) :
    locateFrom? p start (front ++ c :: rest) = some ⟨start + front.length, c⟩ := by
  induction front generalizing start with
  | nil => simp [locateFrom?, hc]
  | cons d front ih =>
    have hd : p d = false := hfront d List.mem_cons_self
    rw [List.cons_append, locateFrom?, hd, List.length_cons, Nat.add_comm front.length,
      ← Nat.add_assoc]
    exact ih (fun d hd => hfront d (List.mem_cons_of_mem _ hd)) (start + 1)

/-- The first character that satisfies `p` is found behind those that do not. -/
theorem locate?_append {front : Text} (hfront : ∀ d ∈ front, p d = false) {c : Char}
    (hc : p c = true) (rest : Text) :
    locate? p (front ++ c :: rest) = some ⟨front.length, c⟩ := by
  rw [locate?, locateFrom?_append hfront hc, Nat.zero_add]

theorem exists_split_of_locateFrom? {start : Nat} {text : Text} {found : Located}
    (h : locateFrom? p start text = some found) :
    ∃ front rest, text = front ++ found.char :: rest ∧ found.position = start + front.length ∧
      p found.char = true ∧ ∀ d ∈ front, p d = false := by
  induction text generalizing start with
  | nil => cases h
  | cons c rest ih =>
    rw [locateFrom?] at h
    split at h
    next hc =>
      cases h
      exact ⟨[], rest, rfl, rfl, hc, nofun⟩
    next hc =>
      obtain ⟨front, tail, rfl, hposition, hfound, hfront⟩ := ih h
      refine ⟨c :: front, tail, rfl, ?_, hfound, ?_⟩
      · rw [hposition, List.length_cons]
        omega
      · intro d hd
        rcases List.mem_cons.1 hd with rfl | hd
        · exact Bool.eq_false_iff.2 hc
        · exact hfront d hd

end Text

/-! ## Texts of symbols -/

namespace Alphabet

/-- Every character of the text is a symbol. -/
def Spelled (text : Text) : Prop := ∀ c ∈ text, c ∈ symbols

instance (text : Text) : Decidable (Spelled text) :=
  List.decidableBAll (· ∈ symbols) text

theorem Spelled.append {s t : Text} (hs : Spelled s) (ht : Spelled t) : Spelled (s ++ t) :=
  List.forall_mem_append.2 ⟨hs, ht⟩

theorem Spelled.cons {c : Char} {t : Text} (hc : c ∈ symbols) (ht : Spelled t) :
    Spelled (c :: t) :=
  List.forall_mem_cons.2 ⟨hc, ht⟩

theorem firstForeign?_eq_none_iff {text : Text} : firstForeign? text = none ↔ Spelled text := by
  rw [firstForeign?, Text.locate?_eq_none_iff]
  simp [Spelled, isSymbol]

theorem isSpelled_iff {text : Text} : isSpelled text = true ↔ Spelled text := by
  rw [isSpelled, Option.isNone_iff_eq_none, firstForeign?_eq_none_iff]

theorem used_eq_symbols {text : Text} (h : ∀ c ∈ symbols, c ∈ text) : used text = symbols := by
  rw [used, List.filter_eq_self]
  intro c hc
  simpa using h c hc

theorem Spelled.foldl_utf8Size {text : Text} (h : Spelled text) (n : Nat) :
    text.foldl (fun n c => n + c.utf8Size) n = n + text.length := by
  have hsize : ∀ c ∈ symbols, c.utf8Size = 1 := by
    simp only [symbols, List.forall_mem_cons, List.not_mem_nil, false_implies, implies_true]
    decide
  induction text generalizing n with
  | nil => rfl
  | cons c text ih =>
    obtain ⟨hc, htext⟩ := List.forall_mem_cons.1 h
    rw [List.foldl_cons, hsize c hc, ih htext, List.length_cons]
    omega

/-- A symbol is a byte. -/
theorem Spelled.byteLength_eq {text : Text} (h : Spelled text) :
    text.byteLength = text.length := by
  rw [Text.byteLength, h.foldl_utf8Size, Nat.zero_add]

end Alphabet

open Alphabet

/-! ## Emitters -/

theorem Conversion.letter_mem_symbols (k : Conversion) : k.letter ∈ symbols := by
  cases k <;> decide

theorem Template.spelled_render (t : Template) : Spelled t.render := by
  intro c hc
  rcases mem_renderOnto hc with hc | rfl | rfl
  · cases hc
  · decide
  · exact t.conversion.letter_mem_symbols

theorem DigitName.spelled_ofNumber (n : UInt32) : Spelled (ofNumber n) := by
  intro c hc
  rcases eq_of_mem_ofNumber hc with rfl | rfl <;> decide

namespace Expr

theorem text_applied (e : Expr) (args : List Atom) :
    (e.applied args).text = e.text ++ args.flatMap fun a => '%' :: a.text := by
  induction args generalizing e with
  | nil => simp [applied]
  | cons a args ih =>
    have hstep : e.applied (a :: args) = (Expr.format e a).applied args := rfl
    rw [hstep, ih]
    simp

theorem spelled_applied {l : Literal} (hl : Spelled l.text) {args : List Atom}
    (hargs : ∀ a ∈ args, Spelled a.text) :
    Spelled ((Expr.atom (.literal l)).applied args).text := by
  rw [text_applied]
  refine .append (.cons (by decide) (hl.append (by decide))) ?_
  intro c hc
  obtain ⟨a, ha, hc⟩ := List.mem_flatMap.1 hc
  exact Spelled.cons (by decide) (hargs a ha) c hc

end Expr

namespace Statement

theorem text_assignmentOf (name : Ident) (args : List Atom) :
    (assignmentOf name args).text =
      '\'' :: (name.text ++ '=' :: ((Template.ofSlots .hex args.length).render ++
        '\'' :: args.flatMap fun a => '%' :: a.text)) := by
  simp [assignmentOf, Expr.text_applied, assignmentLiteral]

theorem spelled_assignmentOf {name : Ident} (hname : Spelled name.text) {args : List Atom}
    (hargs : ∀ a ∈ args, Spelled a.text) : Spelled (assignmentOf name args).text :=
  Expr.spelled_applied (hname.append (.cons (by decide) (Template.spelled_render _))) hargs

theorem spelled_bootstrap : Spelled bootstrap.text := by decide

theorem spelled_ofBit (bit : Nat) : Spelled (Atom.ofBit bit).text := by
  unfold Atom.ofBit
  split <;> decide

theorem spelled_assignment (n : UInt32) : Spelled (assignment n).text := by
  refine spelled_assignmentOf ?_ ?_
  · rw [DigitName.text_ident]
    exact DigitName.spelled_ofNumber n
  · simp only [assignmentArgs, List.forall_mem_cons, List.forall_mem_map]
    exact ⟨by decide, by decide, fun bit _ => spelled_ofBit bit⟩

theorem spelled_spelling (s : Text) : Spelled (spelling s).text := by
  refine Expr.spelled_applied (Template.spelled_render _) ?_
  intro a ha
  obtain ⟨c, -, rfl⟩ := List.mem_map.1 ha
  rw [Atom.text_ident, DigitName.text_ident]
  exact DigitName.spelled_ofNumber c.val

end Statement

/-! ## Whole encodings -/

theorem spelled_callText {argument : Text} (h : Spelled argument) : Spelled (callText argument) :=
  .append (.append (by decide) h) (by decide)

theorem spelled_joinCalls {arguments : List Text} (h : ∀ t ∈ arguments, Spelled t) :
    Spelled (joinCalls arguments) := by
  induction arguments with
  | nil => exact nofun
  | cons argument rest ih =>
    obtain ⟨hargument, hrest⟩ := List.forall_mem_cons.1 h
    cases rest with
    | nil =>
      rw [joinCalls_singleton]
      exact spelled_callText hargument
    | cons next rest =>
      rw [joinCalls_cons_cons]
      exact .append (spelled_callText hargument) (.cons (by decide) (.cons (by decide) (ih hrest)))

theorem Chain.spelled_text {chain : Chain} (h : ∀ e ∈ chain.calls, Spelled e.text) :
    Spelled chain.text := by
  refine spelled_joinCalls fun t ht => ?_
  obtain ⟨e, he, rfl⟩ := List.mem_map.1 ht
  exact h e he

theorem Strategy.spelled_payload {strategy : Strategy} {program : Text} {step : Step}
    (h : step ∈ strategy.payload program) : Spelled step.expr.text := by
  cases step with
  | encoded text => exact Statement.spelled_spelling text
  | verbatim name =>
    cases strategy with
    | direct => simp [payload] at h
    | accumulator =>
      obtain rfl : name = Accumulator.name := by simpa [payload] using h
      decide

namespace Encoder

theorem spelled_calls (codes : List UInt32) (strategy : Strategy) (program : Text) :
    ∀ e ∈ (assemble codes (strategy.payload program)).calls, Spelled e.text := by
  intro e he
  rcases List.mem_cons.1 he with rfl | he
  · exact Statement.spelled_bootstrap
  · rcases List.mem_append.1 he with he | he
    · obtain ⟨n, -, rfl⟩ := List.mem_map.1 he
      exact Statement.spelled_assignment n
    · obtain ⟨step, hstep, rfl⟩ := List.mem_map.1 he
      exact Strategy.spelled_payload hstep

theorem spelled_assemble (codes : List UInt32) (strategy : Strategy) (program : Text) :
    Spelled (assemble codes (strategy.payload program)).text :=
  Chain.spelled_text (spelled_calls codes strategy program)

/-- The first call of an encoding uses every symbol. -/
theorem mem_assemble_of_mem_symbols (codes : List UInt32) (steps : List Step) {c : Char}
    (h : c ∈ symbols) : c ∈ (assemble codes steps).text := by
  have hbootstrap : symbols ⊆ callText Statement.bootstrap.text := by decide
  have hfirst : ∀ rest : List Text, c ∈ joinCalls (Statement.bootstrap.text :: rest) := by
    intro rest
    cases rest with
    | nil =>
      rw [joinCalls_singleton]
      exact hbootstrap h
    | cons next rest =>
      rw [joinCalls_cons_cons]
      exact List.mem_append_left _ (hbootstrap h)
  exact hfirst _

theorem symbolsError?_assemble (codes : List UInt32) (strategy : Strategy) (program : Text) :
    Harness.symbolsError? (assemble codes (strategy.payload program)).text = none := by
  have hspelled := isSpelled_iff.2 (spelled_assemble codes strategy program)
  have hused := used_eq_symbols fun c =>
    mem_assemble_of_mem_symbols codes (strategy.payload program) (c := c)
  simp [Harness.symbolsError?, hspelled, hused]

end Encoder

end Octoglyph
