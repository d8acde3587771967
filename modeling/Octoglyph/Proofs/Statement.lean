import Mathlib.Data.List.Infix
import Octoglyph.Chain.Eval
import Octoglyph.Statement
import Octoglyph.Proofs.Binding
import Octoglyph.Proofs.Application

/-! # What the statements evaluate to

A template applied to operands goes from stage to stage, one for each operand. With the values that
the statements pass, the last stage of each is the text that it is meant to execute.
-/

namespace Octoglyph

open Template

/-! ## Templates applied to operands -/

/-- With the given variables, the operand has a value that the conversion writes as `word`. -/
def Atom.Writes (b : Bindings) (k : Conversion) (a : Atom) (word : Text) : Prop :=
  ∃ v, a.eval b = .ok v ∧ Format.convert k.letter v = .ok word

theorem Atom.exists_values {b : Bindings} {k : Conversion} {args : List Atom} {words : List Text}
    (h : List.Forall₂ (Atom.Writes b k) args words) :
    ∃ vs, List.Forall₂ (fun a v => a.eval b = .ok v) args vs ∧ List.Forall₂ k.Writes vs words := by
  induction h with
  | nil => exact ⟨[], .nil, .nil⟩
  | cons ha _ ih =>
    obtain ⟨v, hav, hv⟩ := ha
    obtain ⟨vs, hvs, hwords⟩ := ih
    exact ⟨v :: vs, .cons hav hvs, .cons hv hwords⟩

namespace Expr

variable {b : Bindings} {k : Conversion} {fault : Fault}

theorem eval_format {e : Expr} {a : Atom} {v w : Value} (he : e.eval b = .ok v)
    (ha : a.eval b = .ok w) : (Expr.format e a).eval b = Format.apply v w := by
  rw [eval, he, ha]
  rfl

theorem eval_applied_of_error {e : Expr} (he : e.eval b = .error fault) (args : List Atom) :
    (e.applied args).eval b = .error fault := by
  induction args generalizing e with
  | nil => exact he
  | cons a args ih =>
    apply ih
    rw [eval, he]
    rfl

/-- An expression is applied to the values of its operands, one after the other. -/
theorem eval_applied_eq_foldlM {e : Expr} {v : Value} {args : List Atom} {vs : List Value}
    (he : e.eval b = .ok v) (hargs : List.Forall₂ (fun a w => a.eval b = .ok w) args vs) :
    (e.applied args).eval b = vs.foldlM Format.apply v := by
  induction hargs generalizing e v with
  | nil => exact he
  | @cons a w args vs ha hargs ih =>
    have hstep : (Expr.format e a).eval b = Format.apply v w := eval_format he ha
    rw [List.foldlM_cons]
    cases happly : Format.apply v w with
    | ok u => exact ih (hstep.trans happly)
    | error fault => exact eval_applied_of_error (hstep.trans happly) args

/-- An expression at some stage, applied to operands that write `words`, reaches the stage that has
these words in its next slots. -/
theorem eval_applied {e : Expr} {front : Text} {start words : List Text} {args : List Atom}
    {ss : List Segment} (percents : Nat)
    (he : e.eval b = .ok (.str (front ++ stage k (2 ^ args.length * percents) 0 start ss)))
    (hargs : List.Forall₂ (Atom.Writes b k) args words) (hfront : '%' ∉ front)
    (hstart : ∀ w ∈ start, '%' ∉ w) (hwords : ∀ w ∈ words, '%' ∉ w)
    (hslots : start.length + args.length ≤ ss.count .slot) :
    (e.applied args).eval b = .ok (.str (front ++ stage k percents 0 (start ++ words) ss)) := by
  obtain ⟨vs, hargs, hvs⟩ := Atom.exists_values hargs
  have hpercent : ['%'] ∉ words.dropLast := fun h =>
    hwords ['%'] (List.mem_of_mem_dropLast h) (List.mem_singleton_self _)
  rw [hargs.length_eq] at he hslots
  rw [eval_applied_eq_foldlM he hargs,
    Format.foldlM_apply_stage percents hvs hfront hstart hslots, if_neg hpercent]

/-- A whole template behind a text without percents, applied to as many operands as it has
slots. -/
theorem eval_applied_render {e : Expr} {t : Template} {front : Text} {words : List Text}
    {args : List Atom} (he : e.eval b = .ok (.str (front ++ t.render)))
    (hargs : List.Forall₂ (Atom.Writes b t.conversion) args words) (hfront : '%' ∉ front)
    (hwords : ∀ w ∈ words, '%' ∉ w) (hslots : t.slots = args.length) :
    (e.applied args).eval b =
      .ok (.str (front ++ stage t.conversion 1 0 words t.segments)) := by
  rw [render_eq_stage, hslots, ← Nat.mul_one (2 ^ args.length)] at he
  have := eval_applied 1 he hargs hfront (by simp) hwords (by simp [← hslots, slots])
  simpa using this

end Expr

/-! ## Operands -/

/-- A value that is a number below sixteen is written as a single digit. -/
theorem Format.convert_hex_of_lt {v : Value} (n : Nat) (hv : v.number? = some (n : Int))
    (hn : n < 16) : convert Conversion.hex.letter v = .ok [n.digitChar] := by
  have hconvert : convert Conversion.hex.letter v = hexText v := rfl
  have hsigned : Numeral.signed 16 (n : Int) = Numeral.text 16 n := rfl
  rw [hconvert, hexText, hv]
  simp only [hsigned, Numeral.text_of_lt hn]

namespace Atom

variable (b : Bindings)

theorem truth_writes : truth.Writes b .hex ['1'] :=
  ⟨.bool true, rfl, Format.convert_hex_of_lt 1 rfl (by decide)⟩

theorem falsehood_writes : falsehood.Writes b .hex ['0'] :=
  ⟨.bool false, rfl, Format.convert_hex_of_lt 0 rfl (by decide)⟩

theorem ofBit_writes {bit : Nat} (h : bit < 2) :
    (ofBit bit).Writes b .hex [bit.digitChar] := by
  obtain rfl | rfl : bit = 0 ∨ bit = 1 := by omega
  · exact falsehood_writes b
  · exact truth_writes b

variable {b}

theorem eval_ident {name : Ident} {v : Value} (h : b.get? name.text = some v) :
    (Atom.ident name).eval b = .ok v := by
  simp [eval, h]

/-- A variable that holds eleven writes the letter of binary numerals. -/
theorem ident_writes_b {name : Ident} (h : b.get? name.text = some (.int 11)) :
    (Atom.ident name).Writes b .hex ['b'] :=
  ⟨.int 11, eval_ident h, Format.convert_hex_of_lt 11 rfl (by decide)⟩

/-- A variable that holds the code of a character writes the character. -/
theorem ident_writes_char {name : Ident} {c : Char}
    (h : b.get? name.text = some (.int c.toNat)) :
    (Atom.ident name).Writes b .char [c] := by
  have hnumber : (Value.int c.toNat).number? = some (c.toNat : Int) := rfl
  exact ⟨.int c.toNat, eval_ident h, Format.charText_of_number? hnumber⟩

end Atom

/-! ## Statements -/

namespace Bindings

/-- The variable of the number is bound to it. -/
def Holds (b : Bindings) (n : UInt32) : Prop :=
  b.get? (DigitName.ofNumber n) = some (.int n.toNat)

/-- The variables that spelling the text reads are bound: percents need none. -/
def Spells (b : Bindings) (s : Text) : Prop := ∀ c ∈ s, c ≠ '%' → b.Holds c.val

end Bindings

namespace Statement

variable {b : Bindings}

theorem percent_not_mem_target (name : Ident) : '%' ∉ name.text ++ ['='] := by
  have hname : '%' ∉ name.text := Ident.not_mem_text_of_not_isWordChar (by decide)
  simpa using hname

theorem eval_assignmentLiteral (name : Ident) (t : Template) :
    (Expr.atom (.literal (assignmentLiteral name t))).eval b =
      .ok (.str (name.text ++ ['='] ++ t.render)) := by
  simp [Expr.eval, Atom.eval, assignmentLiteral]

theorem eval_assignmentOf (name : Ident) {args : List Atom} {words : List Text}
    (hargs : List.Forall₂ (Atom.Writes b .hex) args words) (hwords : ∀ w ∈ words, '%' ∉ w) :
    (assignmentOf name args).eval b = .ok (.str (name.text ++ '=' :: words.flatten)) := by
  have hlast := Expr.eval_applied_render
    (eval_assignmentLiteral name (.ofSlots .hex args.length)) hargs (percent_not_mem_target name)
    hwords (by simp [slots, ofSlots])
  rw [assignmentOf, hlast, ofSlots, hargs.length_eq, stage_replicate_slot]
  simp

/-- The first statement executes `x=11`, whatever is bound. -/
theorem eval_bootstrap (b : Bindings) : bootstrap.eval b = .ok (.str "x=11".toList) := by
  have hargs : List.Forall₂ (Atom.Writes b .hex) [.truth, .truth] [['1'], ['1']] :=
    .cons (Atom.truth_writes b) (.cons (Atom.truth_writes b) .nil)
  exact eval_assignmentOf bootstrapName hargs (by decide)

/-- What the assignment of a number executes. -/
def assignmentSource (n : UInt32) : Text :=
  DigitName.ofNumber n ++ "=0b".toList ++ Numeral.binary n.toNat

theorem bits_writes (b : Bindings) {bits : List Nat} (h : ∀ bit ∈ bits, bit < 2) :
    List.Forall₂ (Atom.Writes b .hex) (bits.map .ofBit) (bits.map fun bit => [bit.digitChar]) := by
  rw [List.forall₂_map_left_iff, List.forall₂_map_right_iff, List.forall₂_same]
  exact fun bit hbit => Atom.ofBit_writes b (h bit hbit)

theorem eval_assignment (hx : b.get? bootstrapName.text = some (.int 11)) (n : UInt32) :
    (assignment n).eval b = .ok (.str (assignmentSource n)) := by
  let bits := Numeral.digits 2 n.toNat
  have hbits : ∀ bit ∈ bits, bit < 2 := fun _ => Numeral.lt_of_mem_digits (Nat.le_refl 2)
  have hargs : List.Forall₂ (Atom.Writes b .hex) (assignmentArgs n)
      (['0'] :: ['b'] :: bits.map fun bit => [bit.digitChar]) :=
    .cons (Atom.falsehood_writes b) (.cons (Atom.ident_writes_b hx) (bits_writes b hbits))
  have hwords : ∀ w ∈ ['0'] :: ['b'] :: bits.map fun bit => [bit.digitChar], '%' ∉ w := by
    have hdigit : ∀ bit < 2, '%' ∉ [bit.digitChar] := by decide
    simp only [List.mem_cons, List.mem_map]
    rintro w (rfl | rfl | ⟨bit, hbit, rfl⟩)
    · decide
    · decide
    · exact hdigit bit (hbits bit hbit)
  have hflat : (bits.map fun bit => [bit.digitChar]).flatten = Numeral.binary n.toNat := by
    rw [← List.flatMap_def, ← List.map_eq_flatMap]
    rfl
  rw [assignment, eval_assignmentOf _ hargs hwords, DigitName.text_ident]
  simp [assignmentSource, hflat]

theorem slots_spellingTemplate (s : Text) : (spellingTemplate s).slots = spellingSlots s := by
  induction s with
  | nil => rfl
  | cons c s ih =>
    by_cases hc : c = '%' <;>
      simp_all [spellingTemplate, spellingSlots, slots]

theorem length_spellingArgs (s : Text) : (spellingArgs s).length = spellingSlots s := by
  rw [spellingArgs, List.length_map, spellingSlots, List.countP_eq_length_filter]

/-- The template of a text, filled with the characters that are passed in, is the text. -/
theorem stage_spelling (s : Text) :
    stage .char 1 0 ((s.filter (· ≠ '%')).map fun c => [c]) (spellingTemplate s).segments = s := by
  induction s with
  | nil => simp [spellingTemplate]
  | cons c s ih =>
    by_cases hc : c = '%' <;> simp_all [spellingTemplate]

theorem spellingArgs_writes {s : Text} (h : b.Spells s) :
    List.Forall₂ (Atom.Writes b .char) (spellingArgs s)
      ((s.filter (· ≠ '%')).map fun c => [c]) := by
  rw [spellingArgs, List.forall₂_map_left_iff, List.forall₂_map_right_iff, List.forall₂_same]
  intro c hc
  obtain ⟨hcs, hne⟩ := List.mem_filter.1 hc
  apply Atom.ident_writes_char
  rw [DigitName.text_ident]
  exact h c hcs (by simpa using hne)

theorem percent_not_mem_words (s : Text) :
    ∀ w ∈ (s.filter (· ≠ '%')).map fun c => [c], '%' ∉ w := by
  simp only [List.mem_map]
  rintro w ⟨c, hc, rfl⟩
  have hne : c ≠ '%' := by simpa using (List.mem_filter.1 hc).2
  simpa using hne.symm

theorem eval_spellingLiteral (s : Text) :
    (Expr.atom (.literal ⟨(spellingTemplate s).render, quote_not_mem_render _⟩)).eval b =
      .ok (.str ([] ++ (spellingTemplate s).render)) := by
  simp [Expr.eval, Atom.eval]

/-- The spelling of a text evaluates to it, whatever mixture of percents and other characters it
is. -/
theorem eval_spelling {s : Text} (h : b.Spells s) : (spelling s).eval b = .ok (.str s) := by
  have hlast := Expr.eval_applied_render (eval_spellingLiteral s) (spellingArgs_writes h) (by simp)
    (percent_not_mem_words s) (by rw [slots_spellingTemplate, length_spellingArgs])
  rw [spelling, hlast, List.nil_append]
  exact congrArg (fun t => Except.ok (Value.str t)) (stage_spelling s)

end Statement

/-! ## Variables that are missing

Operands are evaluated from left to right, each when the template has taken those before it. So the
first one that fails decides, and it fails for its own reason. -/

namespace Expr

variable {b : Bindings} {fault : Fault}

/-- A template that has taken the operands before `a` is stopped by the fault of `a`. -/
theorem eval_applied_render_of_error {e : Expr} {t : Template} {front : Text} {words : List Text}
    {args : List Atom} {a : Atom} (he : e.eval b = .ok (.str (front ++ t.render)))
    (hargs : List.Forall₂ (Atom.Writes b t.conversion) args words) (hfront : '%' ∉ front)
    (hwords : ∀ w ∈ words, '%' ∉ w) (hslots : args.length ≤ t.slots)
    (ha : a.eval b = .error fault) (more : List Atom) :
    (e.applied (args ++ a :: more)).eval b = .error fault := by
  have hpercents : 2 ^ t.slots = 2 ^ args.length * 2 ^ (t.slots - args.length) := by
    rw [← Nat.pow_add, Nat.add_sub_cancel' hslots]
  rw [render_eq_stage, hpercents] at he
  have htaken := eval_applied _ he hargs hfront (by simp) hwords (by simpa [slots] using hslots)
  have hsplit : e.applied (args ++ a :: more) = (Expr.format (e.applied args) a).applied more :=
    List.foldl_append
  rw [hsplit]
  apply eval_applied_of_error
  rw [eval, htaken, ha]
  rfl

end Expr

theorem Atom.eval_ident_of_unbound {b : Bindings} {name : Ident} (h : b.get? name.text = none) :
    (Atom.ident name).eval b = .error (.unbound name.text) := by
  simp [eval, h]

namespace Statement

variable {b : Bindings}

/-- Without `x`, no number can be assigned. -/
theorem eval_assignment_of_unbound (hx : b.get? bootstrapName.text = none) (n : UInt32) :
    (assignment n).eval b = .error (.unbound bootstrapName.text) := by
  -- the leading zero needs no variable, so it is the letter behind it that is missed
  have hargs : List.Forall₂ (Atom.Writes b .hex) [.falsehood] [['0']] :=
    .cons (Atom.falsehood_writes b) .nil
  have hslots : [Atom.falsehood].length ≤
      (Template.ofSlots .hex (assignmentArgs n).length).slots := by
    simp [slots, ofSlots, assignmentArgs]
  exact Expr.eval_applied_render_of_error (eval_assignmentLiteral (DigitName.ident n) _) hargs
    (percent_not_mem_target _) (by decide) hslots (Atom.eval_ident_of_unbound hx) _

theorem spellingArgs_append_cons (front rest : Text) {c : Char} (hc : c ≠ '%') :
    spellingArgs (front ++ c :: rest) =
      spellingArgs front ++ .ident (DigitName.ident c.val) :: spellingArgs rest := by
  simp [spellingArgs, hc]

/-- A text cannot be spelled beyond the first character whose variable is missing, and that variable
is what is reported. -/
theorem eval_spelling_of_unbound {front : Text} {c : Char} (hfront : b.Spells front) (hc : c ≠ '%')
    (hunbound : b.get? (DigitName.ofNumber c.val) = none) (rest : Text) :
    (spelling (front ++ c :: rest)).eval b = .error (.unbound (DigitName.ofNumber c.val)) := by
  have hslots : (spellingArgs front).length ≤ (spellingTemplate (front ++ c :: rest)).slots := by
    rw [slots_spellingTemplate, ← length_spellingArgs, spellingArgs_append_cons front rest hc,
      List.length_append]
    exact Nat.le_add_right _ _
  have hident : (Atom.ident (DigitName.ident c.val)).eval b =
      .error (.unbound (DigitName.ofNumber c.val)) := by
    rw [← DigitName.text_ident] at hunbound ⊢
    exact Atom.eval_ident_of_unbound hunbound
  rw [spelling, spellingArgs_append_cons front rest hc]
  exact Expr.eval_applied_render_of_error (eval_spellingLiteral _) (spellingArgs_writes hfront)
    (by simp) (percent_not_mem_words front) hslots hident _

end Statement

end Octoglyph
