import Mathlib.Data.Nat.Digits.Defs
import Octoglyph.Proofs.Binding

/-! # Which texts bind a variable

Four forms are meant to bind: `NAME=''`, `NAME=0b…`, `NAME=…` with a decimal numeral, and
`NAME+=chr(…)`. Each of them binds what it says. But the numerals are read more leniently than they
are meant: a sign may stand behind `0b`, a plus in `chr(…)`, and zeros in front of other digits.
These are all the texts that bind a variable.
-/

namespace Octoglyph

/-! ## Numerals as they are written -/

namespace Numeral

/-- At least one character, and each of them a digit of the base. -/
def IsNumeral (base : Nat) (t : Text) : Prop :=
  t ≠ [] ∧ ∀ c ∈ t, ∃ d < base, c = d.digitChar

/-- The number that digits up to nine spell in the base. -/
def number (base : Nat) (t : Text) : Nat :=
  Nat.ofDigits base (t.reverse.map fun c => c.toNat - '0'.toNat)

variable {base n bound : Nat} {t : Text}

theorem digit?_eq_some_iff (hbase : base ≤ 10) {c : Char} {d : Nat} :
    digit? base c = some d ↔ d < base ∧ c = d.digitChar := by
  constructor
  · intro h
    obtain ⟨hlt, hd⟩ := Option.ite_none_right_eq_some.1 h
    have hd := Option.some.inj hd
    -- no other digits have values below ten
    by_cases hdigit : '0' ≤ c ∧ c ≤ '9'
    · rw [if_pos hdigit] at hd hlt
      subst hd
      refine ⟨hlt, Char.toNat_inj.1 ?_⟩
      obtain ⟨hlow, -⟩ := hdigit
      have hlow : '0'.toNat ≤ c.toNat := hlow
      rw [Nat.toNat_digitChar_of_lt_ten (by omega)]
      exact (Nat.add_sub_of_le hlow).symm
    · rw [if_neg hdigit] at hlt
      split at hlt
      · omega
      · split at hlt <;> omega
  · rintro ⟨hd, rfl⟩
    exact digit?_digitChar (by omega) hd

theorem mapM_digit?_eq_some_iff (hbase : base ≤ 10) {ds : List Nat} :
    t.mapM (digit? base) = some ds ↔ (∀ d ∈ ds, d < base) ∧ t = ds.map Nat.digitChar := by
  constructor
  · intro h
    induction t generalizing ds with
    | nil =>
      cases h
      exact ⟨nofun, rfl⟩
    | cons c t ih =>
      rw [List.mapM_cons] at h
      simp only [Option.bind_eq_bind, Option.bind_eq_some_iff] at h
      obtain ⟨d, hd, ds, hds, ⟨⟩⟩ := h
      obtain ⟨hlt, rfl⟩ := (digit?_eq_some_iff hbase).1 hd
      obtain ⟨hall, rfl⟩ := ih hds
      exact ⟨List.forall_mem_cons.2 ⟨hlt, hall⟩, rfl⟩
  · rintro ⟨hds, rfl⟩
    exact mapM_digit?_digitChar (by omega) hds

theorem value_eq_ofDigits (ds : List Nat) : value base ds = Nat.ofDigits base ds.reverse := by
  rw [Nat.ofDigits_eq_foldr, List.foldr_reverse, value]
  congr
  funext m d
  simp [Nat.mul_comm, Nat.add_comm]

theorem number_map_digitChar {ds : List Nat} (h : ∀ d ∈ ds, d < 10) :
    number base (ds.map Nat.digitChar) = value base ds := by
  have hdigits : (ds.map Nat.digitChar).map (fun c => c.toNat - '0'.toNat) = ds := by
    rw [List.map_map]
    refine (List.map_congr_left fun d hd => ?_).trans (List.map_id ds)
    rw [Function.comp_apply, Nat.toNat_digitChar_of_lt_ten (h d hd)]
    exact Nat.add_sub_cancel_left 48 d
  rw [number, List.map_reverse, hdigits, value_eq_ofDigits]

theorem IsNumeral.exists_digits (h : IsNumeral base t) :
    ∃ ds : List Nat, (∀ d ∈ ds, d < base) ∧ t = ds.map Nat.digitChar := by
  obtain ⟨-, h⟩ := h
  induction t with
  | nil => exact ⟨[], nofun, rfl⟩
  | cons c t ih =>
    obtain ⟨⟨d, hd, rfl⟩, ht⟩ := List.forall_mem_cons.1 h
    obtain ⟨ds, hds, rfl⟩ := ih ht
    exact ⟨d :: ds, List.forall_mem_cons.2 ⟨hd, hds⟩, rfl⟩

theorem IsNumeral.isDigit (h : IsNumeral base t) (hbase : base ≤ 10) {c : Char} (hc : c ∈ t) :
    c.isDigit = true := by
  obtain ⟨d, hd, rfl⟩ := h.2 c hc
  rw [Nat.isDigit_digitChar]
  exact decide_eq_true (by omega)

theorem IsNumeral.not_mem (h : IsNumeral base t) (hbase : base ≤ 10) {c : Char}
    (hc : c.isDigit = false) : c ∉ t := fun hmem => by
  rw [h.isDigit hbase hmem] at hc
  cases hc

theorem read?_eq_some_iff (hbase : base ≤ 10) :
    read? base t = some n ↔ IsNumeral base t ∧ number base t = n := by
  constructor
  · intro h
    have hne : t ≠ [] := by
      rintro rfl
      cases h
    rw [read?_eq_of_ne_nil hne] at h
    obtain ⟨ds, hds, rfl⟩ := Option.map_eq_some_iff.1 h
    obtain ⟨hlt, rfl⟩ := (mapM_digit?_eq_some_iff hbase).1 hds
    refine ⟨⟨hne, ?_⟩, number_map_digitChar fun d hd => by have := hlt d hd; omega⟩
    intro c hc
    obtain ⟨d, hd, rfl⟩ := List.mem_map.1 hc
    exact ⟨d, hlt d hd, rfl⟩
  · rintro ⟨h, rfl⟩
    obtain ⟨ds, hlt, rfl⟩ := h.exists_digits
    rw [read?_eq_of_ne_nil h.1, mapM_digit?_digitChar (by omega) hlt, Option.map_some,
      number_map_digitChar fun d hd => by have := hlt d hd; omega]

theorem IsNumeral.ne_cons (h : IsNumeral base t) (hbase : base ≤ 10) {c : Char}
    (hc : c.isDigit = false) (rest : Text) : t ≠ c :: rest := by
  rintro rfl
  exact h.not_mem hbase hc List.mem_cons_self

theorem readUnsigned?_of_ne_plus (h : ∀ rest, t ≠ '+' :: rest) :
    readUnsigned? base bound t = (read? base t).filter (· < bound) := by
  unfold readUnsigned?
  split
  next rest => exact absurd rfl (h rest)
  next => rfl

theorem readUnsigned?_eq_some_iff (hbase : base ≤ 10) :
    readUnsigned? base bound t = some n ↔ ∃ digits, (t = digits ∨ t = '+' :: digits) ∧
      IsNumeral base digits ∧ number base digits < bound ∧ n = number base digits := by
  have hread : ∀ digits, (read? base digits).filter (· < bound) = some n ↔
      IsNumeral base digits ∧ number base digits < bound ∧ n = number base digits := by
    intro digits
    rw [Option.filter_eq_some_iff, read?_eq_some_iff hbase, decide_eq_true_iff]
    constructor
    · rintro ⟨⟨hdigits, rfl⟩, hn⟩
      exact ⟨hdigits, hn, rfl⟩
    · rintro ⟨hdigits, hn, rfl⟩
      exact ⟨⟨hdigits, rfl⟩, hn⟩
  by_cases hplus : ∃ rest, t = '+' :: rest
  · obtain ⟨rest, rfl⟩ := hplus
    constructor
    · intro h
      exact ⟨rest, .inr rfl, (hread rest).1 h⟩
    · rintro ⟨digits, rfl | hrest, h⟩
      · exact absurd rfl (h.1.ne_cons hbase (by decide) rest)
      · cases hrest
        exact (hread rest).2 h
  · rw [readUnsigned?_of_ne_plus (not_exists.1 hplus)]
    constructor
    · intro h
      exact ⟨t, .inl rfl, (hread t).1 h⟩
    · rintro ⟨digits, rfl | hrest, h⟩
      · exact (hread t).2 h
      · exact absurd ⟨digits, hrest⟩ hplus

theorem readSigned?_minus (rest : Text) :
    readSigned? base bound ('-' :: rest) =
      ((read? base rest).filter (· ≤ bound)).map fun n : Nat => -(n : Int) := by
  rw [readSigned?]
  cases (read? base rest).filter (· ≤ bound) <;> rfl

theorem readSigned?_of_ne_minus (h : ∀ rest, t ≠ '-' :: rest) :
    readSigned? base bound t = (readUnsigned? base bound t).map Int.ofNat := by
  unfold readSigned?
  split
  next rest => exact absurd rfl (h rest)
  next => rfl

theorem readSigned?_eq_some_iff (hbase : base ≤ 10) {i : Int} :
    readSigned? base bound t = some i ↔
      (∃ digits, (t = digits ∨ t = '+' :: digits) ∧ IsNumeral base digits ∧
        number base digits < bound ∧ i = number base digits) ∨
      ∃ digits, t = '-' :: digits ∧ IsNumeral base digits ∧
        number base digits ≤ bound ∧ i = -(number base digits : Int) := by
  by_cases hminus : ∃ rest, t = '-' :: rest
  · obtain ⟨rest, rfl⟩ := hminus
    rw [readSigned?_minus, Option.map_eq_some_iff]
    constructor
    · rintro ⟨n, hn, rfl⟩
      obtain ⟨hn, hle⟩ := Option.filter_eq_some_iff.1 hn
      obtain ⟨hrest, rfl⟩ := (read?_eq_some_iff hbase).1 hn
      exact .inr ⟨rest, rfl, hrest, of_decide_eq_true hle, rfl⟩
    · rintro (⟨digits, rfl | hrest, h⟩ | ⟨digits, hrest, hdigits, hle, rfl⟩)
      · exact absurd rfl (h.1.ne_cons hbase (by decide) rest)
      · cases hrest
      · cases hrest
        have hread := (read?_eq_some_iff hbase).2 ⟨hdigits, rfl⟩
        exact ⟨_, Option.filter_eq_some_iff.2 ⟨hread, decide_eq_true hle⟩, rfl⟩
  · rw [readSigned?_of_ne_minus (not_exists.1 hminus), Option.map_eq_some_iff]
    constructor
    · rintro ⟨n, hn, rfl⟩
      obtain ⟨digits, ht, hdigits, hlt, rfl⟩ := (readUnsigned?_eq_some_iff hbase).1 hn
      exact .inl ⟨digits, ht, hdigits, hlt, rfl⟩
    · rintro (⟨digits, ht, hdigits, hlt, rfl⟩ | ⟨digits, ht, -⟩)
      · exact ⟨_, (readUnsigned?_eq_some_iff hbase).2 ⟨digits, ht, hdigits, hlt, rfl⟩, rfl⟩
      · exact absurd ⟨digits, ht⟩ hminus

end Numeral

/-! ## Names -/

/-- Letters, digits and underscores, all of them ASCII, and no digit first. -/
def Text.IsName (name : Text) : Prop :=
  name ≠ [] ∧ (∀ c ∈ name, isWordChar c = true) ∧ ∀ c ∈ name.head?, c.isDigit = false

theorem isDigit_eq_false_of_isAlpha {c : Char} (h : c.isAlpha = true) : c.isDigit = false := by
  rw [← Bool.not_eq_true, Char.isDigit_iff_toNat]
  rintro ⟨-, hle⟩
  have hletter : 65 ≤ c.toNat := by
    rcases Bool.or_eq_true_iff.1 h with hupper | hlower
    · exact (of_decide_eq_true hupper).1
    · have hlow : 97 ≤ c.toNat := of_decide_eq_true (Bool.and_eq_true_iff.1 hlower).1
      omega
  change c.toNat ≤ 57 at hle
  omega

theorem isTarget_iff {name : Text} : isTarget name = true ↔ name.IsName := by
  cases name with
  | nil => simp [isTarget, Text.IsName]
  | cons c rest =>
    have hfirst : (c.isAlpha || c == '_') = true ↔ isWordChar c = true ∧ c.isDigit = false := by
      by_cases halpha : c.isAlpha = true
      · simp [isWordChar, Char.isAlphanum, halpha, isDigit_eq_false_of_isAlpha halpha]
      · by_cases hunderscore : c = '_'
        · subst hunderscore
          decide
        · simp [isWordChar, Char.isAlphanum, halpha, hunderscore]
    rw [isTarget, Bool.and_eq_true, hfirst, List.all_eq_true]
    simp only [Text.IsName, ne_eq, List.cons_ne_nil, not_false_eq_true, true_and,
      List.forall_mem_cons, List.head?_cons, Option.mem_some_iff, forall_eq']
    tauto

/-! ## What may stand behind a name -/

namespace Bindings

open Numeral

/-- The forms that are meant: what stands behind the name, and the value that the name is bound to.
-/
inductive Meant (b : Bindings) (name : Text) : Text → Value → Prop where
  /-- `NAME=''` binds the empty string. -/
  | empty : b.Meant name ['=', '\'', '\''] (.str [])
  /-- `NAME=0b101` binds the number. -/
  | binary {digits : Text} (hdigits : IsNumeral 2 digits) (hbound : number 2 digits < 2 ^ 63) :
    b.Meant name ('=' :: '0' :: 'b' :: digits) (.int (number 2 digits))
  /-- `NAME=11` binds the number; only zero may begin with a zero. -/
  | decimal {digits : Text} (hdigits : IsNumeral 10 digits)
    (hzeros : digits.head? = some '0' → ∀ c ∈ digits, c = '0')
    (hbound : number 10 digits < 2 ^ 63) :
    b.Meant name ('=' :: digits) (.int (number 10 digits))
  /-- `NAME+=chr(97)` appends the character to the string that the name is bound to. -/
  | append {digits text : Text} {c : Char} (hdigits : IsNumeral 10 digits)
    (hcode : number 10 digits = c.toNat) (hname : b.get? name = some (.str text)) :
    b.Meant name (['+', '=', 'c', 'h', 'r', '('] ++ (digits ++ [')'])) (.str (text ++ [c]))

/-- The forms that are let through beside them. -/
inductive Lenient (b : Bindings) (name : Text) : Text → Value → Prop where
  /-- `NAME=0b+101` binds the number. -/
  | plus {digits : Text} (hdigits : IsNumeral 2 digits) (hbound : number 2 digits < 2 ^ 63) :
    b.Lenient name ('=' :: '0' :: 'b' :: '+' :: digits) (.int (number 2 digits))
  /-- `NAME=0b-101` binds the negated number. -/
  | minus {digits : Text} (hdigits : IsNumeral 2 digits) (hbound : number 2 digits ≤ 2 ^ 63) :
    b.Lenient name ('=' :: '0' :: 'b' :: '-' :: digits) (.int (-(number 2 digits : Int)))
  /-- `NAME=011` binds the number. -/
  | zeros {digits : Text} (hdigits : IsNumeral 10 digits) (hzero : digits.head? = some '0')
    (hother : ∃ c ∈ digits, c ≠ '0') (hbound : number 10 digits < 2 ^ 63) :
    b.Lenient name ('=' :: digits) (.int (number 10 digits))
  /-- `NAME+=chr(+97)` appends the character. -/
  | append {digits text : Text} {c : Char} (hdigits : IsNumeral 10 digits)
    (hcode : number 10 digits = c.toNat) (hname : b.get? name = some (.str text)) :
    b.Lenient name (['+', '=', 'c', 'h', 'r', '(', '+'] ++ (digits ++ [')'])) (.str (text ++ [c]))

end Bindings

namespace Assignment

open Numeral

theorem assigned?_decimal {literal : Text} (hempty : literal ≠ ['\'', '\''])
    (hbits : ['0', 'b'].isPrefixOf? literal = none) :
    assigned? literal =
      ((read? 10 literal).filter (· < intBound)).map fun n : Nat => .int n := by
  simp only [assigned?, if_neg hempty, hbits]
  cases (read? 10 literal).filter (· < intBound) <;> rfl

theorem assigned?_eq_some_iff {literal : Text} {v : Value} :
    assigned? literal = some v ↔
      (literal = ['\'', '\''] ∧ v = .str []) ∨
      (∃ bits i, literal = '0' :: 'b' :: bits ∧ readSigned? 2 intBound bits = some i ∧ v = .int i) ∨
      (IsNumeral 10 literal ∧ number 10 literal < intBound ∧ v = .int (number 10 literal)) := by
  constructor
  · intro h
    by_cases hempty : literal = ['\'', '\'']
    · subst hempty
      cases h
      exact .inl ⟨rfl, rfl⟩
    · cases hbits : ['0', 'b'].isPrefixOf? literal with
      | some bits =>
        simp only [assigned?, if_neg hempty, hbits] at h
        obtain ⟨i, hi, rfl⟩ := Option.map_eq_some_iff.1 h
        exact .inr (.inl ⟨bits, i, (List.isPrefixOf?_eq_some_iff_append_eq.1 hbits).symm, hi, rfl⟩)
      | none =>
        rw [assigned?_decimal hempty hbits] at h
        obtain ⟨n, hn, rfl⟩ := Option.map_eq_some_iff.1 h
        obtain ⟨hn, hlt⟩ := Option.filter_eq_some_iff.1 hn
        obtain ⟨hliteral, rfl⟩ := (read?_eq_some_iff (Nat.le_refl 10)).1 hn
        exact .inr (.inr ⟨hliteral, of_decide_eq_true hlt, rfl⟩)
  · rintro (⟨rfl, rfl⟩ | ⟨bits, i, rfl, hi, rfl⟩ | ⟨hliteral, hlt, rfl⟩)
    · rfl
    · have hbits : ['0', 'b'].isPrefixOf? ('0' :: 'b' :: bits) = some bits :=
        Text.isPrefixOf?_append ['0', 'b'] bits
      simp [assigned?, hbits, hi]
    · -- neither a quote nor the letter of binary numerals is a digit
      have hempty : literal ≠ ['\'', '\''] := hliteral.ne_cons (Nat.le_refl 10) (by decide) _
      have hbits : ['0', 'b'].isPrefixOf? literal = none := by
        rw [Option.eq_none_iff_forall_ne_some]
        intro bits hbits
        have hletter : 'b' ∉ literal := hliteral.not_mem (Nat.le_refl 10) (by decide)
        rw [← List.isPrefixOf?_eq_some_iff_append_eq.1 hbits] at hletter
        exact hletter (by simp)
      have hread := (read?_eq_some_iff (Nat.le_refl 10)).2 ⟨hliteral, rfl⟩
      rw [assigned?_decimal hempty hbits, hread, Option.filter_some, if_pos (decide_eq_true hlt)]
      rfl

/-- A text that can be assigned holds no `=`. -/
theorem equals_not_mem_of_assigned? {literal : Text} {v : Value} (h : assigned? literal = some v) :
    '=' ∉ literal := by
  rcases assigned?_eq_some_iff.1 h with ⟨rfl, -⟩ | ⟨bits, i, rfl, hi, -⟩ | ⟨hliteral, -⟩
  · decide
  · rcases (readSigned?_eq_some_iff (by decide)).1 hi with
      ⟨digits, rfl | rfl, hdigits, -⟩ | ⟨digits, rfl, hdigits, -⟩ <;>
        simpa using hdigits.not_mem (by decide) (by decide)
  · exact hliteral.not_mem (Nat.le_refl 10) (by decide)

theorem appended?_eq_some_iff {source : Text} {c : Char} :
    appended? source = some c ↔ ∃ digits,
      (source = ['c', 'h', 'r', '('] ++ (digits ++ [')']) ∨
        source = ['c', 'h', 'r', '(', '+'] ++ (digits ++ [')'])) ∧
      IsNumeral 10 digits ∧ number 10 digits = c.toNat := by
  constructor
  · intro h
    simp only [appended?, Option.bind_eq_bind, Option.bind_eq_some_iff] at h
    obtain ⟨rest, hrest, numeral, hnumeral, n, hn, hc⟩ := h
    obtain rfl := List.isPrefixOf?_eq_some_iff_append_eq.1 hrest
    obtain rfl := Text.append_of_dropEnd? hnumeral
    obtain ⟨digits, hsign, hdigits, -, rfl⟩ := (readUnsigned?_eq_some_iff (Nat.le_refl 10)).1 hn
    refine ⟨digits, ?_, hdigits, (toNat_of_scalar? hc).symm⟩
    rcases hsign with rfl | rfl
    · exact .inl rfl
    · exact .inr rfl
  · rintro ⟨digits, hsource, hdigits, hcode⟩
    have hbound : number 10 digits < codeBound := hcode ▸ c.val.toNat_lt
    have happended : ∀ numeral, numeral = digits ∨ numeral = '+' :: digits →
        appended? (['c', 'h', 'r', '('] ++ (numeral ++ [')'])) = some c := by
      intro numeral hsign
      have hread := (readUnsigned?_eq_some_iff (Nat.le_refl 10)).2
        ⟨digits, hsign, hdigits, hbound, rfl⟩
      rw [appended?, Text.isPrefixOf?_append]
      simp [Text.dropEnd?_append, hread, hcode, scalar?_toNat]
    rcases hsource with rfl | rfl
    · exact happended digits (.inl rfl)
    · exact happended ('+' :: digits) (.inr rfl)

end Assignment

namespace Bindings

open Assignment Numeral

variable {b : Bindings} {source name tail : Text} {v w : Value}

/-! ## Reading the forms -/

theorem recognise?_set (hname : isTarget name = true) {literal : Text}
    (h : assigned? literal = some v) : b.recognise? (name ++ '=' :: literal) = some (name, v) := by
  rw [recognise?, ofSource?_set hname (equals_not_mem_of_assigned? h), h]
  rfl

theorem recognise?_bits (hname : isTarget name = true) {bits : Text} {i : Int}
    (h : readSigned? 2 intBound bits = some i) :
    b.recognise? (name ++ '=' :: '0' :: 'b' :: bits) = some (name, .int i) :=
  recognise?_set hname (assigned?_eq_some_iff.2 (.inr (.inl ⟨bits, i, rfl, h, rfl⟩)))

theorem recognise?_decimal (hname : isTarget name = true) {digits : Text}
    (hdigits : IsNumeral 10 digits) (hbound : number 10 digits < intBound) :
    b.recognise? (name ++ '=' :: digits) = some (name, .int (number 10 digits)) :=
  recognise?_set hname (assigned?_eq_some_iff.2 (.inr (.inr ⟨hdigits, hbound, rfl⟩)))

theorem recognise?_append (hname : isTarget name = true) {rest text : Text} {c : Char}
    (h : appended? rest = some c) (htext : b.get? name = some (.str text)) :
    b.recognise? (name ++ '+' :: '=' :: rest) = some (name, .str (text ++ [c])) := by
  rw [recognise?, ofSource?_append hname, h]
  simp [binding?, htext]

theorem exists_of_recognise? (h : b.recognise? source = some (name, v)) :
    isTarget name = true ∧
      ((∃ literal, source = name ++ '=' :: literal ∧ assigned? literal = some v) ∨
        ∃ rest c text, source = name ++ '+' :: '=' :: rest ∧ appended? rest = some c ∧
          b.get? name = some (.str text) ∧ v = .str (text ++ [c])) := by
  obtain ⟨a, ha, hbinding⟩ := Option.bind_eq_some_iff.1 h
  unfold ofSource? at ha
  split at ha
  next target rest hcut =>
    obtain ⟨htarget, ha⟩ := Option.ite_none_right_eq_some.1 ha
    obtain ⟨c, hc, rfl⟩ := Option.map_eq_some_iff.1 ha
    simp only [binding?] at hbinding
    split at hbinding
    next text htext =>
      cases hbinding
      exact ⟨htarget, .inr ⟨rest, c, text, Text.append_of_cutAt? hcut, hc, htext, rfl⟩⟩
    next => cases hbinding
  next =>
    split at ha
    next target literal hcut =>
      obtain ⟨htarget, ha⟩ := Option.ite_none_right_eq_some.1 ha
      obtain ⟨u, hu, rfl⟩ := Option.map_eq_some_iff.1 ha
      cases hbinding
      exact ⟨htarget, .inl ⟨literal, Text.append_of_cutAt? hcut, hu⟩⟩
    next => cases ha

theorem meant_or_lenient_of_assigned? {literal : Text} (h : assigned? literal = some v) :
    b.Meant name ('=' :: literal) v ∨ b.Lenient name ('=' :: literal) v := by
  rcases assigned?_eq_some_iff.1 h with ⟨rfl, rfl⟩ | ⟨bits, i, rfl, hi, rfl⟩ | ⟨hliteral, hlt, rfl⟩
  · exact .inl .empty
  · rcases (readSigned?_eq_some_iff (by decide)).1 hi with
      ⟨digits, rfl | rfl, hdigits, hlt, rfl⟩ | ⟨digits, rfl, hdigits, hle, rfl⟩
    · exact .inl (.binary hdigits hlt)
    · exact .inr (.plus hdigits hlt)
    · exact .inr (.minus hdigits hle)
  · by_cases hzeros : literal.head? = some '0' → ∀ c ∈ literal, c = '0'
    · exact .inl (.decimal hliteral hzeros hlt)
    · push Not at hzeros
      exact .inr (.zeros hliteral hzeros.1 hzeros.2 hlt)

theorem meant_or_lenient_of_appended? {rest text : Text} {c : Char} (h : appended? rest = some c)
    (htext : b.get? name = some (.str text)) :
    b.Meant name ('+' :: '=' :: rest) (.str (text ++ [c])) ∨
      b.Lenient name ('+' :: '=' :: rest) (.str (text ++ [c])) := by
  obtain ⟨digits, rfl | rfl, hdigits, hcode⟩ := appended?_eq_some_iff.1 h
  · exact .inl (.append hdigits hcode htext)
  · exact .inr (.append hdigits hcode htext)

theorem Meant.recognise?_eq (h : b.Meant name tail v) (hname : isTarget name = true) :
    b.recognise? (name ++ tail) = some (name, v) := by
  cases h with
  | empty => exact recognise?_set hname rfl
  | binary hdigits hbound =>
    apply recognise?_bits hname
    exact (readSigned?_eq_some_iff (by decide)).2 (.inl ⟨_, .inl rfl, hdigits, hbound, rfl⟩)
  | decimal hdigits _ hbound => exact recognise?_decimal hname hdigits hbound
  | append hdigits hcode htext =>
    exact recognise?_append hname (appended?_eq_some_iff.2 ⟨_, .inl rfl, hdigits, hcode⟩) htext

theorem Lenient.recognise?_eq (h : b.Lenient name tail v) (hname : isTarget name = true) :
    b.recognise? (name ++ tail) = some (name, v) := by
  cases h with
  | plus hdigits hbound =>
    apply recognise?_bits hname
    exact (readSigned?_eq_some_iff (by decide)).2 (.inl ⟨_, .inr rfl, hdigits, hbound, rfl⟩)
  | minus hdigits hbound =>
    apply recognise?_bits hname
    exact (readSigned?_eq_some_iff (by decide)).2 (.inr ⟨_, rfl, hdigits, hbound, rfl⟩)
  | zeros hdigits _ _ hbound => exact recognise?_decimal hname hdigits hbound
  | append hdigits hcode htext =>
    exact recognise?_append hname (appended?_eq_some_iff.2 ⟨_, .inr rfl, hdigits, hcode⟩) htext

/-- No text is of a form that is meant and of one that is let through. -/
theorem Meant.not_lenient (h : b.Meant name tail v) : ¬ b.Lenient name tail w := by
  intro h'
  cases h with
  | empty =>
    cases h' with
    | zeros hdigits' => exact hdigits'.not_mem (Nat.le_refl 10) (by decide) List.mem_cons_self
  | binary hdigits =>
    cases h' with
    | plus => exact hdigits.not_mem (by decide) (by decide) List.mem_cons_self
    | minus => exact hdigits.not_mem (by decide) (by decide) List.mem_cons_self
    | zeros hdigits' => exact hdigits'.not_mem (c := 'b') (Nat.le_refl 10) (by decide) (by simp)
  | decimal hdigits hzeros =>
    cases h' with
    | plus => exact hdigits.not_mem (c := 'b') (Nat.le_refl 10) (by decide) (by simp)
    | minus => exact hdigits.not_mem (c := 'b') (Nat.le_refl 10) (by decide) (by simp)
    | zeros _ hzero hother =>
      obtain ⟨c, hc, hne⟩ := hother
      exact hne (hzeros hzero c hc)
  | @append digits _ _ hdigits =>
    generalize htail : ['+', '=', 'c', 'h', 'r', '('] ++ (digits ++ [')']) = tail at h'
    cases h' with
    | @append digits' =>
      have hnumeral : digits ++ [')'] = '+' :: digits' ++ [')'] := List.append_cancel_left htail
      exact hdigits.ne_cons (Nat.le_refl 10) (by decide) digits' (List.append_cancel_right hnumeral)
    | plus => cases htail
    | minus => cases htail
    | zeros => cases htail

/-! ## The texts that bind -/

/-- The text is a name and behind it a form that is meant. -/
def Means (b : Bindings) (source name : Text) (v : Value) : Prop :=
  name.IsName ∧ ∃ tail, source = name ++ tail ∧ b.Meant name tail v

/-- The text is a name and behind it a form that is let through. -/
def Admits (b : Bindings) (source name : Text) (v : Value) : Prop :=
  name.IsName ∧ ∃ tail, source = name ++ tail ∧ b.Lenient name tail v

theorem recognise?_eq_some_iff :
    b.recognise? source = some (name, v) ↔ b.Means source name v ∨ b.Admits source name v := by
  constructor
  · intro h
    obtain ⟨htarget, hforms⟩ := exists_of_recognise? h
    have hname := isTarget_iff.1 htarget
    rcases hforms with ⟨literal, hsource, hv⟩ | ⟨rest, c, text, hsource, hc, htext, rfl⟩
    · exact (meant_or_lenient_of_assigned? hv).imp
        (fun hform => ⟨hname, _, hsource, hform⟩) fun hform => ⟨hname, _, hsource, hform⟩
    · exact (meant_or_lenient_of_appended? hc htext).imp
        (fun hform => ⟨hname, _, hsource, hform⟩) fun hform => ⟨hname, _, hsource, hform⟩
  · rintro (⟨hname, tail, rfl, hform⟩ | ⟨hname, tail, rfl, hform⟩)
    · exact hform.recognise?_eq (isTarget_iff.2 hname)
    · exact hform.recognise?_eq (isTarget_iff.2 hname)

/-- A text that is let through is not meant to bind anything, neither the same name nor another. -/
theorem Admits.not_means {other : Text} (h : b.Admits source name v) :
    ¬ b.Means source other w := by
  intro h'
  have hbinds := recognise?_eq_some_iff.2 (.inr h)
  rw [recognise?_eq_some_iff.2 (.inl h')] at hbinds
  cases hbinds
  obtain ⟨-, tail, rfl, hform⟩ := h
  obtain ⟨-, tail', htail, hform'⟩ := h'
  cases List.append_cancel_left htail
  exact hform'.not_lenient hform

theorem recognise?_eq_none (hmeans : ∀ name v, ¬ b.Means source name v)
    (hadmits : ∀ name v, ¬ b.Admits source name v) : b.recognise? source = none := by
  rw [Option.eq_none_iff_forall_ne_some]
  rintro ⟨name, v⟩ h
  rcases recognise?_eq_some_iff.1 h with h | h
  · exact hmeans name v h
  · exact hadmits name v h

/-- The texts that bind a variable are those of the forms that are meant and of the forms that are
let through, and each binds what its form says. So the forms that are meant are the only ones but
for the texts that are let through, and all other texts leave the variables alone. -/
theorem recognition_exact (b : Bindings) (source : Text) :
    (∀ name v, b.recognise? source = some (name, v) ↔
      b.Means source name v ∨ b.Admits source name v) ∧
    ((∀ name v, b.recognise? source = some (name, v) ↔ b.Means source name v) ↔
      ∀ name v, ¬ b.Admits source name v) ∧
    (∀ name v, b.Means source name v ∨ b.Admits source name v →
      b.execute source = b.set name v) ∧
    ((∀ name v, ¬ b.Means source name v) → (∀ name v, ¬ b.Admits source name v) →
      b.execute source = b) := by
  refine ⟨fun _ _ => recognise?_eq_some_iff, ⟨?_, ?_⟩, ?_, ?_⟩
  · intro hexact name v h
    exact h.not_means ((hexact name v).1 (recognise?_eq_some_iff.2 (.inr h)))
  · intro hadmits name v
    rw [recognise?_eq_some_iff, or_iff_left (hadmits name v)]
  · intro name v h
    rw [execute, recognise?_eq_some_iff.2 h]
  · intro hmeans hadmits
    rw [execute, recognise?_eq_none hmeans hadmits]

/-- A decimal numeral binds its number, and a sign in front of it leaves the variables alone. -/
theorem recognition_exact_decimal :
    (({} : Bindings).Means ['x', '=', '1', '1'] ['x'] (.int 11) ∧
      ({} : Bindings).execute ['x', '=', '1', '1'] = ({} : Bindings).set ['x'] (.int 11)) ∧
    (∀ name v, ¬ ({} : Bindings).Means ['x', '=', '-', '1'] name v) ∧
      (∀ name v, ¬ ({} : Bindings).Admits ['x', '=', '-', '1'] name v) ∧
      ({} : Bindings).execute ['x', '=', '-', '1'] = {} := by
  obtain ⟨-, -, hbinds, -⟩ := recognition_exact {} ['x', '=', '1', '1']
  obtain ⟨hexact, -, -, hleft⟩ := recognition_exact {} ['x', '=', '-', '1']
  have hmeans : ({} : Bindings).Means ['x', '=', '1', '1'] ['x'] (.int 11) := by
    obtain ⟨hdigits, hnumber⟩ := (read?_eq_some_iff (Nat.le_refl 10) (t := ['1', '1'])).1 rfl
    refine ⟨isTarget_iff.1 rfl, ['=', '1', '1'], rfl, ?_⟩
    exact .decimal hdigits (by decide) (by rw [hnumber]; decide)
  have hnone : ∀ name v, ¬ (({} : Bindings).Means ['x', '=', '-', '1'] name v ∨
      ({} : Bindings).Admits ['x', '=', '-', '1'] name v) := by
    intro name v h
    cases (hexact name v).2 h
  have hmeans' := fun name v h => hnone name v (.inl h)
  have hadmits' := fun name v h => hnone name v (.inr h)
  exact ⟨⟨hmeans, hbinds _ _ (.inl hmeans)⟩, hmeans', hadmits', hleft hmeans' hadmits'⟩

/-- A sign behind `0b`, zeros in front of other digits and a plus in `chr(…)` are let through,
though none of the three texts is meant to bind anything. -/
theorem recognition_exceeds_forms :
    (({} : Bindings).recognise? ['x', '=', '0', 'b', '-', '1'] = some (['x'], .int (-1)) ∧
      ∀ name v, ¬ ({} : Bindings).Means ['x', '=', '0', 'b', '-', '1'] name v) ∧
    (({} : Bindings).recognise? ['x', '=', '0', '0', '7'] = some (['x'], .int 7) ∧
      ∀ name v, ¬ ({} : Bindings).Means ['x', '=', '0', '0', '7'] name v) ∧
    ((⟨[(['y'], .str [])]⟩ : Bindings).recognise?
        ['y', '+', '=', 'c', 'h', 'r', '(', '+', '9', '7', ')'] = some (['y'], .str ['a']) ∧
      ∀ name v, ¬ (⟨[(['y'], .str [])]⟩ : Bindings).Means
        ['y', '+', '=', 'c', 'h', 'r', '(', '+', '9', '7', ')'] name v) := by
  have hone : IsNumeral 2 ['1'] ∧ number 2 ['1'] = 1 :=
    (read?_eq_some_iff (by decide)).1 rfl
  have hseven : IsNumeral 10 ['0', '0', '7'] ∧ number 10 ['0', '0', '7'] = 7 :=
    (read?_eq_some_iff (Nat.le_refl 10)).1 rfl
  have hcode : IsNumeral 10 ['9', '7'] ∧ number 10 ['9', '7'] = 'a'.toNat :=
    (read?_eq_some_iff (Nat.le_refl 10)).1 rfl
  have hsign : ({} : Bindings).Admits ['x', '=', '0', 'b', '-', '1'] ['x'] (.int (-1)) :=
    ⟨isTarget_iff.1 rfl, _, rfl, .minus hone.1 (by rw [hone.2]; decide)⟩
  have hzeros : ({} : Bindings).Admits ['x', '=', '0', '0', '7'] ['x'] (.int 7) :=
    ⟨isTarget_iff.1 rfl, _, rfl, .zeros hseven.1 rfl ⟨'7', by decide, by decide⟩
      (by rw [hseven.2]; decide)⟩
  have hempty : (⟨[(['y'], .str [])]⟩ : Bindings).get? ['y'] = some (.str []) := rfl
  have hplus : (⟨[(['y'], .str [])]⟩ : Bindings).Admits
      ['y', '+', '=', 'c', 'h', 'r', '(', '+', '9', '7', ')'] ['y'] (.str ['a']) :=
    ⟨isTarget_iff.1 rfl, _, rfl, .append hcode.1 hcode.2 hempty⟩
  exact ⟨⟨recognise?_eq_some_iff.2 (.inr hsign), fun _ _ => hsign.not_means⟩,
    ⟨recognise?_eq_some_iff.2 (.inr hzeros), fun _ _ => hzeros.not_means⟩,
    recognise?_eq_some_iff.2 (.inr hplus), fun _ _ => hplus.not_means⟩

end Bindings

end Octoglyph
