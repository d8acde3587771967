import Octoglyph.Proofs.Application

/-! # Which templates take which values

Percents pair up from the left. A template is therefore a text with doubled percents, up to the
first percent that is left without a partner. What stands there decides everything: a value is taken
by one such percent in front of a letter that suits the value, with doubled percents behind it, and
the empty tuple by none.
-/

namespace Octoglyph

/-! ## Doubled percents -/

/-- The text with every percent doubled. -/
def escape (text : Text) : Text := text.flatMap fun c => if c = '%' then ['%', '%'] else [c]

@[simp] theorem escape_nil : escape [] = [] := rfl

@[simp] theorem escape_percent (text : Text) :
    escape ('%' :: text) = '%' :: '%' :: escape text := rfl

theorem escape_cons_of_ne {c : Char} (h : c ≠ '%') (text : Text) :
    escape (c :: text) = c :: escape text := by
  simp [escape, h]

/-- The scanner's view of a template: all percents have partners, or the first one that has none
stands at the end or in front of a letter. -/
inductive Paired : Text → Prop where
  | whole (text : Text) : Paired (escape text)
  | broken (text : Text) : Paired (escape text ++ ['%'])
  | live (text : Text) {letter : Char} (h : letter ≠ '%') (rest : Text) :
    Paired (escape text ++ '%' :: letter :: rest)

namespace Paired

variable {template : Text}

theorem percent (h : Paired template) : Paired ('%' :: '%' :: template) := by
  cases h with
  | whole text => exact .whole ('%' :: text)
  | broken text => exact .broken ('%' :: text)
  | live text hletter rest => exact .live ('%' :: text) hletter rest

theorem cons {c : Char} (hc : c ≠ '%') (h : Paired template) : Paired (c :: template) := by
  cases h with
  | whole text => exact escape_cons_of_ne hc text ▸ .whole (c :: text)
  | broken text =>
    rw [← List.cons_append, ← escape_cons_of_ne hc]
    exact .broken (c :: text)
  | live text hletter rest =>
    rw [← List.cons_append, ← escape_cons_of_ne hc]
    exact .live (c :: text) hletter rest

end Paired

/-- Every text is of one of these forms. -/
theorem paired : (template : Text) → Paired template
  | [] => .whole []
  | [c] => by
    by_cases hc : c = '%'
    · exact hc ▸ .broken []
    · exact .cons hc (.whole [])
  | c :: d :: rest => by
    by_cases hc : c = '%'
    · subst hc
      by_cases hd : d = '%'
      · exact hd ▸ (paired rest).percent
      · exact .live [] hd rest
    · exact .cons hc (paired (d :: rest))

/-- The percent without a partner stands in one place only. -/
theorem escape_append_inj {text other : Text} {letter letter' : Char} {rest rest' : Text}
    (hletter : letter ≠ '%') (hletter' : letter' ≠ '%')
    (h : escape text ++ '%' :: letter :: rest = escape other ++ '%' :: letter' :: rest') :
    text = other ∧ letter = letter' ∧ rest = rest' := by
  induction text generalizing other with
  | nil =>
    cases other with
    | nil => simpa using h
    | cons d other =>
      by_cases hd : d = '%' <;> grind [escape_nil, escape_percent, escape_cons_of_ne]
  | cons c text ih =>
    cases other with
    | nil => by_cases hc : c = '%' <;> grind [escape_nil, escape_percent, escape_cons_of_ne]
    | cons d other =>
      have hcons : c = d ∧ escape text ++ '%' :: letter :: rest =
          escape other ++ '%' :: letter' :: rest' := by
        by_cases hc : c = '%' <;> by_cases hd : d = '%' <;>
          grind [escape_percent, escape_cons_of_ne]
      obtain ⟨rfl, htail⟩ := hcons
      obtain ⟨rfl, hrest⟩ := ih htail
      exact ⟨rfl, hrest⟩

/-! ## One pass -/

namespace Format

theorem fill_escape_append (text front : Text) (argument? : Option Value) (rest : Text) :
    fill front argument? (escape text ++ rest) = fill (text.reverse ++ front) argument? rest := by
  induction text generalizing front with
  | nil => rfl
  | cons c text ih =>
    by_cases hc : c = '%'
    · subst hc
      rw [escape_percent, List.cons_append, List.cons_append, fill_double_percent, ih]
      simp
    · rw [escape_cons_of_ne hc, List.cons_append, fill_cons_of_ne hc, ih]
      simp

theorem fill_none_escape (text front : Text) :
    fill front none (escape text) = .ok (front.reverse ++ text) := by
  have hpass := fill_escape_append text front none []
  rw [List.append_nil] at hpass
  rw [hpass, fill]
  simp

theorem escape_injective : Function.Injective escape := by
  intro text other h
  have hfill : fill [] none (escape text) = fill [] none (escape other) := congrArg _ h
  rw [fill_none_escape, fill_none_escape] at hfill
  exact Except.ok.inj hfill

/-- Without an argument exactly the doubled percents are taken. -/
theorem fill_none_eq_ok_iff {front template result : Text} :
    fill front none template = .ok result ↔
      ∃ text, template = escape text ∧ result = front.reverse ++ text := by
  constructor
  · intro h
    cases paired template with
    | whole text =>
      rw [fill_none_escape] at h
      exact ⟨text, rfl, (Except.ok.inj h).symm⟩
    | broken text =>
      rw [fill_escape_append] at h
      simp [fill] at h
    | live text hletter rest =>
      rw [fill_escape_append] at h
      simp [fill, hletter] at h
  · rintro ⟨text, rfl, rfl⟩
    exact fill_none_escape text front

/-- Only the letters of conversions are known. -/
theorem exists_writes_of_convert {letter : Char} {v : Value} {word : Text}
    (h : convert letter v = .ok word) : ∃ k : Conversion, k.letter = letter ∧ k.Writes v word := by
  unfold convert at h
  split at h
  next hx => exact ⟨.hex, hx.symm, h⟩
  · split at h
    next hc => exact ⟨.char, hc.symm, h⟩
    · cases h

/-- With an argument, one percent without a partner is taken, and the rest must have partners. -/
theorem fill_some_eq_ok_iff {front template result : Text} {v : Value} :
    fill front (some v) template = .ok result ↔
      ∃ (text rest : Text) (k : Conversion) (word : Text),
        template = escape text ++ '%' :: k.letter :: escape rest ∧ k.Writes v word ∧
          result = front.reverse ++ (text ++ (word ++ rest)) := by
  constructor
  · intro h
    cases paired template with
    | whole text =>
      have hpass := fill_escape_append text front (some v) []
      rw [List.append_nil, h] at hpass
      cases hpass
    | broken text =>
      rw [fill_escape_append] at h
      simp [fill] at h
    | @live text letter hletter rest =>
      rw [fill_escape_append] at h
      cases hword : convert letter v with
      | error fault => simp [fill, hletter, hword] at h
      | ok word =>
        obtain ⟨k, rfl, hk⟩ := exists_writes_of_convert hword
        rw [fill_conversion hword] at h
        obtain ⟨rest, rfl, rfl⟩ := fill_none_eq_ok_iff.1 h
        exact ⟨text, rest, k, word, rfl, hk, by simp⟩
  · rintro ⟨text, rest, k, word, rfl, hword, rfl⟩
    rw [fill_escape_append, fill_conversion hword, fill_none_escape]
    simp

end Format

/-! ## What suits a conversion -/

/-- How a conversion writes a value: `%x` the hexadecimal digits of a number, with a minus sign
before a negative one, and `%c` a string of one character or the character that has the number as
its code. A truth value counts as the number one or zero. -/
inductive Conversion.Formats : Conversion → Value → Text → Prop where
  | hex {v : Value} {n : Int} (h : v.number? = some n) :
    Formats .hex v ((if n < 0 then ['-'] else []) ++ Nat.toDigits 16 n.natAbs)
  | single (c : Char) : Formats .char (.str [c]) [c]
  | code {v : Value} {c : Char} (h : v.number? = some (c.toNat : Int)) : Formats .char v [c]

theorem Numeral.signed_eq_toDigits {base : Nat} (hbase : 2 ≤ base) (n : Int) :
    signed base n = (if n < 0 then ['-'] else []) ++ Nat.toDigits base n.natAbs := by
  cases n with
  | ofNat m =>
    rw [signed, text_eq_toDigits hbase, if_neg (by simp)]
    rfl
  | negSucc m =>
    rw [signed, text_eq_toDigits hbase, if_pos (Int.negSucc_lt_zero m)]
    rfl

theorem Conversion.writes_iff_formats {k : Conversion} {v : Value} {word : Text} :
    k.Writes v word ↔ k.Formats v word := by
  constructor
  · intro h
    cases k with
    | hex =>
      obtain ⟨n, hn, rfl⟩ := Format.hexText_eq_ok_iff.1 h
      rw [Numeral.signed_eq_toDigits (by decide)]
      exact .hex hn
    | char =>
      obtain ⟨c, rfl, rfl | hcode⟩ := Format.exists_of_charText h
      · exact .single c
      · exact .code hcode
  · intro h
    cases h with
    | hex hn =>
      exact Format.hexText_eq_ok_iff.2 ⟨_, hn, (Numeral.signed_eq_toDigits (by decide) _).symm⟩
    | single c => rfl
    | code hcode => exact Format.charText_of_number? hcode

/-! ## The domain of an application -/

/-- The parts of a template that takes one value: what stands before and behind its conversion once
the percents have been halved. -/
@[ext] structure LiveTemplate where
  before : Text
  conversion : Conversion
  behind : Text

namespace LiveTemplate

def text (t : LiveTemplate) : Text :=
  escape t.before ++ '%' :: t.conversion.letter :: escape t.behind

theorem text_injective : Function.Injective text := by
  intro t u h
  obtain ⟨hbefore, hletter, hbehind⟩ :=
    escape_append_inj t.conversion.letter_ne_percent u.conversion.letter_ne_percent h
  have hconversion : t.conversion = u.conversion := by
    revert hletter
    cases t.conversion <;> cases u.conversion <;> decide
  exact LiveTemplate.ext hbefore hconversion (Format.escape_injective hbehind)

end LiveTemplate

namespace Format

theorem apply_str_eq_ok_iff {template : Text} {v result : Value} :
    apply (.str template) v = .ok result ↔
      ∃ text, fill [] (argument? v) template = .ok text ∧ result = .str text := by
  rw [apply]
  cases fill [] (argument? v) template with
  | error fault => simp [Except.map]
  | ok text => simp [Except.map, eq_comm]

/-- The empty tuple is taken by texts without a conversion. -/
theorem apply_unit_eq_ok_iff {template : Text} {result : Value} :
    apply (.str template) .unit = .ok result ↔
      ∃ text, escape text = template ∧ result = .str text := by
  rw [apply_str_eq_ok_iff]
  constructor
  · rintro ⟨filled, hfill, rfl⟩
    obtain ⟨text, rfl, hfilled⟩ := fill_none_eq_ok_iff.1 hfill
    exact ⟨text, rfl, congrArg _ hfilled⟩
  · rintro ⟨text, rfl, rfl⟩
    exact ⟨text, fill_none_escape text [], rfl⟩

/-- Every other value is taken by one conversion. -/
theorem apply_eq_ok_iff {template : Text} {v result : Value} (hv : v ≠ .unit) :
    apply (.str template) v = .ok result ↔
      ∃ (t : LiveTemplate) (word : Text), t.text = template ∧ t.conversion.Formats v word ∧
        result = .str (t.before ++ (word ++ t.behind)) := by
  have hargument : argument? v = some v := by
    cases v with
    | unit => exact absurd rfl hv
    | int _ | bool _ | str _ => rfl
  rw [apply_str_eq_ok_iff, hargument]
  constructor
  · rintro ⟨filled, hfill, rfl⟩
    obtain ⟨before, behind, k, word, rfl, hword, rfl⟩ := fill_some_eq_ok_iff.1 hfill
    exact ⟨⟨before, k, behind⟩, word, rfl, Conversion.writes_iff_formats.1 hword, rfl⟩
  · rintro ⟨t, word, rfl, hword, rfl⟩
    exact ⟨_, fill_some_eq_ok_iff.2
      ⟨_, _, _, word, rfl, Conversion.writes_iff_formats.2 hword, rfl⟩, rfl⟩

/-- The exact domain of an application. A value that is no tuple is taken if and only if the
template is a text with doubled percents, a conversion that suits the value, and another such text,
which can be in one way only. The result has the percents halved and the value in place of the
conversion. The empty tuple is taken if and only if the template is a text with doubled percents and
nothing else, and the result is that text. -/
theorem apply_exact_domain (template : Text) :
    (∀ v : Value, v ≠ .unit →
      ((∃ result, apply (.str template) v = .ok result) ↔
        ∃! t : LiveTemplate, t.text = template ∧ ∃ word, t.conversion.Formats v word) ∧
      ∀ (t : LiveTemplate) (word : Text), t.text = template → t.conversion.Formats v word →
        apply (.str template) v = .ok (.str (t.before ++ (word ++ t.behind)))) ∧
    ((∃ result, apply (.str template) .unit = .ok result) ↔ ∃! text, escape text = template) ∧
    ∀ text, escape text = template → apply (.str template) .unit = .ok (.str text) := by
  refine ⟨fun v hv => ⟨⟨?_, ?_⟩, ?_⟩, ⟨?_, ?_⟩, ?_⟩
  · rintro ⟨result, h⟩
    obtain ⟨t, word, rfl, hword, -⟩ := (apply_eq_ok_iff hv).1 h
    exact ⟨t, ⟨rfl, word, hword⟩, fun u hu => LiveTemplate.text_injective hu.1⟩
  · rintro ⟨t, ⟨htext, word, hword⟩, -⟩
    exact ⟨_, (apply_eq_ok_iff hv).2 ⟨t, word, htext, hword, rfl⟩⟩
  · intro t word htext hword
    exact (apply_eq_ok_iff hv).2 ⟨t, word, htext, hword, rfl⟩
  · rintro ⟨result, h⟩
    obtain ⟨text, rfl, -⟩ := apply_unit_eq_ok_iff.1 h
    exact ⟨text, rfl, fun other hother => escape_injective hother⟩
  · rintro ⟨text, htext, -⟩
    exact ⟨_, apply_unit_eq_ok_iff.2 ⟨text, htext, rfl⟩⟩
  · intro text htext
    exact apply_unit_eq_ok_iff.2 ⟨text, htext, rfl⟩

/-- Of three conversions the first takes the value, since the percents in front of the others have
partners; without it they are kept. -/
theorem apply_exact_domain_halves :
    apply (.str "%c%%c%%%%c".toList) (.int 97) = .ok (.str "a%c%%c".toList) ∧
      (¬ ∃ result, apply (.str "%c%%c%%%%c".toList) .unit = .ok result) ∧
        apply (.str "%%c%%%%c".toList) .unit = .ok (.str "%c%%c".toList) := by
  obtain ⟨hvalue, hunit, -⟩ := apply_exact_domain "%c%%c%%%%c".toList
  obtain ⟨-, -, hkept⟩ := apply_exact_domain "%%c%%%%c".toList
  have hformats : Conversion.char.Formats (.int 97) ['a'] := .code rfl
  refine ⟨(hvalue (.int 97) nofun).2 ⟨[], .char, "%c%%c".toList⟩ ['a'] rfl hformats, ?_,
    hkept "%c%%c".toList rfl⟩
  rw [hunit]
  rintro ⟨text, htext, -⟩
  cases text with
  | nil => cases htext
  | cons c text =>
    by_cases hc : c = '%'
    · subst hc
      cases htext
    · rw [escape_cons_of_ne hc] at htext
      exact hc (List.cons.inj htext).1

end Format

end Octoglyph
