import Mathlib.Data.List.Basic
import Octoglyph.Binding
import Octoglyph.Proofs.Numeral

/-! # What executing a statement binds

Setting a variable is seen under its own name only. Each of the forms that an encoded program
executes is recognised for every name and number that can stand in it.
-/

namespace Octoglyph

/-! ## Variables -/

namespace Bindings

variable (b : Bindings) {name other : Text} (v w : Value)

private theorem lookup_filter_ne (entries : List (Text × Value)) (h : name ≠ other) :
    (entries.filter fun entry => entry.1 != name).lookup other = entries.lookup other := by
  induction entries with
  | nil => rfl
  | cons entry rest ih =>
    obtain ⟨key, u⟩ := entry
    by_cases hkey : key = name
    · subst hkey
      have hother : (other == key) = false := by simpa using h.symm
      rw [List.filter_cons_of_neg (by simp), List.lookup_cons, hother, ih]
    · rw [List.filter_cons_of_pos (by simpa using hkey), List.lookup_cons, List.lookup_cons, ih]

@[simp] theorem get?_set_self : (b.set name v).get? name = some v := by
  simp [get?, set]

theorem get?_set_of_ne (h : name ≠ other) : (b.set name v).get? other = b.get? other := by
  have hother : (other == name) = false := by simpa using h.symm
  rw [get?, set, List.lookup_cons, hother]
  exact lookup_filter_ne b.entries h

@[simp] theorem set_set : (b.set name v).set name w = b.set name w := by
  simp [set, List.filter_filter]

end Bindings

/-! ## Dividing a text -/

namespace Text

theorem isPrefixOf?_append (front rest : Text) : front.isPrefixOf? (front ++ rest) = some rest :=
  List.isPrefixOf?_eq_some_iff_append_eq.2 rfl

theorem isPrefixOf?_cons_of_ne {c d : Char} (h : c ≠ d) (mark rest : Text) :
    (c :: mark).isPrefixOf? (d :: rest) = none := by
  simp [List.isPrefixOf?, h]

/-- What does not hold the first character of a mark is passed over. -/
theorem cutAfter_append_of_not_mem {c : Char} {before : Text} (h : c ∉ before)
    (mark front text : Text) :
    cutAfter (c :: mark) front (before ++ text) =
      cutAfter (c :: mark) (before.reverse ++ front) text := by
  induction before generalizing front with
  | nil => rfl
  | cons d before ih =>
    have hd : c ≠ d := fun e => h (e ▸ List.mem_cons_self)
    have hbefore : c ∉ before := fun hm => h (List.mem_cons_of_mem _ hm)
    rw [List.cons_append, cutAfter, isPrefixOf?_cons_of_ne hd]
    simpa using ih hbefore (d :: front)

/-- A mark is found where its first character first occurs. -/
theorem cutAt?_append {c : Char} {before : Text} (h : c ∉ before) (mark rest : Text) :
    cutAt? (c :: mark) (before ++ (c :: mark ++ rest)) = some (before, rest) := by
  rw [cutAt?, cutAfter_append_of_not_mem h, cutAfter.eq_def, isPrefixOf?_append]
  simp

theorem isSome_cutAfter {mark front text : Text} :
    (cutAfter mark front text).isSome ↔ mark <:+: text := by
  have hprefix : ∀ t : Text, (mark.isPrefixOf? t).isSome ↔ mark <+: t := by
    intro t
    rw [List.isSome_isPrefixOf?_eq_isPrefixOf, List.isPrefixOf_iff_prefix]
  induction text generalizing front with
  | nil =>
    rw [List.infix_nil, ← List.prefix_nil, ← hprefix]
    unfold cutAfter
    cases mark.isPrefixOf? [] <;> rfl
  | cons c rest ih =>
    rw [List.infix_cons_iff, ← hprefix]
    unfold cutAfter
    cases mark.isPrefixOf? (c :: rest) with
    | none => simpa using ih
    | some behind => simp

theorem cutAfter_eq_none_iff {mark front text : Text} :
    cutAfter mark front text = none ↔ ¬ mark <:+: text := by
  rw [← isSome_cutAfter, Option.not_isSome_iff_eq_none]

theorem append_of_cutAfter {mark front text before rest : Text}
    (h : cutAfter mark front text = some (before, rest)) :
    front.reverse ++ text = before ++ (mark ++ rest) := by
  induction text generalizing front with
  | nil =>
    unfold cutAfter at h
    split at h
    next hmark =>
      cases h
      rw [List.isPrefixOf?_eq_some_iff_append_eq.1 hmark]
    next => cases h
  | cons c text ih =>
    unfold cutAfter at h
    split at h
    next hmark =>
      cases h
      rw [List.isPrefixOf?_eq_some_iff_append_eq.1 hmark]
    next =>
      rw [← ih h]
      simp

/-- Where a text is cut, the mark stands between the two parts. -/
theorem append_of_cutAt? {mark text before rest : Text}
    (h : cutAt? mark text = some (before, rest)) : text = before ++ (mark ++ rest) :=
  append_of_cutAfter h

theorem dropEnd?_append (front tail : Text) : dropEnd? tail (front ++ tail) = some front := by
  rw [dropEnd?, List.reverse_append, isPrefixOf?_append]
  simp

theorem append_of_dropEnd? {front tail text : Text} (h : dropEnd? tail text = some front) :
    text = front ++ tail := by
  obtain ⟨reversed, hreversed, rfl⟩ := Option.map_eq_some_iff.1 h
  rw [← List.reverse_inj, List.reverse_append, List.reverse_reverse,
    List.isPrefixOf?_eq_some_iff_append_eq.1 hreversed]

end Text

theorem scalar?_toNat (c : Char) : scalar? c.toNat = some c := by
  have hvalid : c.toNat.isValidChar := c.valid
  rw [scalar?, if_pos hvalid, Char.ofNat_toNat]

theorem toNat_of_scalar? {code : Nat} {c : Char} (h : scalar? code = some c) :
    c.toNat = code := by
  unfold scalar? at h
  split at h
  next hvalid =>
    cases h
    rw [Char.ofNat, dif_pos hvalid]
    rfl
  next => cases h

/-! ## The forms that bind -/

theorem isWordChar_of_mem_target {name : Text} {c : Char} (h : isTarget name = true)
    (hc : c ∈ name) : isWordChar c = true := by
  cases name with
  | nil => cases hc
  | cons d rest =>
    obtain ⟨hd, hrest⟩ := Bool.and_eq_true_iff.1 h
    rcases List.mem_cons.1 hc with rfl | hc
    · rcases Bool.or_eq_true_iff.1 hd with hd | hd
      · simp [isWordChar, Char.isAlphanum, hd]
      · simp [isWordChar, hd]
    · exact List.all_eq_true.1 hrest c hc

theorem not_mem_of_isTarget {name : Text} {c : Char} (h : isTarget name = true)
    (hc : isWordChar c = false) : c ∉ name := fun hmem => by
  rw [isWordChar_of_mem_target h hmem] at hc
  cases hc

namespace Ident

theorem isTarget_text (i : Ident) : isTarget i.text = true := by
  simpa [isTarget, text, i.first_isAlpha] using i.rest_isWord

theorem not_mem_text_of_not_isWordChar {i : Ident} {c : Char} (h : isWordChar c = false) :
    c ∉ i.text :=
  not_mem_of_isTarget i.isTarget_text h

end Ident

namespace Assignment

variable {name : Text}

theorem ofSource?_set (hname : isTarget name = true) {literal : Text} (h : '=' ∉ literal) :
    ofSource? (name ++ '=' :: literal) = (assigned? literal).map (.set name) := by
  have hplus : '+' ∉ name ++ ['='] := by
    have hmem : '+' ∉ name := not_mem_of_isTarget hname (by decide)
    simpa using hmem
  have happend : Text.cutAt? ['+', '='] (name ++ '=' :: literal) = none := by
    rw [List.append_cons, Text.cutAt?, Text.cutAfter_append_of_not_mem hplus,
      Text.cutAfter_eq_none_iff]
    exact fun hinside => h (hinside.subset (by simp))
  have hset : Text.cutAt? ['='] (name ++ '=' :: literal) = some (name, literal) :=
    Text.cutAt?_append (not_mem_of_isTarget hname (by decide)) [] literal
  simp [ofSource?, happend, hset, hname]

theorem ofSource?_append (hname : isTarget name = true) (source : Text) :
    ofSource? (name ++ '+' :: '=' :: source) = (appended? source).map (.append name) := by
  have hcut : Text.cutAt? ['+', '='] (name ++ '+' :: '=' :: source) = some (name, source) :=
    Text.cutAt?_append (not_mem_of_isTarget hname (by decide)) ['='] source
  simp [ofSource?, hcut, hname]

theorem assigned?_binary {n : Nat} (h : n < intBound) :
    assigned? ('0' :: 'b' :: Numeral.binary n) = some (.int n) := by
  have hbits : ['0', 'b'].isPrefixOf? ('0' :: 'b' :: Numeral.binary n) =
      some (Numeral.binary n) := Text.isPrefixOf?_append ['0', 'b'] _
  simp [assigned?, hbits, Numeral.readSigned?_text (Nat.le_refl 2) (by decide) h]

theorem appended?_chr (c : Char) :
    appended? (['c', 'h', 'r', '('] ++ (Numeral.decimal c.toNat ++ [')'])) = some c := by
  have hbound : c.toNat < codeBound := c.val.toNat_lt
  have hread : Numeral.readUnsigned? 10 codeBound (Numeral.decimal c.toNat) = some c.toNat :=
    Numeral.readUnsigned?_text (by decide) (by decide) hbound
  rw [appended?, Text.isPrefixOf?_append]
  simp [Text.dropEnd?_append, hread, scalar?_toNat]

end Assignment

namespace Bindings

open Assignment

theorem execute_of_set {b : Bindings} {source name : Text} {v : Value}
    (h : ofSource? source = some (.set name v)) : b.execute source = b.set name v := by
  simp [execute, recognise?, h, binding?]

theorem execute_of_append {b : Bindings} {source name text : Text} {c : Char}
    (h : ofSource? source = some (.append name c)) (htext : b.get? name = some (.str text)) :
    b.execute source = b.set name (.str (text ++ [c])) := by
  simp [execute, recognise?, h, binding?, htext]

/-- Executing `name=0b…` binds the name to the number. -/
theorem execute_binary (b : Bindings) (name : Ident) {n : Nat} (h : n < intBound) :
    b.execute (name.text ++ '=' :: '0' :: 'b' :: Numeral.binary n) =
      b.set name.text (.int n) := by
  have hequals : '=' ∉ '0' :: 'b' :: Numeral.binary n := by
    have htext : '=' ∉ Numeral.binary n :=
      Numeral.not_mem_text (Nat.le_refl 2) (by decide) (by decide)
    simpa using htext
  apply execute_of_set
  rw [ofSource?_set name.isTarget_text hequals, assigned?_binary h]
  rfl

/-- Executing `name=''` binds the name to the empty string. -/
theorem execute_empty (b : Bindings) (name : Ident) :
    b.execute (name.text ++ ['=', '\'', '\'']) = b.set name.text (.str []) := by
  apply execute_of_set
  rw [ofSource?_set name.isTarget_text (by decide)]
  rfl

/-- Executing `name+=chr(…)` puts the character behind the string that the name is bound to. -/
theorem execute_chr {b : Bindings} {name : Ident} {text : Text}
    (h : b.get? name.text = some (.str text)) (c : Char) :
    b.execute (name.text ++ ['+', '=', 'c', 'h', 'r', '('] ++ Numeral.decimal c.toNat ++ [')']) =
      b.set name.text (.str (text ++ [c])) := by
  have hshape : name.text ++ ['+', '=', 'c', 'h', 'r', '('] ++ Numeral.decimal c.toNat ++ [')'] =
      name.text ++ '+' :: '=' :: (['c', 'h', 'r', '('] ++ (Numeral.decimal c.toNat ++ [')'])) := by
    simp
  refine execute_of_append ?_ h
  rw [hshape, ofSource?_append name.isTarget_text, appended?_chr]
  rfl

end Bindings

end Octoglyph
