import Mathlib.Data.List.Induction
import Octoglyph.Proofs.CodeSet
import Octoglyph.Proofs.Recognition

/-! # Names as a code for numbers

A name spells the bits of its number, so it can be read back, and in 32 letters no bit is lost. More
words can be read than are names: a word with `c` in front is a numeral with zeros in front.
Printing the number of such a word gives the word without them.
-/

namespace Octoglyph

/-! ## Numerals without zeros in front -/

namespace Numeral

variable {base : Nat} {ds : List Nat}

/-- Digits with no zero in front, or a single zero, are the digits of their value. -/
theorem digits_value (hbase : 2 ≤ base) (hds : ∀ d ∈ ds, d < base) (hne : ds ≠ [])
    (hhead : ds.head? = some 0 → ds = [0]) : digits base (value base ds) = ds := by
  induction ds using List.reverseRecOn with
  | nil => exact absurd rfl hne
  | append_singleton front d ih =>
    obtain ⟨hfront, hd⟩ := List.forall_mem_append.1 hds
    have hlast : d < base := hd d (List.mem_singleton_self d)
    rw [value_append_singleton]
    cases front with
    | nil =>
      have hvalue : value base [] * base + d = d := by simp [value]
      rw [hvalue, digits_of_lt hlast]
      rfl
    | cons first front =>
      have hfirst : first ≠ 0 := by
        rintro rfl
        simpa using hhead rfl
      have hdigits := ih hfront (List.cons_ne_nil _ _) (fun h => absurd (Option.some.inj h) hfirst)
      -- a zero would be the only digit of its value
      have hpos : 0 < value base (first :: front) := by
        rw [Nat.pos_iff_ne_zero]
        intro hzero
        rw [hzero, digits_of_lt (by omega)] at hdigits
        exact hfirst (List.cons.inj hdigits).1.symm
      have hle : base ≤ value base (first :: front) * base + d :=
        Nat.le_add_right_of_le (Nat.le_mul_of_pos_left base hpos)
      have hdiv :
          (value base (first :: front) * base + d) / base = value base (first :: front) := by
        rw [Nat.mul_comm, Nat.mul_add_div (by omega), Nat.div_eq_of_lt hlast, Nat.add_zero]
      have hmod : (value base (first :: front) * base + d) % base = d := by
        rw [Nat.mul_comm, Nat.mul_add_mod, Nat.mod_eq_of_lt hlast]
      rw [digits_of_le hbase hle, hdiv, hmod, hdigits]

theorem value_lt (hbase : 2 ≤ base) (hds : ∀ d ∈ ds, d < base) :
    value base ds < base ^ ds.length := by
  rw [value_eq_ofDigits, ← List.length_reverse]
  exact Nat.ofDigits_lt_base_pow_length hbase fun d hd => hds d (List.mem_reverse.1 hd)

end Numeral

namespace DigitName

/-! ## Reading words -/

/-- From one to 32 letters, all of them letters of names. -/
structure IsWord (name : Text) : Prop where
  nonempty : name ≠ []
  length_le : name.length ≤ 32
  letters : ∀ c ∈ name, c = 'c' ∨ c = 'e'

/-- The bits that the letters stand for. -/
def bits (name : Text) : List Nat := name.map fun c => if c = 'e' then 1 else 0

variable {name : Text} {n : UInt32}

theorem lt_of_mem_bits {d : Nat} (h : d ∈ bits name) : d < 2 := by
  obtain ⟨c, -, rfl⟩ := List.mem_map.1 h
  split <;> decide

theorem value_bits_lt (name : Text) : Numeral.value 2 (bits name) < 2 ^ name.length := by
  have hlt := Numeral.value_lt (Nat.le_refl 2) fun d (hd : d ∈ bits name) => lt_of_mem_bits hd
  rwa [bits, List.length_map] at hlt

/-- One letter more: the number is doubled and the bit added, as long as there is room for it. -/
theorem toNat_double_add {bit : UInt32} (hbit : bit.toNat < 2) (h : (n.toNat + 1) * 2 ≤ 2 ^ 32) :
    (2 * n + bit).toNat = n.toNat * 2 + bit.toNat := by
  rw [UInt32.toNat_add, UInt32.toNat_mul]
  have htwo : (2 : UInt32).toNat = 2 := rfl
  rw [htwo]
  omega

theorem exists_bit? {c : Char} (h : c = 'c' ∨ c = 'e') :
    ∃ bit, bit? c = some bit ∧ bit.toNat = if c = 'e' then 1 else 0 := by
  rcases h with rfl | rfl
  · exact ⟨0, rfl, rfl⟩
  · exact ⟨1, rfl, rfl⟩

theorem bit?_eq_none {c : Char} (h : ¬ (c = 'c' ∨ c = 'e')) : bit? c = none := by
  obtain ⟨hzero, hone⟩ := not_or.1 h
  simp [bit?, Alphabet.oneLetter, Alphabet.zeroLetter, hzero, hone]

/-- The letters are read into a number behind which there is room for all of them. -/
theorem foldlM_eq_some_iff {start : UInt32} (h : (start.toNat + 1) * 2 ^ name.length ≤ 2 ^ 32) :
    name.foldlM (fun n c => (bit? c).map (2 * n + ·)) start = some n ↔
      (∀ c ∈ name, c = 'c' ∨ c = 'e') ∧
        n.toNat = (bits name).foldl (fun n d => n * 2 + d) start.toNat := by
  induction name generalizing start with
  | nil => simp [bits, eq_comm, UInt32.toNat_inj]
  | cons c name ih =>
    rw [List.foldlM_cons, List.forall_mem_cons]
    by_cases hc : c = 'c' ∨ c = 'e'
    · obtain ⟨bit, hbit, htoNat⟩ := exists_bit? hc
      have hlt : bit.toNat < 2 := by
        rw [htoNat]
        split <;> decide
      rw [List.length_cons, Nat.pow_succ', ← Nat.mul_assoc] at h
      have hroom : (start.toNat + 1) * 2 ≤ 2 ^ 32 :=
        Nat.le_trans (Nat.le_mul_of_pos_right _ (Nat.two_pow_pos _)) h
      have hnext := toNat_double_add hlt hroom
      have hrest : ((2 * start + bit).toNat + 1) * 2 ^ name.length ≤ 2 ^ 32 :=
        Nat.le_trans (Nat.mul_le_mul_right _ (by omega)) h
      have hfold : (bits (c :: name)).foldl (fun n d => n * 2 + d) start.toNat =
          (bits name).foldl (fun n d => n * 2 + d) (2 * start + bit).toNat := by
        rw [hnext, htoNat]
        rfl
      rw [hbit, hfold, and_iff_right hc]
      exact ih hrest
    · rw [bit?_eq_none hc]
      exact ⟨nofun, fun hname => absurd hname.1.1 hc⟩

/-- Words are what can be read, and what they spell is read without loss. -/
theorem number?_eq_some_iff :
    number? name = some n ↔ IsWord name ∧ n.toNat = Numeral.value 2 (bits name) := by
  have hzero : (0 : UInt32).toNat = 0 := rfl
  unfold number?
  split
  next hname =>
    refine ⟨nofun, ?_⟩
    rintro ⟨hword, -⟩
    rcases Bool.or_eq_true_iff.1 hname with hempty | hlong
    · exact absurd (List.isEmpty_iff.1 hempty) hword.nonempty
    · exact absurd hword.length_le (Nat.not_le.2 (of_decide_eq_true hlong))
  next hname =>
    obtain ⟨hempty, hlong⟩ := not_or.1 (mt Bool.or_eq_true_iff.2 hname)
    have hnonempty : name ≠ [] := mt List.isEmpty_iff.2 hempty
    have hlength : name.length ≤ 32 := Nat.not_lt.1 (mt decide_eq_true hlong)
    have hroom : ((0 : UInt32).toNat + 1) * 2 ^ name.length ≤ 2 ^ 32 := by
      rw [hzero, Nat.zero_add, Nat.one_mul]
      exact Nat.pow_le_pow_right (by decide) hlength
    rw [foldlM_eq_some_iff hroom, hzero]
    constructor
    · rintro ⟨hletters, hvalue⟩
      exact ⟨⟨hnonempty, hlength, hletters⟩, hvalue⟩
    · rintro ⟨hword, hvalue⟩
      exact ⟨hword.letters, hvalue⟩

theorem exists_number?_iff : (∃ n, number? name = some n) ↔ IsWord name := by
  constructor
  · rintro ⟨n, hn⟩
    exact (number?_eq_some_iff.1 hn).1
  · intro hname
    have hlt : Numeral.value 2 (bits name) < 2 ^ 32 :=
      Nat.lt_of_lt_of_le (value_bits_lt name) (Nat.pow_le_pow_right (by decide) hname.length_le)
    refine ⟨UInt32.ofNat (Numeral.value 2 (bits name)), number?_eq_some_iff.2 ⟨hname, ?_⟩⟩
    exact UInt32.toNat_ofNat_of_lt' hlt

/-! ## Names are words -/

theorem isWord_ofNumber (n : UInt32) : IsWord (ofNumber n) where
  nonempty := ofNumber_ne_nil n
  length_le := by
    rw [ofNumber, List.length_map]
    exact Numeral.length_digits_le (Nat.le_refl 2) (by decide) n.toNat_lt
  letters c hc := (eq_of_mem_ofNumber hc).symm

theorem number?_ofNumber (n : UInt32) : number? (ofNumber n) = some n := by
  have hbits : bits (ofNumber n) = Numeral.digits 2 n.toNat := map_ofNumber n
  rw [number?_eq_some_iff, hbits, Numeral.value_digits (Nat.le_refl 2)]
  exact ⟨isWord_ofNumber n, rfl⟩

/-- A word holds no `x`. -/
theorem IsWord.ne_of_mem (h : IsWord name) {other : Text} (hx : 'x' ∈ other) : name ≠ other := by
  rintro rfl
  rcases h.letters 'x' hx with h | h <;> exact absurd h (by decide)

/-! ## Words with zeros in front -/

/-- The word without the letters for zero in front of it. If nothing remains, one of them is
kept. -/
def canonical (name : Text) : Text :=
  match name.dropWhile (· = 'c') with
  | [] => ['c']
  | rest => rest

@[simp] theorem canonical_nil : canonical [] = ['c'] := rfl

@[simp] theorem canonical_zero (name : Text) : canonical ('c' :: name) = canonical name := rfl

theorem canonical_of_ne {c : Char} (h : c ≠ 'c') (name : Text) :
    canonical (c :: name) = c :: name := by
  simp [canonical, h]

theorem value_bits_canonical (name : Text) :
    Numeral.value 2 (bits (canonical name)) = Numeral.value 2 (bits name) := by
  induction name with
  | nil => rfl
  | cons c name ih =>
    by_cases hc : c = 'c'
    · subst hc
      exact ih
    · rw [canonical_of_ne hc]

theorem length_canonical_le (name : Text) : (canonical name).length ≤ max name.length 1 := by
  induction name with
  | nil => exact Nat.le_refl 1
  | cons c name ih =>
    by_cases hc : c = 'c'
    · subst hc
      rw [canonical_zero, List.length_cons]
      omega
    · rw [canonical_of_ne hc]
      exact Nat.le_max_left _ _

/-- What is left are the digits of a number: letters of bits, with no zero in front of others. -/
theorem isDigits_canonical (h : ∀ c ∈ name, c = 'c' ∨ c = 'e') :
    (∀ c ∈ canonical name, c = 'c' ∨ c = 'e') ∧ canonical name ≠ [] ∧
      ((bits (canonical name)).head? = some 0 → bits (canonical name) = [0]) := by
  induction name with
  | nil => exact ⟨by simp, by simp, fun _ => rfl⟩
  | cons c name ih =>
    obtain ⟨hc, hname⟩ := List.forall_mem_cons.1 h
    rcases hc with rfl | rfl
    · exact ih hname
    · rw [canonical_of_ne (by decide)]
      exact ⟨h, List.cons_ne_nil _ _, fun hzero => absurd hzero (by simp [bits])⟩

theorem map_letter_bits (h : ∀ c ∈ name, c = 'c' ∨ c = 'e') : (bits name).map letter = name := by
  rw [bits, List.map_map]
  calc
    _ = name.map id := by
      refine List.map_congr_left fun c hc => ?_
      rcases h c hc with rfl | rfl <;> rfl
    _ = name := List.map_id _

/-- Printing what a word spells takes the zeros in front away. -/
theorem ofNumber_of_number? (h : number? name = some n) : ofNumber n = canonical name := by
  obtain ⟨hword, hvalue⟩ := number?_eq_some_iff.1 h
  obtain ⟨hletters, hne, hhead⟩ := isDigits_canonical hword.letters
  have hbits : bits (canonical name) ≠ [] := by simpa [bits] using hne
  rw [ofNumber, hvalue, ← value_bits_canonical,
    Numeral.digits_value (Nat.le_refl 2) (fun _ => lt_of_mem_bits) hbits hhead,
    map_letter_bits hletters]

theorem canonical_eq_self_iff (h : IsWord name) :
    canonical name = name ↔ name = ['c'] ∨ name.head? = some 'e' := by
  cases name with
  | nil => exact absurd rfl h.nonempty
  | cons c name =>
    rcases h.letters c List.mem_cons_self with rfl | rfl
    · rw [canonical_zero]
      constructor
      · intro hself
        -- a letter has been taken away, so there was no other
        have hlength := length_canonical_le name
        rw [hself, List.length_cons] at hlength
        have hname : name = [] := List.length_eq_zero_iff.1 (by omega)
        exact .inl (by rw [hname])
      · rintro (hname | hname)
        · rw [(List.cons.inj hname).2]
          rfl
        · cases hname
    · rw [canonical_of_ne (by decide)]
      exact ⟨fun _ => .inr rfl, fun _ => rfl⟩

/-- Names are a faithful code for the numbers of 32 bits. Each is read back as its number and is a
word that can be assigned to and that no other statement uses; distinct numbers have distinct names.
Exactly the words can be read, and the number has all their bits. Its name is the word itself if
this is `c` or begins with `e`, and otherwise the word without the letters `c` in front. -/
theorem names_code_faithfully :
    (∀ n : UInt32, number? (ofNumber n) = some n ∧ IsWord (ofNumber n) ∧
      isTarget (ofNumber n) = true ∧
        ∀ other ∈ ["x".toList, "xx".toList, "exec".toList], ofNumber n ≠ other) ∧
    Function.Injective ofNumber ∧
    (∀ name, (∃ n, number? name = some n) ↔ IsWord name) ∧
    ∀ name n, number? name = some n →
      n.toNat = Nat.ofDigits 2 (bits name).reverse ∧
        (ofNumber n = name ↔ name = ['c'] ∨ name.head? = some 'e') ∧
          ofNumber n = canonical name := by
  refine ⟨fun n => ⟨number?_ofNumber n, isWord_ofNumber n, ?_, ?_⟩, fun _ _ => ofNumber_injective,
    fun _ => exists_number?_iff, ?_⟩
  · rw [← text_ident]
    exact (ident n).isTarget_text
  · intro other hother
    have hx : ∀ other ∈ ["x".toList, "xx".toList, "exec".toList], 'x' ∈ other := by decide
    exact (isWord_ofNumber n).ne_of_mem (hx other hother)
  · intro name n h
    obtain ⟨hword, hvalue⟩ := number?_eq_some_iff.1 h
    rw [ofNumber_of_number? h]
    exact ⟨hvalue.trans (Numeral.value_eq_ofDigits _), canonical_eq_self_iff hword, rfl⟩

/-- The longest word of ones is the largest number, and a word with zeros in front loses them. -/
theorem names_code_faithfully_ones :
    (∃ n, number? (List.replicate 32 'e') = some n ∧ n.toNat = 2 ^ 32 - 1 ∧
      ofNumber n = List.replicate 32 'e') ∧
    ∃ n, number? "ccec".toList = some n ∧ ofNumber n = "ec".toList := by
  obtain ⟨-, -, hwords, hread⟩ := names_code_faithfully
  have hones : IsWord (List.replicate 32 'e') :=
    ⟨by decide, by decide, fun _ hc => .inr (List.eq_of_mem_replicate hc)⟩
  have hzeros : IsWord "ccec".toList := ⟨by decide, by decide, by simp⟩
  obtain ⟨n, hn⟩ := (hwords _).2 hones
  obtain ⟨m, hm⟩ := (hwords _).2 hzeros
  obtain ⟨hvalue, hself, -⟩ := hread _ n hn
  obtain ⟨-, -, hcanonical⟩ := hread _ m hm
  exact ⟨⟨n, hn, hvalue.trans (by decide), hself.2 (.inr rfl)⟩, m, hm, hcanonical⟩

end DigitName

end Octoglyph
