import Octoglyph.Proofs.Binding
import Octoglyph.Text.Utf8

/-! # Bytes that encode text

Reading accepts exactly what writing produces: bytes are read as a text if and only if they are its
encoding. Both sides are compared by the code of one character, which the bytes at the front spell
in groups of six bits.
-/

namespace Octoglyph.Utf8

/-! ## Bytes as numbers -/

theorem range_iff {low high b : UInt8} :
    (decide (low ≤ b) && decide (b ≤ high)) = true ↔
      low.toNat ≤ b.toNat ∧ b.toNat ≤ high.toNat := by
  rw [Bool.and_eq_true, decide_eq_true_iff, decide_eq_true_iff, UInt8.le_iff_toNat_le,
    UInt8.le_iff_toNat_le]

theorem isContinuation_iff {b : UInt8} :
    isContinuation b = true ↔ 0x80 ≤ b.toNat ∧ b.toNat ≤ 0xBF :=
  range_iff

/-- The second byte continues the character, and four first bytes leave it less room. -/
theorem isSecond_iff {a b : UInt8} :
    isSecond a b = true ↔
      (0x80 ≤ b.toNat ∧ b.toNat ≤ 0xBF) ∧ (a.toNat = 0xE0 → 0xA0 ≤ b.toNat) ∧
        (a.toNat = 0xED → b.toNat ≤ 0x9F) ∧ (a.toNat = 0xF0 → 0x90 ≤ b.toNat) ∧
          (a.toNat = 0xF4 → b.toNat ≤ 0x8F) := by
  rw [isSecond, range_iff]
  fun_cases secondRange a with
  | case1 h =>
    subst h
    simp
    omega
  | case2 _ h =>
    subst h
    simp
    omega
  | case3 _ _ h =>
    subst h
    simp
    omega
  | case4 _ _ _ h =>
    subst h
    simp
    omega
  | case5 h1 h2 h3 h4 =>
    simp only [← UInt8.toNat_inj] at h1 h2 h3 h4
    simp at h1 h2 h3 h4
    simp [h1, h2, h3, h4]

/-! ## The character at the front -/

/-- The first byte and those behind it spell a code, and so many of those behind it are read. -/
inductive Spells : UInt8 → Bytes → Nat → Nat → Prop where
  | one {a : UInt8} {rest : Bytes} (ha : a.toNat < 0x80) : Spells a rest a.toNat 0
  | two {a b : UInt8} {rest : Bytes} (ha : 0xC2 ≤ a.toNat ∧ a.toNat ≤ 0xDF)
    (hb : isContinuation b = true) :
    Spells a (b :: rest) ((a.toNat - 0xC0) * 64 + bits b) 1
  | three {a b c : UInt8} {rest : Bytes} (ha : 0xE0 ≤ a.toNat ∧ a.toNat ≤ 0xEF)
    (hb : isSecond a b = true) (hc : isContinuation c = true) :
    Spells a (b :: c :: rest) (((a.toNat - 0xE0) * 64 + bits b) * 64 + bits c) 2
  | four {a b c d : UInt8} {rest : Bytes} (ha : 0xF0 ≤ a.toNat ∧ a.toNat ≤ 0xF4)
    (hb : isSecond a b = true) (hc : isContinuation c = true) (hd : isContinuation d = true) :
    Spells a (b :: c :: d :: rest)
      ((((a.toNat - 0xF0) * 64 + bits b) * 64 + bits c) * 64 + bits d) 3

theorem front_of_spells {a : UInt8} {rest : Bytes} {code more : Nat} (h : Spells a rest code more) :
    front a rest = (scalar? code, more) := by
  unfold front
  simp only [range_iff, UInt8.lt_iff_toNat_lt, UInt8.reduceToNat]
  cases h with
  | one ha => rw [if_pos ha]
  | two ha hb =>
    rw [if_neg (by omega), if_pos ha]
    exact if_pos hb
  | three ha hb hc =>
    rw [if_neg (by omega), if_neg (by omega), if_pos ha]
    exact (if_pos hb).trans (if_pos hc)
  | four ha hb hc hd =>
    rw [if_neg (by omega), if_neg (by omega), if_neg (by omega), if_pos ha]
    exact (if_pos hb).trans ((if_pos hc).trans (if_pos hd))

theorem spells_of_front {a : UInt8} {rest : Bytes} {c : Char} {more : Nat}
    (h : front a rest = (some c, more)) :
    ∃ code, Spells a rest code more ∧ scalar? code = some c := by
  revert h
  fun_cases front a rest with
  | case1 rest ha =>
    intro h
    obtain ⟨hscalar, rfl⟩ := Prod.mk.inj h
    exact ⟨_, .one (UInt8.lt_iff_toNat_lt.1 ha), hscalar⟩
  | case2 _ ha b tail hb =>
    intro h
    obtain ⟨hscalar, rfl⟩ := Prod.mk.inj h
    exact ⟨_, .two (range_iff.1 ha) hb, hscalar⟩
  | case5 _ _ ha b hb c tail hc =>
    intro h
    obtain ⟨hscalar, rfl⟩ := Prod.mk.inj h
    exact ⟨_, .three (range_iff.1 ha) hb hc, hscalar⟩
  | case10 _ _ _ ha b hb c hc d tail hd =>
    intro h
    obtain ⟨hscalar, rfl⟩ := Prod.mk.inj h
    exact ⟨_, .four (range_iff.1 ha) hb hc hd, hscalar⟩
  | _ =>
    intro h
    cases h

/-! ## The bytes of a character -/

theorem eq_ofNat {b : UInt8} {n : Nat} (h : b.toNat = n) : b = UInt8.ofNat n := by
  rw [← h, UInt8.ofNat_toNat]

theorem exists_toNat_eq {n : Nat} (h : n < 256) : ∃ b : UInt8, UInt8.ofNat n = b ∧ b.toNat = n :=
  ⟨_, rfl, by rw [UInt8.toNat_ofNat', Nat.mod_eq_of_lt h]⟩

/-- The bytes of a character spell its code. -/
theorem spells_encodeChar (c : Char) :
    ∃ a more, String.utf8EncodeChar c = a :: more ∧
      ∀ rest, Spells a (more ++ rest) c.toNat more.length := by
  have hvalid : c.toNat < 0xD800 ∨ 0xDFFF < c.toNat ∧ c.toNat < 0x110000 := c.valid
  have hval : c.val.toNat = c.toNat := rfl
  unfold String.utf8EncodeChar
  simp only [hval]
  generalize c.toNat = v at hvalid
  split
  next h1 =>
    obtain ⟨a, ha, rfl⟩ := exists_toNat_eq (n := v) (by omega)
    rw [ha]
    exact ⟨a, [], rfl, fun rest => .one (by omega)⟩
  next h1 =>
  split
  next h2 =>
    obtain ⟨a, ha, hna⟩ := exists_toNat_eq (n := v / 64 % 32 + 192) (by omega)
    obtain ⟨b, hb, hnb⟩ := exists_toNat_eq (n := v % 64 + 128) (by omega)
    obtain rfl : v = (a.toNat - 0xC0) * 64 + bits b := by
      unfold bits
      omega
    rw [ha, hb]
    exact ⟨a, [b], rfl, fun rest => .two (by omega) (isContinuation_iff.2 (by omega))⟩
  next h2 =>
  split
  next h3 =>
    obtain ⟨a, ha, hna⟩ := exists_toNat_eq (n := v / 4096 % 16 + 224) (by omega)
    obtain ⟨b, hb, hnb⟩ := exists_toNat_eq (n := v / 64 % 64 + 128) (by omega)
    obtain ⟨c, hc, hnc⟩ := exists_toNat_eq (n := v % 64 + 128) (by omega)
    obtain rfl : v = ((a.toNat - 0xE0) * 64 + bits b) * 64 + bits c := by
      unfold bits
      omega
    rw [ha, hb, hc]
    exact ⟨a, [b, c], rfl, fun rest => .three (by omega) (isSecond_iff.2 (by omega))
      (isContinuation_iff.2 (by omega))⟩
  next h3 =>
    obtain ⟨a, ha, hna⟩ := exists_toNat_eq (n := v / 262144 % 8 + 240) (by omega)
    obtain ⟨b, hb, hnb⟩ := exists_toNat_eq (n := v / 4096 % 64 + 128) (by omega)
    obtain ⟨c, hc, hnc⟩ := exists_toNat_eq (n := v / 64 % 64 + 128) (by omega)
    obtain ⟨d, hd, hnd⟩ := exists_toNat_eq (n := v % 64 + 128) (by omega)
    obtain rfl : v = (((a.toNat - 0xF0) * 64 + bits b) * 64 + bits c) * 64 + bits d := by
      unfold bits
      omega
    rw [ha, hb, hc, hd]
    exact ⟨a, [b, c, d], rfl, fun rest => .four (by omega) (isSecond_iff.2 (by omega))
      (isContinuation_iff.2 (by omega)) (isContinuation_iff.2 (by omega))⟩

/-- The bytes that spell the code of a character are its bytes. -/
theorem encodeChar_of_spells {a : UInt8} {rest : Bytes} {code more : Nat} {c : Char}
    (h : Spells a rest code more) (hscalar : scalar? code = some c) :
    a :: rest = String.utf8EncodeChar c ++ rest.drop more := by
  have hcode := toNat_of_scalar? hscalar
  have hval : c.val.toNat = c.toNat := rfl
  unfold String.utf8EncodeChar
  simp only [hval]
  generalize c.toNat = v at hcode
  -- the code decides how many bytes there are; each is the group of bits that it carries
  cases h with
  | one ha =>
    rw [if_pos (by omega)]
    exact List.cons_eq_cons.2 ⟨eq_ofNat (by omega), rfl⟩
  | two ha hb =>
    rw [isContinuation_iff] at hb
    unfold bits at hcode
    rw [if_neg (by omega), if_pos (by omega)]
    exact List.cons_eq_cons.2 ⟨eq_ofNat (by omega), List.cons_eq_cons.2 ⟨eq_ofNat (by omega), rfl⟩⟩
  | three ha hb hc =>
    rw [isSecond_iff] at hb
    rw [isContinuation_iff] at hc
    unfold bits at hcode
    rw [if_neg (by omega), if_neg (by omega), if_pos (by omega)]
    exact List.cons_eq_cons.2 ⟨eq_ofNat (by omega), List.cons_eq_cons.2 ⟨eq_ofNat (by omega),
      List.cons_eq_cons.2 ⟨eq_ofNat (by omega), rfl⟩⟩⟩
  | four ha hb hc hd =>
    rw [isSecond_iff] at hb
    rw [isContinuation_iff] at hc hd
    unfold bits at hcode
    rw [if_neg (by omega), if_neg (by omega), if_neg (by omega)]
    exact List.cons_eq_cons.2 ⟨eq_ofNat (by omega), List.cons_eq_cons.2 ⟨eq_ofNat (by omega),
      List.cons_eq_cons.2 ⟨eq_ofNat (by omega), List.cons_eq_cons.2 ⟨eq_ofNat (by omega), rfl⟩⟩⟩⟩

/-! ## Whole texts -/

theorem encode_cons (c : Char) (text : Text) :
    encode (c :: text) = String.utf8EncodeChar c ++ encode text := rfl

theorem encode_append (s t : Text) : encode (s ++ t) = encode s ++ encode t :=
  List.flatMap_append

theorem decodeOnto_cons {a : UInt8} {rest : Bytes} {c : Char} {more : Nat}
    (h : front a rest = (some c, more)) (done : Text) :
    decodeOnto done (a :: rest) = decodeOnto (c :: done) (rest.drop more) := by
  rw [decodeOnto]
  simp only [h]

theorem decodeOnto_encode (done text : Text) :
    decodeOnto done (encode text) = some (done.reverse ++ text) := by
  induction text generalizing done with
  | nil =>
    rw [encode, List.flatMap_nil, decodeOnto, List.append_nil]
  | cons c text ih =>
    obtain ⟨a, more, hbytes, hspells⟩ := spells_encodeChar c
    have hfront := front_of_spells (hspells (encode text))
    rw [scalar?_toNat] at hfront
    rw [encode_cons, hbytes, List.cons_append, decodeOnto_cons hfront, List.drop_left, ih,
      List.reverse_cons, List.append_assoc]
    rfl

theorem eq_encode_of_decodeOnto {done text : Text} {bytes : Bytes}
    (h : decodeOnto done bytes = some text) :
    ∃ rest, text = done.reverse ++ rest ∧ bytes = encode rest := by
  fun_induction decodeOnto done bytes with
  | case1 done =>
    cases h
    exact ⟨[], (List.append_nil _).symm, rfl⟩
  | case2 done a rest c more hfront ih =>
    obtain ⟨tail, rfl, hbytes⟩ := ih h
    obtain ⟨code, hspells, hscalar⟩ := spells_of_front hfront
    refine ⟨c :: tail, by simp, ?_⟩
    rw [encode_cons, ← hbytes]
    exact encodeChar_of_spells hspells hscalar
  | case3 => cases h

/-- Bytes are read as a text if and only if they are its encoding. -/
theorem decode?_eq_some_iff {bytes : Bytes} {text : Text} :
    decode? bytes = some text ↔ bytes = encode text := by
  constructor
  · intro h
    obtain ⟨rest, rfl, hbytes⟩ := eq_encode_of_decodeOnto h
    exact hbytes
  · rintro rfl
    exact decodeOnto_encode [] text

theorem encode_injective {s t : Text} (h : encode s = encode t) : s = t := by
  have hs : decode? (encode s) = some s := decode?_eq_some_iff.2 rfl
  exact Option.some.inj (hs.symm.trans (decode?_eq_some_iff.2 h))

end Octoglyph.Utf8
