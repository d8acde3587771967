import Mathlib.Algebra.Order.Ring.Nat
import Octoglyph.Numeral

/-! # Numerals are read back

The numeral of a number, read in its own base, is the number again. So numerals can stand between
other characters as long as those are neither letters nor digits.
-/

namespace Octoglyph.Numeral

variable {base n : Nat}

/-! ## Digits -/

theorem digits_of_lt (h : n < base) : digits base n = [n] := by
  rw [digits, dif_pos (.inl h)]

theorem digits_of_le (hbase : 2 ≤ base) (h : base ≤ n) :
    digits base n = digits base (n / base) ++ [n % base] := by
  rw [digits, dif_neg (by omega)]

theorem lt_of_mem_digits (hbase : 2 ≤ base) {d : Nat} (h : d ∈ digits base n) : d < base := by
  induction n using Nat.strongRecOn with
  | ind n ih =>
    rcases Nat.lt_or_ge n base with hn | hn
    · rw [digits_of_lt hn, List.mem_singleton] at h
      exact h ▸ hn
    · rw [digits_of_le hbase hn, List.mem_append, List.mem_singleton] at h
      rcases h with h | rfl
      · exact ih _ (Nat.div_lt_self (by omega) hbase) h
      · exact Nat.mod_lt _ (by omega)

theorem value_append_singleton (ds : List Nat) (d : Nat) :
    value base (ds ++ [d]) = value base ds * base + d := by
  simp [value]

theorem value_digits (hbase : 2 ≤ base) (n : Nat) : value base (digits base n) = n := by
  induction n using Nat.strongRecOn with
  | ind n ih =>
    rcases Nat.lt_or_ge n base with hn | hn
    · rw [digits_of_lt hn]
      simp [value]
    · rw [digits_of_le hbase hn, value_append_singleton,
        ih _ (Nat.div_lt_self (by omega) hbase)]
      exact Nat.div_add_mod' n base

theorem digits_injective (hbase : 2 ≤ base) {m : Nat} (h : digits base m = digits base n) :
    m = n := by
  rw [← value_digits hbase m, h, value_digits hbase n]

/-- A number below `base ^ k` has at most `k` digits. -/
theorem length_digits_le (hbase : 2 ≤ base) {k : Nat} (hk : 0 < k) (h : n < base ^ k) :
    (digits base n).length ≤ k := by
  induction k generalizing n with
  | zero => omega
  | succ k ih =>
    rcases Nat.lt_or_ge n base with hn | hn
    · rw [digits_of_lt hn]
      simp
    · have hpos : 0 < k := by
        rcases Nat.eq_zero_or_pos k with rfl | hpos
        · rw [Nat.zero_add, Nat.pow_one] at h
          omega
        · exact hpos
      have hdiv : n / base < base ^ k := by
        rw [Nat.div_lt_iff_lt_mul (by omega), ← Nat.pow_succ]
        exact h
      rw [digits_of_le hbase hn]
      simpa using ih hpos hdiv

/-! ## The characters of a numeral -/

theorem digit?_digitChar {d : Nat} (hbase : base ≤ 16) (h : d < base) :
    digit? base d.digitChar = some d := by
  have hd : ∀ d < 16, ∀ base ≤ 16, d < base → digit? base d.digitChar = some d := by decide
  exact hd d (by omega) base hbase h

theorem isAlphanum_digitChar {d : Nat} (h : d < 16) : d.digitChar.isAlphanum = true := by
  have hd : ∀ d < 16, d.digitChar.isAlphanum = true := by decide
  exact hd d h

theorem isAlphanum_of_mem_text (hbase : 2 ≤ base) (hbase' : base ≤ 16) {c : Char}
    (h : c ∈ text base n) : c.isAlphanum = true := by
  obtain ⟨d, hd, rfl⟩ := List.mem_map.1 h
  exact isAlphanum_digitChar (Nat.lt_of_lt_of_le (lt_of_mem_digits hbase hd) hbase')

/-- A character that is neither letter nor digit does not occur in a numeral. -/
theorem not_mem_text (hbase : 2 ≤ base) (hbase' : base ≤ 16) {c : Char}
    (h : c.isAlphanum = false) : c ∉ text base n := fun hc => by
  rw [isAlphanum_of_mem_text hbase hbase' hc] at h
  cases h

theorem text_ne_nil (base n : Nat) : text base n ≠ [] := by
  simp [text, digits_ne_nil]

theorem text_of_lt (h : n < base) : text base n = [n.digitChar] := by
  rw [text, digits_of_lt h]
  rfl

theorem text_eq_toDigits (hbase : 2 ≤ base) (n : Nat) : text base n = Nat.toDigits base n := by
  induction n using Nat.strongRecOn with
  | ind n ih =>
    rcases Nat.lt_or_ge n base with hn | hn
    · rw [text_of_lt hn, Nat.toDigits_of_lt_base hn]
    · rw [Nat.toDigits_of_base_le hbase hn, ← ih _ (Nat.div_lt_self (by omega) hbase), text,
        digits_of_le hbase hn, List.map_append]
      rfl

/-! ## Reading -/

theorem mapM_digit?_digitChar (hbase : base ≤ 16) {ds : List Nat} (h : ∀ d ∈ ds, d < base) :
    (ds.map Nat.digitChar).mapM (digit? base) = some ds := by
  induction ds with
  | nil => rfl
  | cons d ds ih =>
    have hd := digit?_digitChar hbase (h d List.mem_cons_self)
    have hds := ih fun d hd => h d (List.mem_cons_of_mem _ hd)
    simp [hd, hds]

theorem read?_eq_of_ne_nil {t : Text} (h : t ≠ []) :
    read? base t = (t.mapM (digit? base)).map (value base) := by
  cases t with
  | nil => exact absurd rfl h
  | cons c t => rfl

theorem read?_text (hbase : 2 ≤ base) (hbase' : base ≤ 16) (n : Nat) :
    read? base (text base n) = some n := by
  have hdigits : (text base n).mapM (digit? base) = some (digits base n) :=
    mapM_digit?_digitChar hbase' fun _ => lt_of_mem_digits hbase
  rw [read?_eq_of_ne_nil (text_ne_nil base n), hdigits, Option.map_some, value_digits hbase]

theorem readUnsigned?_text (hbase : 2 ≤ base) (hbase' : base ≤ 16) {bound : Nat}
    (h : n < bound) : readUnsigned? base bound (text base n) = some n := by
  have hplus : '+' ∉ text base n := not_mem_text hbase hbase' (by decide)
  unfold readUnsigned?
  split
  · next rest ht => simp [ht] at hplus
  · simp [read?_text hbase hbase', h]

theorem readSigned?_text (hbase : 2 ≤ base) (hbase' : base ≤ 16) {bound : Nat}
    (h : n < bound) : readSigned? base bound (text base n) = some (n : Int) := by
  have hminus : '-' ∉ text base n := not_mem_text hbase hbase' (by decide)
  unfold readSigned?
  split
  · next rest ht => simp [ht] at hminus
  · simp [readUnsigned?_text hbase hbase' h]

end Octoglyph.Numeral
