import Mathlib.Data.Nat.ModEq
import Mathlib.Tactic

/-! One's-complement sums.

    Adding words of a fixed width and feeding every carry back in at the bottom computes the total
    modulo `m`, the largest word, with one twist: zero has two representations, and a sum is
    represented by 0 only when every word added was 0. `residue m n` is that representative of the
    total `n`. Two totals have the same one exactly if they are congruent and both or neither are
    zero, which is kept by addition; so carries may be fed back in any order and any number of
    times.

    The words of a string of bytes are read big-endian in pairs, an odd byte at the end being the
    high half of a word. -/

namespace Netstack.OnesComplement

/-- The representative of the total `n`: 0 for 0, else a number from 1 to `m`. -/
def residue (m n : ℕ) : ℕ := if n = 0 then 0 else (n - 1) % m + 1

variable {m M a b c d n : ℕ}

@[simp] theorem residue_zero : residue m 0 = 0 := if_pos rfl

theorem residue_pos (h : 0 < n) : residue m n = (n - 1) % m + 1 := if_neg (by omega)

theorem residue_eq_zero : residue m n = 0 ↔ n = 0 := by
  rw [residue]
  split_ifs with h
  · exact iff_of_true rfl h
  · simp [h]

theorem residue_le (hm : 0 < m) : residue m n ≤ m := by
  rw [residue]
  split_ifs
  · exact Nat.zero_le _
  · exact Nat.mod_lt _ hm

theorem residue_of_le (h : n ≤ m) : residue m n = n := by
  rcases Nat.eq_zero_or_pos n with rfl | hn
  · exact residue_zero
  · rw [residue_pos hn, Nat.mod_eq_of_lt (by omega)]
    omega

theorem residue_modEq : residue m n ≡ n [MOD m] := by
  rcases Nat.eq_zero_or_pos n with rfl | hn
  · rw [residue_zero]
  · rw [residue_pos hn]
    have h := (Nat.mod_modEq (n - 1) m).add_right 1
    rwa [Nat.sub_add_cancel hn] at h

/-- Two totals have one representative exactly if they are congruent and agree on being zero. -/
theorem residue_eq_residue : residue m a = residue m b ↔ (a = 0 ↔ b = 0) ∧ a ≡ b [MOD m] := by
  constructor
  · intro h
    refine ⟨?_, residue_modEq.symm.trans (h ▸ residue_modEq)⟩
    rw [← @residue_eq_zero m a, h, residue_eq_zero]
  · rintro ⟨hz, hab⟩
    rcases Nat.eq_zero_or_pos a with rfl | ha
    · rw [hz.1 rfl]
    · have hb : 0 < b := Nat.pos_of_ne_zero fun h => by omega
      rw [residue_pos ha, residue_pos hb]
      have h : a - 1 ≡ b - 1 [MOD m] := by
        apply Nat.ModEq.add_right_cancel' 1
        rwa [Nat.sub_add_cancel ha, Nat.sub_add_cancel hb]
      rw [h]

theorem residue_add_congr (h : residue m a = residue m b) (h' : residue m c = residue m d) :
    residue m (a + c) = residue m (b + d) := by
  rw [residue_eq_residue] at h h' ⊢
  exact ⟨by omega, h.2.add h'.2⟩

theorem residue_mul_congr (h : residue m a = residue m b) (k : ℕ) :
    residue m (k * a) = residue m (k * b) := by
  rw [residue_eq_residue] at h ⊢
  exact ⟨by rw [Nat.mul_eq_zero, Nat.mul_eq_zero, h.1], h.2.mul_left k⟩

theorem residue_residue (hm : 0 < m) : residue m (residue m n) = residue m n := residue_of_le (residue_le hm)

/-- A partial sum may be reduced before the rest is added. -/
theorem residue_residue_add (hm : 0 < m) : residue m (residue m a + b) = residue m (a + b) :=
  residue_add_congr (residue_residue hm) rfl

/-- What agrees in wide words agrees in narrow ones. -/
theorem residue_congr_of_dvd (hd : m ∣ M) (h : residue M a = residue M b) :
    residue m a = residue m b := by
  rw [residue_eq_residue] at h
  exact residue_eq_residue.2 ⟨h.1, h.2.of_dvd hd⟩

/-- Feeding the carry back in: the high part of a sum is added to its low part. -/
theorem residue_carry (m n : ℕ) : residue m (n / (m + 1) + n % (m + 1)) = residue m n := by
  have hdiv := Nat.div_add_mod n (m + 1)
  rw [residue_eq_residue]
  constructor
  · constructor <;> intro h
    · obtain ⟨h1, h2⟩ := Nat.add_eq_zero_iff.1 h
      rw [← hdiv, h1, h2, Nat.mul_zero]
    · rw [h]
      simp
  · have h1 : (m + 1) * (n / (m + 1)) ≡ n / (m + 1) [MOD m] := by
      rw [Nat.add_mul, Nat.one_mul, Nat.ModEq, Nat.mul_add_mod]
    exact (h1.symm.add_right _).trans (by rw [hdiv])

/-- The all-ones word stands for the non-zero multiples of `m`. -/
theorem residue_eq_self (hm : 0 < m) : residue m n = m ↔ n ≠ 0 ∧ m ∣ n := by
  have hself : residue m m = m := residue_of_le le_rfl
  calc residue m n = m ↔ residue m n = residue m m := by rw [hself]
    _ ↔ (n = 0 ↔ m = 0) ∧ n ≡ m [MOD m] := residue_eq_residue
    _ ↔ n ≠ 0 ∧ m ∣ n := by
      rw [iff_false_right (by omega : m ≠ 0), Nat.ModEq, Nat.mod_self, Nat.dvd_iff_mod_eq_zero]

/-- A total and the complement of its representative add up to all ones. -/
theorem residue_add_complement (hm : 0 < m) (n : ℕ) : residue m (n + (m - residue m n)) = m := by
  have hle : residue m n ≤ m := residue_le hm
  have hcongr : residue m (n + (m - residue m n)) = residue m (residue m n + (m - residue m n)) :=
    residue_add_congr (residue_residue hm).symm rfl
  rw [hcongr, Nat.add_sub_cancel' hle, residue_of_le le_rfl]

/-- Adding with carry: the word and the carry after `w` has been added to the word `x` and carry `c`.
    Their sum stays within a word, and represents the same total. -/
theorem residue_add_with_carry {x c w : ℕ} (h : x + c ≤ m) (hw : w ≤ m) :
    (x + w + c) % (m + 1) + (x + w + c) / (m + 1) ≤ m ∧
    residue m ((x + w + c) % (m + 1) + (x + w + c) / (m + 1)) = residue m (x + c + w) := by
  constructor
  · rcases Nat.lt_or_ge (x + w + c) (m + 1) with hlt | hge
    · rw [Nat.mod_eq_of_lt hlt, Nat.div_eq_of_lt hlt]
      omega
    · have hdiv : (x + w + c) / (m + 1) = 1 := Nat.div_eq_of_lt_le (by omega) (by omega)
      have hmod := Nat.div_add_mod (x + w + c) (m + 1)
      rw [hdiv] at hmod ⊢
      omega
  · rw [Nat.add_comm, residue_carry, Nat.add_right_comm]

/-! ### The words of a string of bytes -/

/-- The sum of the big-endian 16-bit words of a string. -/
def wordSum : List UInt8 → ℕ
  | x :: y :: rest => 256 * x.toNat + y.toNat + wordSum rest
  | [x] => 256 * x.toNat
  | [] => 0

theorem wordSum_le : ∀ s : List UInt8, wordSum s ≤ 65535 * ((s.length + 1) / 2)
  | [] => Nat.zero_le _
  | [x] => by
      have := x.toNat_lt
      rw [wordSum, List.length_singleton]
      omega
  | x :: y :: rest => by
      have hrest := wordSum_le rest
      have hx := x.toNat_lt
      have hy := y.toNat_lt
      rw [wordSum, List.length_cons, List.length_cons]
      omega

/-- Words are counted from the front, so an even part can be summed by itself. -/
theorem wordSum_append : ∀ {s : List UInt8} (t : List UInt8), Even s.length →
    wordSum (s ++ t) = wordSum s + wordSum t
  | [], t, _ => (Nat.zero_add _).symm
  | [x], t, h => by simp at h
  | x :: y :: rest, t, h => by
      have hrest : Even rest.length := by
        simpa [Nat.even_add_one] using h
      rw [List.cons_append, List.cons_append, wordSum, wordSum, wordSum_append t hrest]
      omega

end Netstack.OnesComplement
