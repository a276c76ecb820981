import Mathlib.Tactic

/-! Serial numbers: positions of an unbounded stream written modulo `2 ^ 32`.

    A protocol that numbers the bytes of a stream by 32-bit words compares two numbers by the sign
    of their difference. `seqAt base n` is the number of stream offset `n`; as long as two offsets
    are less than `2 ^ 31` apart, the signed comparison of their numbers is the comparison of the
    offsets, wherever the stream stands relative to the wrap. -/

namespace Netstack.Serial

/-- The 32-bit number of stream offset `n`, for a stream whose offset 0 is numbered `base`. -/
def seqAt (base : UInt32) (n : ℕ) : UInt32 := base + UInt32.ofNat n

theorem toInt_toInt32 (x : UInt32) : x.toInt32.toInt = (x.toNat : ℤ).bmod (2 ^ 32) := by
  simp only [Int32.toInt, BitVec.toInt_eq_toNat_bmod]; rfl

/-- A difference is positive as a signed word iff it is a forward distance below `2 ^ 31`. -/
theorem toInt32_pos_iff (x : UInt32) : 0 < x.toInt32 ↔ 0 < x.toNat ∧ x.toNat < 2 ^ 31 := by
  have hx := x.toNat_lt
  rw [Int32.lt_iff_toInt_lt, toInt_toInt32, Int.bmod_def]
  simp only [Int32.toInt_zero]
  omega

/-- A difference is negative as a signed word iff it is a forward distance of `2 ^ 31` or more. -/
theorem toInt32_neg_iff (x : UInt32) : x.toInt32 < 0 ↔ 2 ^ 31 ≤ x.toNat := by
  have hx := x.toNat_lt
  rw [Int32.lt_iff_toInt_lt, toInt_toInt32, Int.bmod_def]
  simp only [Int32.toInt_zero]
  omega

@[simp] theorem seqAt_zero (base : UInt32) : seqAt base 0 = base := by
  simp [seqAt]

theorem seqAt_add (base : UInt32) (n m : ℕ) : seqAt base (n + m) = seqAt base n + UInt32.ofNat m := by
  simp only [seqAt, UInt32.ofNat_add, UInt32.add_assoc]

theorem seqAt_succ (base : UInt32) (n : ℕ) : seqAt base (n + 1) = seqAt base n + 1 :=
  seqAt_add base n 1

/-- The word difference of two offsets, the first at or past the second. -/
theorem toNat_sub_of_le (base : UInt32) {x y : ℕ} (h : y ≤ x) (hlt : x - y < 2 ^ 32) :
    (seqAt base x - seqAt base y).toNat = x - y := by
  have hb := base.toNat_lt
  simp only [seqAt, UInt32.toNat_sub, UInt32.toNat_add, UInt32.toNat_ofNat']
  omega

/-- The word difference of two offsets, the first before the second: it wraps. -/
theorem toNat_sub_of_lt (base : UInt32) {x y : ℕ} (h : x < y) (hlt : y - x < 2 ^ 32) :
    (seqAt base x - seqAt base y).toNat = 2 ^ 32 - (y - x) := by
  have hb := base.toNat_lt
  simp only [seqAt, UInt32.toNat_sub, UInt32.toNat_add, UInt32.toNat_ofNat']
  omega

/-- Numbers of offsets less than `2 ^ 32` apart determine the offsets. -/
theorem seqAt_inj (base : UInt32) {x y : ℕ} (hxy : x < y + 2 ^ 32) (hyx : y < x + 2 ^ 32) :
    seqAt base x = seqAt base y ↔ x = y := by
  refine ⟨fun h => ?_, fun h => by rw [h]⟩
  have h0 : (seqAt base x - seqAt base y).toNat = 0 := by simp [h]
  rcases Nat.lt_or_ge x y with hlt | hle
  · rw [toNat_sub_of_lt base hlt (by omega)] at h0; omega
  · rw [toNat_sub_of_le base hle (by omega)] at h0; omega

/-- Every word is the number of some offset at a forward distance below `2 ^ 32` from `n`. -/
theorem seqAt_of_sub (base x : UInt32) (n : ℕ) :
    x = seqAt base (n + (x - seqAt base n).toNat) := by
  rw [seqAt_add, UInt32.ofNat_toNat, UInt32.add_comm, UInt32.sub_add_cancel]

/-- Numbers repeat after `2 ^ 32` offsets. -/
theorem seqAt_wrap (base : UInt32) (n : ℕ) : seqAt base (n + 2 ^ 32) = seqAt base n := by
  rw [seqAt_add, show UInt32.ofNat (2 ^ 32) = 0 from rfl, UInt32.add_zero]

/-- Every word is the number of some offset within `2 ^ 31` of `n`, behind or ahead. -/
theorem exists_seqAt_near (base x : UInt32) {n : ℕ} (hn : 2 ^ 31 ≤ n) :
    ∃ o, x = seqAt base o ∧ o ≤ n + 2 ^ 31 ∧ n ≤ o + 2 ^ 31 := by
  have hx := seqAt_of_sub base x n
  have hlt := (x - seqAt base n).toNat_lt
  rcases Nat.lt_or_ge (x - seqAt base n).toNat (2 ^ 31) with hnear | hfar
  · exact ⟨_, hx, by omega, by omega⟩
  · refine ⟨n + (x - seqAt base n).toNat - 2 ^ 32, ?_, by omega, by omega⟩
    rw [← seqAt_wrap, Nat.sub_add_cancel (by omega)]
    exact hx

/-! ### Shifted numbers -/

/-- A difference does not see a shift. -/
theorem add_sub_add (a b n : UInt32) : a + n - (b + n) = a - b := by
  grind

theorem add_right_swap (a b n : UInt32) : a + n + b = a + b + n := by
  grind

theorem add_beq_add (a b n : UInt32) : (a + n == b + n) = (a == b) := by
  simp

theorem add_sub_swap (a b n : UInt32) : a + n - b = a - b + n := by
  grind

end Netstack.Serial
