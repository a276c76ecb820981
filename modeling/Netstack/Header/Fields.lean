import Netstack.Header.Transport

/-! Reading header fields back after they have been written.

    A field is written by copying its big-endian bytes into the header. Reading it gives the value
    written, and reading any field that does not overlap it gives what stood there before. -/

namespace Netstack.Header
open Netstack.Copy

/-! ### Bytes of a field -/

@[simp] theorem length_bytes16 (v : UInt16) : (bytes16 v).length = 2 := rfl

@[simp] theorem length_bytes32 (v : UInt32) : (bytes32 v).length = 4 := rfl

theorem toNat_high_byte (v : UInt16) : (v >>> 8).toUInt8.toNat = v.toNat / 256 := by
  have := v.toNat_lt
  rw [UInt16.toNat_toUInt8, UInt16.toNat_shiftRight, show (8 : UInt16).toNat % 16 = 8 from rfl,
    Nat.shiftRight_eq_div_pow]
  omega

theorem toNat_low_byte (v : UInt16) : v.toUInt8.toNat = v.toNat % 256 := UInt16.toNat_toUInt8 v

/-- A byte moved up next to lower bits. -/
theorem toNat_shift_or {a b k n : ℕ} (hb : b < 2 ^ k) (ha : a * 2 ^ k < 2 ^ n) :
    a <<< k % 2 ^ n ||| b = a * 2 ^ k + b := by
  rw [Nat.shiftLeft_eq, Nat.mod_eq_of_lt ha, ← Nat.shiftLeft_eq, ← Nat.shiftLeft_add_eq_or_of_lt hb]

theorem toNat_uint16At (b : List UInt8) (i : ℕ) :
    (uint16At b i).toNat = 256 * (b.getD i 0).toNat + (b.getD (i + 1) 0).toNat := by
  have hx := (b.getD i 0).toNat_lt
  have hy := (b.getD (i + 1) 0).toNat_lt
  rw [uint16At, UInt16.toNat_or, UInt16.toNat_shiftLeft, UInt8.toNat_toUInt16, UInt8.toNat_toUInt16]
  exact (toNat_shift_or (by omega : _ < 2 ^ 8) (by omega)).trans (by omega)

theorem toNat_uint32At (b : List UInt8) (i : ℕ) : (uint32At b i).toNat =
    2 ^ 24 * (b.getD i 0).toNat + 2 ^ 16 * (b.getD (i + 1) 0).toNat
      + 2 ^ 8 * (b.getD (i + 2) 0).toNat + (b.getD (i + 3) 0).toNat := by
  have hw := (b.getD i 0).toNat_lt
  have hx := (b.getD (i + 1) 0).toNat_lt
  have hy := (b.getD (i + 2) 0).toNat_lt
  have hz := (b.getD (i + 3) 0).toNat_lt
  rw [uint32At]
  generalize b.getD i 0 = w at *
  generalize b.getD (i + 1) 0 = x at *
  generalize b.getD (i + 2) 0 = y at *
  generalize b.getD (i + 3) 0 = z at *
  rw [UInt32.or_assoc, UInt32.or_assoc, UInt32.toNat_or, UInt32.toNat_or, UInt32.toNat_or,
    UInt32.toNat_shiftLeft, UInt32.toNat_shiftLeft, UInt32.toNat_shiftLeft, UInt8.toNat_toUInt32,
    UInt8.toNat_toUInt32, UInt8.toNat_toUInt32, UInt8.toNat_toUInt32,
    show (8 : UInt32).toNat % 32 = 8 from rfl, show (16 : UInt32).toNat % 32 = 16 from rfl,
    show (24 : UInt32).toNat % 32 = 24 from rfl,
    @toNat_shift_or y.toNat z.toNat 8 32 (by omega) (by omega),
    @toNat_shift_or x.toNat _ 16 32 (by omega) (by omega),
    @toNat_shift_or w.toNat _ 24 32 (by omega) (by omega)]
  omega

/-- The four bytes of a field make up its value. -/
theorem toNat_of_bytes32 (v : UInt32) : 2 ^ 24 * (v >>> 24).toUInt8.toNat + 2 ^ 16 * (v >>> 16).toUInt8.toNat
    + 2 ^ 8 * (v >>> 8).toUInt8.toNat + v.toUInt8.toNat = v.toNat := by
  have hv := v.toNat_lt
  have hbyte : ∀ k : UInt32, k.toNat < 32 → (v >>> k).toUInt8.toNat = v.toNat / 2 ^ k.toNat % 256 := by
    intro k hk
    rw [UInt32.toNat_toUInt8, UInt32.toNat_shiftRight, Nat.mod_eq_of_lt hk, Nat.shiftRight_eq_div_pow]
  rw [hbyte 24 (by decide), hbyte 16 (by decide), hbyte 8 (by decide), UInt32.toNat_toUInt8,
    show (24 : UInt32).toNat = 24 from rfl, show (16 : UInt32).toNat = 16 from rfl,
    show (8 : UInt32).toNat = 8 from rfl]
  omega

/-! ### Fields in a header -/

section
variable {b src : List UInt8} {i j : ℕ}

/-- A byte outside the copied region. -/
theorem getD_blit_ne (h : j < i ∨ i + src.length ≤ j) : (blit b i src).getD j 0 = b.getD j 0 := by
  have hget : (blit b i src)[j]? = b[j]? := by
    rw [blit, List.append_assoc]
    rcases h with h | h
    · by_cases hj : j < b.length
      · rw [List.getElem?_append_left (by rw [List.length_take]; omega), List.getElem?_take_of_lt h]
      · rw [List.getElem?_eq_none (by simp only [List.length_append, List.length_take, List.length_drop]; omega),
          List.getElem?_eq_none (by omega)]
    · by_cases hj : j < b.length
      · have h1 : (b.take i).length = i := by rw [List.length_take]; omega
        have h2 : (src.take (b.length - i)).length = src.length := by rw [List.length_take]; omega
        rw [List.getElem?_append_right (by omega), List.getElem?_append_right (by omega), h1, h2,
          List.getElem?_drop]
        congr 1
        omega
      · rw [List.getElem?_eq_none (by simp only [List.length_append, List.length_take, List.length_drop]; omega),
          List.getElem?_eq_none (by omega)]
  rw [List.getD_eq_getElem?_getD, List.getD_eq_getElem?_getD, hget]

/-- A byte inside the copied region. -/
theorem getD_blit_self (h : i + src.length ≤ b.length) (hj : j < src.length) :
    (blit b i src).getD (i + j) 0 = src.getD j 0 := by
  rw [List.getD_eq_getElem?_getD, List.getD_eq_getElem?_getD, getElem?_blit src h, if_pos (by omega),
    Nat.add_sub_cancel_left]

theorem getD_blit (h : i + src.length ≤ b.length) (j : ℕ) : (blit b i src).getD j 0 =
    if i ≤ j ∧ j < i + src.length then src.getD (j - i) 0 else b.getD j 0 := by
  rw [List.getD_eq_getElem?_getD, getElem?_blit src h]
  split_ifs <;> rfl

theorem uint16At_blit_ne (h : j + 2 ≤ i ∨ i + src.length ≤ j) : uint16At (blit b i src) j = uint16At b j := by
  rw [uint16At, uint16At, getD_blit_ne (by omega), getD_blit_ne (by omega)]

theorem uint16At_bytes16 (v : UInt16) : uint16At (bytes16 v) 0 = v := by
  have hv := v.toNat_lt
  rw [← UInt16.toNat_inj, toNat_uint16At]
  change 256 * (v >>> 8).toUInt8.toNat + v.toUInt8.toNat = _
  rw [toNat_high_byte, toNat_low_byte]
  omega

theorem uint32At_bytes32 (v : UInt32) : uint32At (bytes32 v) 0 = v := by
  rw [← UInt32.toNat_inj, toNat_uint32At]
  exact toNat_of_bytes32 v

theorem uint16At_blit_self (v : UInt16) (h : i + 2 ≤ b.length) : uint16At (blit b i (bytes16 v)) i = v := by
  have hv := v.toNat_lt
  have h0 := @getD_blit_self b (bytes16 v) i 0 h (by rw [length_bytes16]; omega)
  have h1 := @getD_blit_self b (bytes16 v) i 1 h (by rw [length_bytes16]; omega)
  rw [Nat.add_zero] at h0
  rw [← UInt16.toNat_inj, toNat_uint16At, h0, h1]
  change 256 * (v >>> 8).toUInt8.toNat + v.toUInt8.toNat = _
  rw [toNat_high_byte, toNat_low_byte]
  omega

theorem uint32At_blit_self (v : UInt32) (h : i + 4 ≤ b.length) : uint32At (blit b i (bytes32 v)) i = v := by
  have h0 := @getD_blit_self b (bytes32 v) i 0 h (by rw [length_bytes32]; omega)
  have h1 := @getD_blit_self b (bytes32 v) i 1 h (by rw [length_bytes32]; omega)
  have h2 := @getD_blit_self b (bytes32 v) i 2 h (by rw [length_bytes32]; omega)
  have h3 := @getD_blit_self b (bytes32 v) i 3 h (by rw [length_bytes32]; omega)
  rw [Nat.add_zero] at h0
  rw [← UInt32.toNat_inj, toNat_uint32At, h0, h1, h2, h3]
  exact toNat_of_bytes32 v

/-- A string is determined by its bytes. -/
theorem ext_getD {c : List UInt8} (hlen : b.length = c.length) (h : ∀ j, b.getD j 0 = c.getD j 0) : b = c := by
  apply List.ext_getElem hlen
  intro j hb hc
  have hj := h j
  simpa [List.getD_eq_getElem?_getD, hb, hc] using hj

/-- Writing back what a field holds. -/
theorem blit_uint16At (h : i + 2 ≤ b.length) : blit b i (bytes16 (uint16At b i)) = b := by
  have hx := (b.getD i 0).toNat_lt
  have hy := (b.getD (i + 1) 0).toNat_lt
  refine ext_getD (length_blit _ (by omega)) fun j => ?_
  rw [getD_blit h]
  split_ifs with hj
  · rw [length_bytes16] at hj
    rw [← UInt8.toNat_inj]
    obtain rfl | rfl : j = i ∨ j = i + 1 := by omega
    · rw [Nat.sub_self]
      change (uint16At b j >>> 8).toUInt8.toNat = _
      rw [toNat_high_byte, toNat_uint16At]
      omega
    · rw [Nat.add_sub_cancel_left]
      change (uint16At b i).toUInt8.toNat = _
      rw [toNat_low_byte, toNat_uint16At]
      omega
  · rfl

theorem getD_append {c : List UInt8} (h : i < b.length) : (b ++ c).getD i 0 = b.getD i 0 := by
  rw [List.getD_eq_getElem?_getD, List.getD_eq_getElem?_getD, List.getElem?_append_left h]

theorem getD_take {n : ℕ} (h : i < n) : (b.take n).getD i 0 = b.getD i 0 := by
  rw [List.getD_eq_getElem?_getD, List.getD_eq_getElem?_getD, List.getElem?_take_of_lt h]

theorem getD_drop (b : List UInt8) (n i : ℕ) : (b.drop n).getD i 0 = b.getD (n + i) 0 := by
  rw [List.getD_eq_getElem?_getD, List.getD_eq_getElem?_getD, List.getElem?_drop]

/-- A field that lies in the first `n` bytes. -/
theorem uint16At_take {n : ℕ} (h : i + 2 ≤ n) : uint16At (b.take n) i = uint16At b i := by
  rw [uint16At, uint16At, getD_take (by omega), getD_take (by omega)]

theorem uint32At_take {n : ℕ} (h : i + 4 ≤ n) : uint32At (b.take n) i = uint32At b i := by
  rw [uint32At, uint32At, getD_take (by omega), getD_take (by omega), getD_take (by omega),
    getD_take (by omega)]

end
end Netstack.Header
