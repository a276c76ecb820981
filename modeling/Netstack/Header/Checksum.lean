import Netstack.Header.Fields
import Netstack.Lib.OnesComplement

/-! The internet checksum (`header/checksum.go`) is the complement of a one's-complement sum.

    Its 32-bit accumulator does not overflow on what a packet can hold, so `Checksum` is 65535 minus
    the representative of the total of the words. A header is sealed when its checksum field has
    been filled in over the rest; checking it again then gives 0. -/

namespace Netstack.Header
open Netstack.Copy Netstack.OnesComplement

/-! ### Words and fields -/

theorem toNat_byte_pair (a b : UInt8) : (a.toUInt32 <<< 8 ||| b.toUInt32).toNat = 256 * a.toNat + b.toNat := by
  have ha := a.toNat_lt
  have hb := b.toNat_lt
  rw [UInt32.toNat_or, UInt32.toNat_shiftLeft, UInt8.toNat_toUInt32, UInt8.toNat_toUInt32]
  exact (toNat_shift_or (by omega : _ < 2 ^ 8) (by omega)).trans (by omega)

@[simp] theorem wordSum_bytes16 (v : UInt16) : wordSum (bytes16 v) = v.toNat := by
  rw [bytes16, wordSum, wordSum, toNat_high_byte, toNat_low_byte]
  omega

/-- A 16-bit field at an even offset counts as one word. -/
theorem wordSum_blit {b : List UInt8} {i : ℕ} (v : UInt16) (he : Even i) (hi : i + 2 ≤ b.length) :
    wordSum (blit b i (bytes16 v)) = wordSum (b.take i) + v.toNat + wordSum (b.drop (i + 2)) := by
  have htake : (b.take i).length = i := by rw [List.length_take]; omega
  have hfit : (bytes16 v).take (b.length - i) = bytes16 v :=
    List.take_of_length_le (by rw [length_bytes16]; omega)
  have heven : Even (b.take i ++ bytes16 v).length := by
    rw [List.length_append, htake, length_bytes16]
    exact he.add even_two
  rw [blit, hfit, wordSum_append _ heven, wordSum_append _ (by rw [htake]; exact he), wordSum_bytes16,
    length_bytes16]

/-! ### `Checksum` -/

/-- The accumulator holds the total as long as that fits 32 bits. -/
theorem toNat_checksumSum : ∀ (b : List UInt8) (sum : UInt32), sum.toNat + wordSum b < 2 ^ 32 →
    (checksumSum b sum).toNat = sum.toNat + wordSum b
  | [], sum, _ => rfl
  | [x], sum, h => by
      rw [wordSum] at h
      rw [checksumSum, wordSum, UInt32.toNat_add]
      have hx := toNat_byte_pair x 0
      rw [show (0 : UInt8).toUInt32 = 0 from rfl, UInt32.or_zero, show (0 : UInt8).toNat = 0 from rfl,
        Nat.add_zero] at hx
      rw [hx, Nat.mod_eq_of_lt h]
  | x :: y :: rest, sum, h => by
      rw [wordSum] at h
      have hadd : (sum + (x.toUInt32 <<< 8 ||| y.toUInt32)).toNat = sum.toNat + (256 * x.toNat + y.toNat) := by
        rw [UInt32.toNat_add, toNat_byte_pair, Nat.mod_eq_of_lt (by omega)]
      rw [checksumSum, wordSum, toNat_checksumSum rest _ (by omega), hadd]
      omega

/-- Two foldings bring a 32-bit sum down to 16 bits. -/
theorem toNat_checksumFold (sum : UInt32) : (checksumFold sum).toNat = residue 65535 sum.toNat := by
  have hfold : ∀ s : UInt32, (if s > 0xffff then (s >>> 16) + (s &&& 0xffff) else s).toNat =
      if 65535 < s.toNat then s.toNat / 65536 + s.toNat % 65536 else s.toNat := by
    intro s
    have hs := s.toNat_lt
    have hlt : s > 0xffff ↔ 65535 < s.toNat := UInt32.lt_iff_toNat_lt
    have hsum : ((s >>> 16) + (s &&& 0xffff)).toNat = s.toNat / 65536 + s.toNat % 65536 := by
      rw [UInt32.toNat_add, UInt32.toNat_shiftRight, UInt32.toNat_and,
        show (16 : UInt32).toNat % 32 = 16 from rfl, show (0xffff : UInt32).toNat = 2 ^ 16 - 1 from rfl,
        Nat.and_two_pow_sub_one_eq_mod, Nat.shiftRight_eq_div_pow]
      omega
    by_cases h : s > 0xffff
    · rw [if_pos h, if_pos (hlt.1 h), hsum]
    · rw [if_neg h, if_neg (fun h' => h (hlt.2 h'))]
  have hres : ∀ n, residue 65535 (if 65535 < n then n / 65536 + n % 65536 else n) = residue 65535 n := by
    intro n
    split_ifs
    · exact residue_carry 65535 n
    · rfl
  have hs := sum.toNat_lt
  rw [checksumFold, hfold, hfold, ← hres, ← hres]
  exact (residue_of_le (by split_ifs <;> omega)).symm

/-- `Checksum` is the complement of the one's-complement sum. -/
theorem toNat_checksum {b : List UInt8} {initial : UInt16} (h : initial.toNat + wordSum b < 2 ^ 32) :
    (checksum b initial).toNat = 65535 - residue 65535 (initial.toNat + wordSum b) := by
  have hfold := toNat_checksumFold (checksumSum b initial.toUInt32)
  rw [toNat_checksumSum _ _ (by rwa [UInt16.toNat_toUInt32]), UInt16.toNat_toUInt32] at hfold
  have hle : residue 65535 (initial.toNat + wordSum b) ≤ 65535 := residue_le (by decide)
  rw [checksum, UInt16.toNat_not, UInt32.toNat_toUInt16, hfold, Nat.mod_eq_of_lt (by omega)]
  rfl

/-- No string of up to 65535 bytes overflows the accumulator. -/
theorem wordSum_lt {b : List UInt8} (h : b.length ≤ 65535) (initial : UInt16) :
    initial.toNat + wordSum b < 2 ^ 32 := by
  have hle := wordSum_le b
  have hi := initial.toNat_lt
  omega

theorem checksum_eq_zero {b : List UInt8} {initial : UInt16} (h : initial.toNat + wordSum b < 2 ^ 32) :
    checksum b initial = 0 ↔ residue 65535 (initial.toNat + wordSum b) = 65535 := by
  have hle : residue 65535 (initial.toNat + wordSum b) ≤ 65535 := residue_le (by decide)
  rw [← UInt16.toNat_inj, toNat_checksum h]
  change 65535 - _ = 0 ↔ _
  omega

/-- A string in which a field at an even offset holds the checksum of the string with that field
    zero: checking it gives 0. -/
theorem checksum_sealed {b : List UInt8} {i : ℕ} {initial : UInt16} (he : Even i)
    (hi : i + 2 ≤ b.length) (hb : b.length ≤ 65535) :
    checksum (blit b i (bytes16 (checksum (blit b i (bytes16 0)) initial))) initial = 0 := by
  have hlen : ∀ v : UInt16, (blit b i (bytes16 v)).length = b.length := fun v => length_blit _ (by omega)
  have hlt : ∀ v : UInt16, initial.toNat + wordSum (blit b i (bytes16 v)) < 2 ^ 32 := fun v =>
    wordSum_lt (by rw [hlen]; exact hb) initial
  rw [checksum_eq_zero (hlt _), wordSum_blit _ he hi, toNat_checksum (hlt 0), wordSum_blit _ he hi]
  have h := residue_add_complement (by decide : 0 < 65535)
    (initial.toNat + (wordSum (b.take i) + wordSum (b.drop (i + 2))))
  rw [show (0 : UInt16).toNat = 0 from rfl, Nat.add_zero]
  convert h using 2
  omega

/-- The words of the pseudo-header. -/
def pseudoHeaderSum (proto : UInt8) (src dst : UInt32) (totalLen : UInt16) : ℕ :=
  wordSum (bytes32 src) + wordSum (bytes32 dst) + proto.toNat + totalLen.toNat

theorem toNat_pseudoHeaderChecksum (proto : UInt8) (src dst : UInt32) (totalLen : UInt16) :
    (pseudoHeaderChecksum proto src dst totalLen).toNat
      = residue 65535 (pseudoHeaderSum proto src dst totalLen) := by
  have hsum : wordSum (bytes32 src ++ bytes32 dst ++ [0, proto] ++ bytes16 totalLen)
      = pseudoHeaderSum proto src dst totalLen := by
    have hproto : wordSum [0, proto] = proto.toNat := by simp [wordSum]
    rw [wordSum_append, wordSum_append, wordSum_append, wordSum_bytes16, hproto, pseudoHeaderSum] <;>
      simp [length_bytes32] <;> decide
  have hle : residue 65535 (pseudoHeaderSum proto src dst totalLen) ≤ 65535 := residue_le (by decide)
  have hlt := @wordSum_lt (bytes32 src ++ bytes32 dst ++ [0, proto] ++ bytes16 totalLen)
    (by simp [length_bytes32, length_bytes16]) 0
  rw [pseudoHeaderChecksum, UInt16.toNat_not, toNat_checksum hlt, hsum, UInt16.toNat_zero, Nat.zero_add]
  change 65536 - 1 - _ = _
  omega

/-! ### The IPv4 header -/

namespace IPv4

/-- `SetChecksum(0)`, then `SetChecksum(Checksum(raw[:n], 0))`. -/
def sealHeader (raw : List UInt8) (n : ℕ) : List UInt8 :=
  setChecksum (setChecksum raw 0) (checksum ((setChecksum raw 0).take n) 0)

variable {raw : List UInt8} {n : ℕ}

theorem length_sealHeader (h : 12 ≤ raw.length) : (sealHeader raw n).length = raw.length := by
  rw [sealHeader, setChecksum, setChecksum, length_blit _ (by rw [length_blit _ (by omega)]; omega),
    length_blit _ (by omega)]

/-- Only the two bytes of the checksum change. -/
theorem getD_sealHeader (raw : List UInt8) (n : ℕ) {j : ℕ} (h : j < 10 ∨ 12 ≤ j) :
    (sealHeader raw n).getD j 0 = raw.getD j 0 := by
  rw [sealHeader, setChecksum, setChecksum, getD_blit_ne (by rw [length_bytes16]; omega),
    getD_blit_ne (by rw [length_bytes16]; omega)]

theorem uint16At_sealHeader (raw : List UInt8) (n : ℕ) {j : ℕ} (h : j + 2 ≤ 10 ∨ 12 ≤ j) :
    uint16At (sealHeader raw n) j = uint16At raw j := by
  rw [uint16At, uint16At, getD_sealHeader raw n (by omega), getD_sealHeader raw n (by omega)]

theorem uint32At_sealHeader (raw : List UInt8) (n : ℕ) {j : ℕ} (h : j + 4 ≤ 10 ∨ 12 ≤ j) :
    uint32At (sealHeader raw n) j = uint32At raw j := by
  rw [uint32At, uint32At, getD_sealHeader raw n (by omega), getD_sealHeader raw n (by omega),
    getD_sealHeader raw n (by omega), getD_sealHeader raw n (by omega)]

/-- The checksum of a sealed header is right. -/
theorem checksum_sealHeader (hn : 12 ≤ n) (hlen : n ≤ raw.length) (hmax : n ≤ 65535) :
    checksum ((sealHeader raw n).take n) 0 = 0 := by
  have htake : (raw.take n).length = n := by rw [List.length_take]; omega
  have hzero : (setChecksum raw 0).take n = blit (raw.take n) 10 (bytes16 0) :=
    take_blit_of_le _ (by rw [length_bytes16]; omega) (by rw [length_bytes16]; omega)
  rw [sealHeader, hzero, setChecksum, setChecksum,
    blit_blit (by rw [length_bytes16, length_bytes16]) (by rw [length_bytes16]; omega),
    take_blit_of_le _ (by rw [length_bytes16]; omega) (by rw [length_bytes16]; omega)]
  exact checksum_sealed (by decide) (by omega) (by omega)

/-- A sealed header holds the checksum of itself with the field zeroed. -/
theorem uint16At_sealHeader_self (h : 12 ≤ raw.length) : uint16At (sealHeader raw n) 10 =
    checksum ((setChecksum (sealHeader raw n) 0).take n) 0 := by
  have hzero : setChecksum (sealHeader raw n) 0 = setChecksum raw 0 := by
    rw [sealHeader, setChecksum, setChecksum, setChecksum, blit_blit (by simp) (by rw [length_blit _ (by omega)]; simp; omega),
      blit_blit (by simp) (by simp; omega)]
  rw [hzero, sealHeader, setChecksum, uint16At_blit_self _ (by rw [setChecksum, length_blit _ (by omega)]; omega)]

end IPv4
end Netstack.Header
