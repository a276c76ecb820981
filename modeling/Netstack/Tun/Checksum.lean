import Netstack.Header.Checksum

/-! The checksum of the tun package (`channel/tun/checksum.go`).

    It sums 64-bit words in the byte order of the machine, carries deferred within a block of up to
    16 words, and folds the sum to 16 bits at the end. Modulo 65535 a word of eight bytes is the sum
    of its four 16-bit words, times 256 if the machine is little-endian; swapping the bytes of the
    sum at the end takes that factor out again. -/

namespace Netstack.Tun
open Netstack.Header Netstack.OnesComplement

/-! ### The source -/

/-- The byte order of the machine, `binary.NativeEndian`. -/
inductive ByteOrder where
  | little
  | big
  deriving DecidableEq

/-- The number with the given bytes, the least significant first. -/
def leNat : List UInt8 → ℕ
  | [] => 0
  | b :: rest => b.toNat + 256 * leNat rest

namespace ByteOrder

/-- `Uint16`, `Uint32` and `Uint64`, by the number of bytes, as a `uint64`. -/
def load (o : ByteOrder) (b : List UInt8) : UInt64 :=
  match o with
  | little => UInt64.ofNat (leNat b)
  | big => UInt64.ofNat (leNat b.reverse)

/-- `PutUint64`: the eight bytes. -/
def store (o : ByteOrder) (v : UInt64) : List UInt8 :=
  let bytes := (List.range 8).map fun i => UInt8.ofNat (v.toNat / 256 ^ i)
  match o with
  | little => bytes
  | big => bytes.reverse

/-- `NativeEndian.PutUint64`, then `BigEndian.Uint64`. -/
def swap (o : ByteOrder) (v : UInt64) : UInt64 := big.load (o.store v)

end ByteOrder

/-- `bits.Add64`: the sum and the carry out. -/
def add64 (x y carry : UInt64) : UInt64 × UInt64 :=
  (x + y + carry, if x.toNat + y.toNat + carry.toNat ≥ 2 ^ 64 then 1 else 0)

/-- `k` calls of `bits.Add64` on the words of `b`, each with the carry of the one before, and then
    `ac += carry`. -/
def addWords (o : ByteOrder) : ℕ → List UInt8 → UInt64 → UInt64 → UInt64
  | 0, _, ac, carry => ac + carry
  | k + 1, b, ac, carry =>
    let (ac, carry) := add64 ac (o.load (b.take 8)) carry
    addWords o k (b.drop 8) ac carry

/-- `if len(b) >= 8*k { ... b = b[8*k:] }`, on the sum so far and the bytes left. -/
def block (o : ByteOrder) (k : ℕ) (s : UInt64 × List UInt8) : UInt64 × List UInt8 :=
  if s.2.length ≥ 8 * k then (addWords o k s.2 s.1 0, s.2.drop (8 * k)) else s

/-- `for len(b) >= 128`; `fuel` above the number of blocks is not used up. -/
def blocks (o : ByteOrder) : ℕ → UInt64 × List UInt8 → UInt64 × List UInt8
  | 0, s => s
  | fuel + 1, s => if s.2.length ≥ 128 then blocks o fuel (block o 16 s) else s

/-- `ac, carry = bits.Add64(ac, v, 0); ac += carry`. -/
def addOne (ac v : UInt64) : UInt64 :=
  let (ac, carry) := add64 ac v 0
  ac + carry

/-- `if len(b) >= n`, for a last word of four or two bytes. -/
def tail (o : ByteOrder) (n : ℕ) (s : UInt64 × List UInt8) : UInt64 × List UInt8 :=
  if s.2.length ≥ n then (addOne s.1 (o.load (s.2.take n)), s.2.drop n) else s

/-- `if len(b) == 1`: the last byte is padded to a word. -/
def odd (o : ByteOrder) (s : UInt64 × List UInt8) : UInt64 :=
  if s.2.length = 1 then addOne s.1 (o.load [s.2.getD 0 0, 0]) else s.1

/-- `checksumNoFold`. -/
def checksumNoFold (o : ByteOrder) (b : List UInt8) (initial : UInt64) : UInt64 :=
  let s := blocks o b.length (o.swap initial, b)
  let s := block o 1 (block o 2 (block o 4 (block o 8 s)))
  o.swap (odd o (tail o 2 (tail o 4 s)))

/-- `ac = (ac >> 16) + (ac & 0xffff)`. -/
def foldOnce (ac : UInt64) : UInt64 := (ac >>> 16) + (ac &&& 0xffff)

/-- `checksum`. -/
def checksum (o : ByteOrder) (b : List UInt8) (initial : UInt64) : UInt16 :=
  (foldOnce (foldOnce (foldOnce (foldOnce (checksumNoFold o b initial))))).toUInt16

/-- `pseudoHeaderChecksumNoFold`. -/
def pseudoHeaderChecksumNoFold (o : ByteOrder) (protocol : UInt8) (srcAddr dstAddr : List UInt8)
    (totalLen : UInt16) : UInt64 :=
  let sum := checksumNoFold o srcAddr 0
  let sum := checksumNoFold o dstAddr sum
  let sum := checksumNoFold o [0, protocol] sum
  checksumNoFold o (bytes16 totalLen) sum

/-! ### Words in the byte order of the machine -/

/-- What a word of the machine counts for in 16-bit words. -/
def ByteOrder.weight : ByteOrder → ℕ
  | little => 256
  | big => 1

theorem residue_shift (n : ℕ) : residue 65535 (65536 * n) = residue 65535 n := by
  rw [residue_eq_residue]
  refine ⟨by omega, ?_⟩
  rw [show 65536 * n = 65535 * n + n by omega, Nat.ModEq, Nat.mul_add_mod]

theorem weight_weight (o : ByteOrder) (n : ℕ) : residue 65535 (o.weight * (o.weight * n)) = residue 65535 n := by
  cases o with
  | little =>
    rw [ByteOrder.weight, ← Nat.mul_assoc]
    exact residue_shift n
  | big => rw [ByteOrder.weight, Nat.one_mul, Nat.one_mul]

theorem leNat_lt : ∀ b : List UInt8, leNat b < 256 ^ b.length
  | [] => Nat.one_pos
  | x :: rest => by
      have hrest := leNat_lt rest
      have hx := x.toNat_lt
      rw [leNat, List.length_cons, Nat.pow_succ]
      omega

theorem leNat_append : ∀ b c : List UInt8, leNat (b ++ c) = leNat b + 256 ^ b.length * leNat c
  | [], c => by simp [leNat]
  | x :: b, c => by
      rw [List.cons_append, leNat, leNat, leNat_append b c, List.length_cons, Nat.pow_succ]
      ring

theorem residue_leNat : ∀ b : List UInt8, residue 65535 (leNat b) = residue 65535 (256 * wordSum b)
  | [] => rfl
  | [x] => by
      rw [leNat, leNat, wordSum, ← Nat.mul_assoc, Nat.mul_zero, Nat.add_zero]
      exact (residue_shift _).symm
  | x :: y :: rest => by
      have hpair : residue 65535 (x.toNat + 256 * y.toNat) = residue 65535 (256 * (256 * x.toNat + y.toNat)) := by
        rw [Nat.mul_add, ← Nat.mul_assoc]
        exact residue_add_congr (residue_shift _).symm rfl
      have hrest := (residue_shift _).trans (residue_leNat rest)
      have h := residue_add_congr hpair hrest
      rw [leNat, leNat, wordSum]
      convert h using 2 <;> ring

theorem residue_leNat_reverse : ∀ {b : List UInt8}, Even b.length →
    residue 65535 (leNat b.reverse) = residue 65535 (wordSum b)
  | [], _ => rfl
  | [x], h => by simp at h
  | x :: y :: rest, h => by
      have heven : Even rest.length := by simpa [Nat.even_add_one] using h
      have hrest := residue_leNat_reverse heven
      have hpow : ∃ k, rest.length = 2 * k := heven.exists_two_nsmul _
      obtain ⟨k, hk⟩ := hpow
      have hshift : ∀ (k n : ℕ), residue 65535 (65536 ^ k * n) = residue 65535 n := by
        intro k
        induction k with
        | zero => simp
        | succ k ih =>
          intro n
          rw [Nat.pow_succ, Nat.mul_assoc]
          exact (ih _).trans (residue_shift n)
      have hend : leNat (x :: y :: rest).reverse
          = leNat rest.reverse + 65536 ^ k * (256 * x.toNat + y.toNat) := by
        rw [List.reverse_cons, List.reverse_cons, List.append_assoc, leNat_append, List.length_reverse, hk,
          Nat.pow_mul]
        simp only [List.singleton_append, leNat]
        ring
      rw [hend, wordSum, Nat.add_comm]
      exact residue_add_congr (hshift k _) hrest

theorem toNat_load {o : ByteOrder} {b : List UInt8} (h : b.length ≤ 8) : (o.load b).toNat =
    match o with
    | .little => leNat b
    | .big => leNat b.reverse := by
  have hpow : 256 ^ b.length ≤ 2 ^ 64 := by
    calc 256 ^ b.length ≤ 256 ^ 8 := Nat.pow_le_pow_right (by decide) h
      _ = 2 ^ 64 := by norm_num
  have h1 := leNat_lt b
  have h2 := leNat_lt b.reverse
  rw [List.length_reverse] at h2
  cases o with
  | little => exact UInt64.toNat_ofNat'.trans (Nat.mod_eq_of_lt (by omega))
  | big => exact UInt64.toNat_ofNat'.trans (Nat.mod_eq_of_lt (by omega))

/-- A word read in the order of the machine. -/
theorem residue_load {o : ByteOrder} {b : List UInt8} (h : b.length ≤ 8) (he : Even b.length) :
    residue 65535 (o.load b).toNat = residue 65535 (o.weight * wordSum b) := by
  rw [toNat_load h]
  cases o with
  | little => exact residue_leNat b
  | big =>
    rw [ByteOrder.weight, Nat.one_mul]
    exact residue_leNat_reverse he

/-- The bytes of a number make up the number. -/
theorem leNat_bytes (n : ℕ) : ∀ k, leNat ((List.range k).map fun i => UInt8.ofNat (n / 256 ^ i)) = n % 256 ^ k
  | 0 => by simp [leNat, Nat.mod_one]
  | k + 1 => by
      rw [List.range_succ, List.map_append, leNat_append, leNat_bytes n k, List.length_map, List.length_range,
        Nat.mod_pow_succ]
      simp [leNat]

/-- Swapping the bytes of a sum takes out the factor of the byte order. -/
theorem residue_swap (o : ByteOrder) (v : UInt64) :
    residue 65535 (o.swap v).toNat = residue 65535 (o.weight * v.toNat) := by
  have hv := v.toNat_lt
  have hbytes : leNat ((List.range 8).map fun i => UInt8.ofNat (v.toNat / 256 ^ i)) = v.toNat := by
    rw [leNat_bytes]
    exact Nat.mod_eq_of_lt (by norm_num; omega)
  cases o with
  | little =>
    have hword := residue_leNat ((List.range 8).map fun i => UInt8.ofNat (v.toNat / 256 ^ i))
    rw [hbytes] at hword
    have hload := @residue_load .big ((List.range 8).map fun i => UInt8.ofNat (v.toNat / 256 ^ i))
      (by simp) (by simp; decide)
    rw [ByteOrder.weight, Nat.one_mul] at hload
    exact hload.trans ((weight_weight .little _).symm.trans (residue_mul_congr hword.symm 256))
  | big =>
    have hload : (ByteOrder.big.load (ByteOrder.big.store v)).toNat = v.toNat := by
      rw [toNat_load (by simp [ByteOrder.store])]
      simp only [ByteOrder.store, List.reverse_reverse]
      exact hbytes
    rw [ByteOrder.swap, hload, ByteOrder.weight, Nat.one_mul]

/-! ### Adding with carry -/

/-- One call of `Add64`: sum and carry together stay within a word and count the word added. -/
theorem add64_spec {x c : UInt64} (y : UInt64) (h : x.toNat + c.toNat < 2 ^ 64) :
    (add64 x y c).1.toNat + (add64 x y c).2.toNat < 2 ^ 64 ∧
    residue 65535 ((add64 x y c).1.toNat + (add64 x y c).2.toNat)
      = residue 65535 (x.toNat + c.toNat + y.toNat) := by
  have hx := x.toNat_lt
  have hy := y.toNat_lt
  have hsum : (add64 x y c).1.toNat = (x.toNat + y.toNat + c.toNat) % 2 ^ 64 := by
    rw [add64, UInt64.toNat_add, UInt64.toNat_add, Nat.mod_add_mod]
  have hcarry : (add64 x y c).2.toNat = (x.toNat + y.toNat + c.toNat) / 2 ^ 64 := by
    rw [add64]
    dsimp only
    split_ifs with hge
    · have h1 : (1 : UInt64).toNat = 1 := by decide
      omega
    · have h0 : (0 : UInt64).toNat = 0 := by decide
      omega
  have hcore := @residue_add_with_carry (2 ^ 64 - 1) _ _ _ (by omega : x.toNat + c.toNat ≤ 2 ^ 64 - 1)
    (by omega : y.toNat ≤ 2 ^ 64 - 1)
  rw [show 2 ^ 64 - 1 + 1 = 2 ^ 64 from rfl, ← hsum, ← hcarry] at hcore
  exact ⟨by omega, residue_congr_of_dvd (by norm_num) hcore.2⟩

/-- The words of a block. -/
theorem residue_addWords (o : ByteOrder) : ∀ {k : ℕ} {b : List UInt8} {ac carry : UInt64},
    8 * k ≤ b.length → ac.toNat + carry.toNat < 2 ^ 64 →
    residue 65535 (addWords o k b ac carry).toNat
      = residue 65535 (ac.toNat + carry.toNat + o.weight * wordSum (b.take (8 * k)))
  | 0, b, ac, carry, _, h => by
      rw [addWords, UInt64.toNat_add, Nat.mod_eq_of_lt h]
      simp [wordSum]
  | k + 1, b, ac, carry, hlen, h => by
      have htake : (b.take 8).length = 8 := by rw [List.length_take]; omega
      obtain ⟨hlt, hstep⟩ := add64_spec (o.load (b.take 8)) h
      have hload := @residue_load o (b.take 8) (by omega) (by rw [htake]; decide)
      have ih := @residue_addWords o k (b.drop 8) _ _ (by rw [List.length_drop]; omega) hlt
      have hsplit : b.take (8 * (k + 1)) = b.take 8 ++ (b.drop 8).take (8 * k) := by
        rw [← List.take_add, Nat.mul_succ, Nat.add_comm]
      rw [hsplit, wordSum_append _ (by rw [htake]; decide), Nat.mul_add, ← Nat.add_assoc]
      refine (show residue 65535 (addWords o (k + 1) b ac carry).toNat = _ from ih).trans ?_
      exact residue_add_congr (hstep.trans (residue_add_congr rfl hload)) rfl

/-- What the sum so far and the bytes left stand for. -/
def value (o : ByteOrder) (s : UInt64 × List UInt8) : ℕ := s.1.toNat + o.weight * wordSum s.2

theorem residue_addOne {o : ByteOrder} {ac : UInt64} {b : List UInt8} (h : b.length ≤ 8) (he : Even b.length) :
    residue 65535 (addOne ac (o.load b)).toNat = residue 65535 (ac.toNat + o.weight * wordSum b) := by
  obtain ⟨hlt, hstep⟩ := @add64_spec ac 0 (o.load b) (by simpa using ac.toNat_lt)
  have hsum : (addOne ac (o.load b)).toNat = (add64 ac (o.load b) 0).1.toNat + (add64 ac (o.load b) 0).2.toNat := by
    rw [addOne, UInt64.toNat_add, Nat.mod_eq_of_lt hlt]
  rw [hsum, hstep]
  exact residue_add_congr rfl (residue_load h he)

theorem wordSum_take_drop {b : List UInt8} {n : ℕ} (hn : n ≤ b.length) (he : Even n) :
    wordSum b = wordSum (b.take n) + wordSum (b.drop n) := by
  conv_lhs => rw [← List.take_append_drop n b]
  exact wordSum_append _ (by rw [List.length_take, min_eq_left hn]; exact he)

theorem block_spec (o : ByteOrder) (k : ℕ) (s : UInt64 × List UInt8) :
    residue 65535 (value o (block o k s)) = residue 65535 (value o s) ∧
    (s.2.length < 16 * k → (block o k s).2.length < 8 * k) := by
  rw [block]
  split_ifs with h
  · have hwords := @residue_addWords o k s.2 s.1 0 h (by simpa using s.1.toNat_lt)
    rw [show (0 : UInt64).toNat = 0 from rfl, Nat.add_zero] at hwords
    refine ⟨?_, fun hlt => by rw [List.length_drop]; omega⟩
    rw [value, value, wordSum_take_drop h ((by decide : Even 8).mul_right k), Nat.mul_add, ← Nat.add_assoc]
    exact residue_add_congr hwords rfl
  · exact ⟨rfl, fun _ => by omega⟩

theorem tail_spec {o : ByteOrder} {n : ℕ} (hn : n ≤ 8) (he : Even n) (s : UInt64 × List UInt8) :
    residue 65535 (value o (tail o n s)) = residue 65535 (value o s) ∧
    (s.2.length < 2 * n → (tail o n s).2.length < n) := by
  rw [tail]
  split_ifs with h
  · have htake : (s.2.take n).length = n := by rw [List.length_take]; omega
    have hone := @residue_addOne o s.1 (s.2.take n) (by omega) (by rw [htake]; exact he)
    refine ⟨?_, fun hlt => by rw [List.length_drop]; omega⟩
    rw [value, value, wordSum_take_drop h he, Nat.mul_add, ← Nat.add_assoc]
    exact residue_add_congr hone rfl
  · exact ⟨rfl, fun _ => by omega⟩

theorem blocks_spec (o : ByteOrder) : ∀ {fuel : ℕ} {s : UInt64 × List UInt8}, s.2.length ≤ fuel →
    residue 65535 (value o (blocks o fuel s)) = residue 65535 (value o s) ∧
    (blocks o fuel s).2.length < 128
  | 0, s, h => ⟨rfl, by rw [blocks]; omega⟩
  | fuel + 1, s, h => by
      rw [blocks]
      split_ifs with hlen
      · obtain ⟨hval, -⟩ := block_spec o 16 s
        have hle : (block o 16 s).2.length ≤ fuel := by
          rw [block, if_pos (by omega), List.length_drop]
          omega
        obtain ⟨ih, hlt⟩ := blocks_spec o hle
        exact ⟨ih.trans hval, hlt⟩
      · exact ⟨rfl, by omega⟩

theorem residue_odd {o : ByteOrder} {s : UInt64 × List UInt8} (h : s.2.length < 2) :
    residue 65535 (odd o s).toNat = residue 65535 (value o s) := by
  rw [odd, value]
  split_ifs with h1
  · obtain ⟨x, hx⟩ := List.length_eq_one_iff.1 h1
    have hone := @residue_addOne o s.1 [x, 0] (Nat.le_add_left 2 6) even_two
    rw [hx]
    simpa [wordSum] using hone
  · have hnil : s.2 = [] := List.length_eq_zero_iff.1 (by omega)
    rw [hnil, wordSum, Nat.mul_zero, Nat.add_zero]

/-- `checksumNoFold` is a sum of 16-bit words that has not been folded. -/
theorem residue_checksumNoFold (o : ByteOrder) (b : List UInt8) (initial : UInt64) :
    residue 65535 (checksumNoFold o b initial).toNat = residue 65535 (initial.toNat + wordSum b) := by
  obtain ⟨v0, l0⟩ := @blocks_spec o b.length (o.swap initial, b) le_rfl
  obtain ⟨v1, l1⟩ := block_spec o 8 (blocks o b.length (o.swap initial, b))
  obtain ⟨v2, l2⟩ := block_spec o 4 (block o 8 (blocks o b.length (o.swap initial, b)))
  obtain ⟨v3, l3⟩ := block_spec o 2 (block o 4 (block o 8 (blocks o b.length (o.swap initial, b))))
  obtain ⟨v4, l4⟩ := block_spec o 1 (block o 2 (block o 4 (block o 8 (blocks o b.length (o.swap initial, b)))))
  obtain ⟨v5, l5⟩ := @tail_spec o 4 (by decide) (by decide)
    (block o 1 (block o 2 (block o 4 (block o 8 (blocks o b.length (o.swap initial, b))))))
  obtain ⟨v6, l6⟩ := @tail_spec o 2 (by decide) (by decide)
    (tail o 4 (block o 1 (block o 2 (block o 4 (block o 8 (blocks o b.length (o.swap initial, b)))))))
  have hodd := @residue_odd o _ (l6 (l5 (l4 (l3 (l2 (l1 l0))))))
  have hsum := hodd.trans (v6.trans (v5.trans (v4.trans (v3.trans (v2.trans (v1.trans v0))))))
  have hvalue : residue 65535 (value o (o.swap initial, b)) = residue 65535 (o.weight * (initial.toNat + wordSum b)) := by
    rw [value, Nat.mul_add]
    exact residue_add_congr (residue_swap o initial) rfl
  rw [checksumNoFold]
  exact (residue_swap o _).trans ((residue_mul_congr (hsum.trans hvalue) _).trans (weight_weight o _))

/-! ### Folding -/

theorem toNat_foldOnce (ac : UInt64) : (foldOnce ac).toNat = ac.toNat / 65536 + ac.toNat % 65536 := by
  have hlt := ac.toNat_lt
  have hshift : (ac >>> 16).toNat = ac.toNat / 65536 := by
    rw [UInt64.toNat_shiftRight]
    exact Nat.shiftRight_eq_div_pow _ _
  have hmask : (ac &&& 0xffff).toNat = ac.toNat % 65536 := by
    rw [UInt64.toNat_and]
    exact Nat.and_two_pow_sub_one_eq_mod _ 16
  rw [foldOnce, UInt64.toNat_add, hshift, hmask]
  exact Nat.mod_eq_of_lt (by omega)

/-- Four folds bring any 64-bit sum to 16 bits. -/
theorem toNat_checksum_fold (o : ByteOrder) (b : List UInt8) (initial : UInt64) :
    (checksum o b initial).toNat = residue 65535 (initial.toNat + wordSum b) := by
  have hkeep : ∀ ac : UInt64, residue 65535 (foldOnce ac).toNat = residue 65535 ac.toNat := fun ac => by
    rw [toNat_foldOnce]
    exact residue_carry 65535 _
  obtain ⟨ac, hac⟩ : ∃ ac, ac = checksumNoFold o b initial := ⟨_, rfl⟩
  have hle : (foldOnce (foldOnce (foldOnce (foldOnce ac)))).toNat ≤ 65535 := by
    have h0 := ac.toNat_lt
    have h1 : (foldOnce ac).toNat ≤ 2 ^ 48 + 65534 := by rw [toNat_foldOnce]; omega
    have h2 : (foldOnce (foldOnce ac)).toNat ≤ 2 ^ 32 + 65534 := by rw [toNat_foldOnce]; omega
    have h3 : (foldOnce (foldOnce (foldOnce ac))).toNat ≤ 131070 := by rw [toNat_foldOnce]; omega
    rw [toNat_foldOnce]
    omega
  rw [← residue_checksumNoFold o, checksum, ← hac, UInt64.toNat_toUInt16, Nat.mod_eq_of_lt (by omega),
    ← residue_of_le hle, hkeep, hkeep, hkeep, hkeep]

/-- The two sums over one string are each other's complement, if the initial values stand for one
    sum. -/
theorem checksum_eq_not (o : ByteOrder) {b : List UInt8} {initial : UInt64} {initial' : UInt16}
    (hlen : b.length ≤ 65535) (hinit : residue 65535 initial.toNat = residue 65535 initial'.toNat) :
    checksum o b initial = ~~~ Header.checksum b initial' := by
  have hle : residue 65535 (initial'.toNat + wordSum b) ≤ 65535 := residue_le (by decide)
  rw [← UInt16.toNat_inj, toNat_checksum_fold, UInt16.toNat_not, toNat_checksum (wordSum_lt hlen initial'),
    residue_add_congr hinit rfl]
  change _ = 65536 - 1 - _
  omega

theorem residue_pseudoHeader (o : ByteOrder) (protocol : UInt8) (src dst : UInt32) (totalLen : UInt16) :
    residue 65535 (pseudoHeaderChecksumNoFold o protocol (bytes32 src) (bytes32 dst) totalLen).toNat =
      residue 65535 (pseudoHeaderChecksum protocol src dst totalLen).toNat := by
  have hproto : wordSum [0, protocol] = protocol.toNat := by simp [wordSum]
  rw [toNat_pseudoHeaderChecksum, residue_residue (by decide), pseudoHeaderSum, ← hproto, ← wordSum_bytes16,
    pseudoHeaderChecksumNoFold, residue_checksumNoFold]
  refine residue_add_congr ((residue_checksumNoFold o _ _).trans (residue_add_congr
    ((residue_checksumNoFold o _ _).trans (residue_add_congr ((residue_checksumNoFold o _ _).trans ?_) rfl)) rfl)) rfl
  exact congrArg (residue 65535) (Nat.zero_add _)

/-- CORRECT: on a machine of either byte order the word-at-a-time checksum is the complement of
    `header.Checksum`, the choice between `0x0000` and `0xffff` included, and so is the checksum
    started from the pseudo-header. -/
theorem checksums_agree (o : ByteOrder) (b : List UInt8) (hlen : b.length ≤ 65535) :
    (∀ initial : UInt16, checksum o b initial.toUInt64 = ~~~ Header.checksum b initial) ∧
    (∀ (protocol : UInt8) (src dst : UInt32) (totalLen : UInt16),
      checksum o b (pseudoHeaderChecksumNoFold o protocol (bytes32 src) (bytes32 dst) totalLen) =
        ~~~ Header.checksum b (pseudoHeaderChecksum protocol src dst totalLen)) :=
  ⟨fun initial => checksum_eq_not o hlen (by rw [UInt16.toNat_toUInt64]),
    fun protocol src dst totalLen => checksum_eq_not o hlen (residue_pseudoHeader o protocol src dst totalLen)⟩

/-- An odd string, whose sum is congruent to zero without being zero. -/
theorem checksums_agree_sample :
    checksum .little [0xff, 0xfe, 0x00, 0x01, 0x00] 0 = ~~~ Header.checksum [0xff, 0xfe, 0x00, 0x01, 0x00] 0 ∧
    checksum .little [0xff, 0xfe, 0x00, 0x01, 0x00] 0 = 0xffff := by
  have hagree := (checksums_agree .little [0xff, 0xfe, 0x00, 0x01, 0x00] (by decide)).1 0
  exact ⟨hagree, hagree.trans (by decide)⟩

end Netstack.Tun
