import Netstack.Lib.Serial

/-! Ranges of serial numbers.

    `Between start stop x` says that number `x` lies in the half-open range that runs forward from
    `start` to `stop`, across the wrap if need be. A range is `Straddling` when its end is the smaller
    number: these are the ranges that plain comparison of numbers gets wrong. -/

namespace Netstack.Serial

/-- The number `x` lies in the range from `start` up to `stop`. -/
def Between (start stop x : UInt32) : Prop := (x - start).toNat < (stop - start).toNat

instance (start stop x : UInt32) : Decidable (Between start stop x) :=
  inferInstanceAs (Decidable (_ < _))

/-- The range from `start` up to `stop` passes the wrap, or ends at it. -/
def Straddling (start stop : UInt32) : Prop := stop < start

instance (start stop : UInt32) : Decidable (Straddling start stop) :=
  inferInstanceAs (Decidable (_ < _))

/-- The plain number of an offset. -/
theorem toNat_seqAt (base : UInt32) (n : ℕ) : (seqAt base n).toNat = (base.toNat + n) % 2 ^ 32 := by
  rw [seqAt, UInt32.toNat_add, UInt32.toNat_ofNat', Nat.add_mod_mod]

variable {start stop x : UInt32} {len : ℕ}

/-- All numbers of a run of `len` from `x` lie in the range iff the run ends inside it. -/
theorem forall_between_iff (hpos : 0 < len) (hlen : len < 2 ^ 31) :
    (∀ j < len, Between start stop (x + UInt32.ofNat j)) ↔
      (x - start).toNat + len ≤ (stop - start).toNat := by
  have hx := (x - start).toNat_lt
  have hs := (stop - start).toNat_lt
  have hadd : ∀ j, j < 2 ^ 32 → (x - start).toNat + j < 2 ^ 32 →
      (x + UInt32.ofNat j - start).toNat = (x - start).toNat + j := by
    intro j hj hlt
    have hx' := x.toNat_lt
    have ha := start.toNat_lt
    simp only [UInt32.toNat_sub, UInt32.toNat_add, UInt32.toNat_ofNat'] at hlt ⊢
    omega
  constructor
  · intro h
    by_contra hgt
    -- the first number past the end of the range is one of the run
    have h0 : (x - start).toNat < (stop - start).toNat := by
      have h0 := h 0 hpos
      rwa [Between, hadd 0 (by omega) (by omega), Nat.add_zero] at h0
    have hend := h ((stop - start).toNat - (x - start).toNat) (by omega)
    rw [Between, hadd _ (by omega) (by omega)] at hend
    omega
  · intro h j hj
    rw [Between, hadd j (by omega) (by omega)]
    omega

/-- Plain comparison of the ends decides containment when range and run are alike with respect to the
    wrap. -/
theorem plain_iff_forall_between (hpos : 0 < len) (hlen : len < 2 ^ 31)
    (hrange : (stop - start).toNat < 2 ^ 31)
    (halike : Straddling start stop ↔ Straddling x (x + UInt32.ofNat len)) :
    (start ≤ x ∧ x + UInt32.ofNat len ≤ stop) ↔ ∀ j < len, Between start stop (x + UInt32.ofNat j) := by
  have hx := x.toNat_lt
  have ha := start.toNat_lt
  have hb := stop.toNat_lt
  rw [forall_between_iff hpos hlen]
  simp only [Straddling, UInt32.lt_iff_toNat_lt, UInt32.le_iff_toNat_le, UInt32.toNat_add,
    UInt32.toNat_sub, UInt32.toNat_ofNat'] at *
  omega

/-- A run that straddles the wrap lies in no range that does not. -/
theorem straddling_of_forall_between (hpos : 0 < len) (hlen : len < 2 ^ 31)
    (hrange : (stop - start).toNat < 2 ^ 31) (h : ∀ j < len, Between start stop (x + UInt32.ofNat j))
    (hx : Straddling x (x + UInt32.ofNat len)) : Straddling start stop := by
  have hx' := x.toNat_lt
  have ha := start.toNat_lt
  have hb := stop.toNat_lt
  rw [forall_between_iff hpos hlen] at h
  simp only [Straddling, UInt32.lt_iff_toNat_lt, UInt32.toNat_add, UInt32.toNat_sub,
    UInt32.toNat_ofNat'] at *
  omega

/-- Plain comparison puts no run that does not straddle the wrap into a range that does. -/
theorem straddling_of_plain (h : start ≤ x ∧ x + UInt32.ofNat len ≤ stop)
    (hrange : Straddling start stop) : Straddling x (x + UInt32.ofNat len) := by
  have hx := x.toNat_lt
  simp only [Straddling, UInt32.lt_iff_toNat_lt, UInt32.le_iff_toNat_le, UInt32.toNat_add,
    UInt32.toNat_ofNat'] at *
  omega

end Netstack.Serial
