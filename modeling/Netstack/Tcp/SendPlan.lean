import Netstack.Lib.Pieces

/-! How much one call of `sendPending` sends, as sizes only.

    A turn of the loop sees the window `w` and the bytes `a` that are left and sends one block: a
    segment, or with a GSO writer a batch that is cut into segments later. `plan` lists the blocks,
    each with the sizes of its segments. Segment by segment everything is full up to the last one,
    which the SWS and Nagle tests may hold back; a batch takes its last segment along untested, and
    the size limit of a batch may end it in the middle of a segment. `plan_agrees` says exactly when
    neither shows. -/

namespace Netstack.Tcp
open Netstack.Pieces

/-- What `sendPending` reads and does not change: the segment size, the window below which SWS
    avoidance waits, and the two switches. -/
structure Pace where
  mss : ℕ
  sws : ℕ
  probing : Bool
  noDelay : Bool
  mss_pos : 0 < mss
  sws_le : sws ≤ mss

namespace Pace

variable (p : Pace)

/-- SWS avoidance or Nagle holds the next segment back. -/
def holds (w a : ℕ) (busy : Bool) : Bool :=
  (!p.probing && decide (w < p.sws) && decide (a > w)) || (!p.noDelay && busy && decide (a < p.mss))

/-- The block of one turn. -/
def block (batch : Option ℕ) (w a : ℕ) : List ℕ :=
  match batch with
  | some g => if p.mss < a ∧ p.mss < w then pieces p.mss (min (min w a) g) else [min (min w a) p.mss]
  | none => [min (min w a) p.mss]

theorem sum_block_le (batch : Option ℕ) (w a : ℕ) : (p.block batch w a).sum ≤ min w a := by
  rw [block.eq_def]
  split
  · split
    · rw [sum_pieces]
      exact min_le_left _ _
    · simp
  · simp

theorem sum_block_pos {batch : Option ℕ} (hb : ∀ g ∈ batch, 0 < g) {w a : ℕ} (h : 0 < min w a) :
    0 < (p.block batch w a).sum := by
  have hpos := p.mss_pos
  rw [block.eq_def]
  split
  · have hg := hb _ rfl
    split
    · rw [sum_pieces]
      omega
    · rw [List.sum_singleton]
      omega
  · rw [List.sum_singleton]
    omega

/-- The blocks of one call. -/
def plan (batch : Option ℕ) : ℕ → ℕ → ℕ → Bool → List (List ℕ)
  | 0, _, _, _ => []
  | fuel + 1, w, a, busy =>
    if w = 0 ∨ a = 0 ∨ p.holds w a busy then []
    else p.block batch w a
      :: plan batch fuel (w - (p.block batch w a).sum) (a - (p.block batch w a).sum) true

/-- The tests see the last segment, which is not full, and hold it back. -/
def holdsLast (w a : ℕ) (busy : Bool) : Bool :=
  let full := min w a - min w a % p.mss
  p.holds (w - full) (a - full) (busy || decide (p.mss ≤ min w a))

/-- Segment by segment: the full ones, then the last one unless it is held. -/
def alone (w a : ℕ) (busy : Bool) : List ℕ :=
  List.replicate (min w a / p.mss) p.mss
    ++ if min w a % p.mss = 0 ∨ p.holdsLast w a busy then [] else [min w a % p.mss]

variable {p} {w a g : ℕ} {busy : Bool}

/-- A full segment is never held. -/
theorem lt_of_holds (h : p.holds w a busy = true) : min w a < p.mss := by
  have hle := p.sws_le
  rw [holds, Bool.or_eq_true] at h
  simp only [Bool.and_eq_true, decide_eq_true_eq] at h
  omega

theorem holdsLast_of_lt (h : min w a < p.mss) : p.holdsLast w a busy = p.holds w a busy := by
  rw [holdsLast, Nat.mod_eq_of_lt h, Nat.sub_self, Nat.sub_zero, Nat.sub_zero,
    decide_eq_false (by omega), Bool.or_false]

theorem holdsLast_sub {k : ℕ} (hk : p.mss ∣ k) (hpos : 0 < k) (hle : k ≤ min w a) :
    p.holdsLast (w - k) (a - k) true = p.holdsLast w a busy := by
  obtain ⟨q, rfl⟩ := hk
  have hm : p.mss ≤ min w a := le_trans (Nat.le_mul_of_pos_right _ (Nat.pos_of_mul_pos_left hpos)) hle
  have hmin : min (w - p.mss * q) (a - p.mss * q) = min w a - p.mss * q := by omega
  have hmod : (min w a - p.mss * q) % p.mss = min w a % p.mss := Nat.sub_mul_mod hle
  have hr := Nat.mod_le (min w a - p.mss * q) p.mss
  rw [hmod] at hr
  rw [holdsLast, holdsLast, hmin, hmod, Bool.true_or, decide_eq_true hm, Bool.or_true]
  congr 1 <;> omega

theorem alone_zero (h : min w a = 0) : p.alone w a busy = [] := by simp [alone, h]

theorem alone_of_lt (h : min w a < p.mss) (hpos : 0 < min w a) :
    p.alone w a busy = if p.holds w a busy then [] else [min w a] := by
  rw [alone, Nat.div_eq_of_lt h, holdsLast_of_lt h, Nat.mod_eq_of_lt h]
  simp [show min w a ≠ 0 by omega]

/-- Full segments in front. -/
theorem alone_sub {k : ℕ} (hk : p.mss ∣ k) (hpos : 0 < k) (hle : k ≤ min w a) :
    p.alone w a busy = List.replicate (k / p.mss) p.mss ++ p.alone (w - k) (a - k) true := by
  have hlast : p.holdsLast (w - k) (a - k) true = p.holdsLast w a busy := holdsLast_sub hk hpos hle
  obtain ⟨q, rfl⟩ := hk
  have hmin : min (w - p.mss * q) (a - p.mss * q) = min w a - p.mss * q := by omega
  have hmod : (min w a - p.mss * q) % p.mss = min w a % p.mss := Nat.sub_mul_mod hle
  have hdiv : min w a / p.mss = q + (min w a - p.mss * q) / p.mss := by
    rw [Nat.sub_mul_div]
    have := (Nat.le_div_iff_mul_le p.mss_pos).2 (Nat.mul_comm .. ▸ hle)
    omega
  rw [alone, alone, hlast, hmin, hmod, Nat.mul_div_cancel_left _ p.mss_pos, hdiv,
    List.replicate_add, List.append_assoc]

/-! ### Segment by segment -/

theorem plan_done {batch : Option ℕ} {fuel : ℕ} (h : min w a = 0) : p.plan batch fuel w a busy = [] := by
  cases fuel with
  | zero => rfl
  | succ fuel => rw [plan, if_pos (by omega)]

theorem plan_held {batch : Option ℕ} {fuel : ℕ} (h : p.holds w a busy = true) :
    p.plan batch fuel w a busy = [] := by
  cases fuel with
  | zero => rfl
  | succ fuel => rw [plan, if_pos (.inr (.inr h))]

theorem plan_goes {batch : Option ℕ} {fuel : ℕ} (hpos : 0 < min w a) (h : p.holds w a busy = false) :
    p.plan batch (fuel + 1) w a busy = p.block batch w a
      :: p.plan batch fuel (w - (p.block batch w a).sum) (a - (p.block batch w a).sum) true := by
  rw [plan, if_neg]
  rintro (h0 | h0 | h0)
  · omega
  · omega
  · rw [h] at h0
    cases h0

theorem mem_plan_none : ∀ {fuel w a : ℕ} {busy : Bool}, ∀ b ∈ p.plan none fuel w a busy, ∃ k, b = [k]
  | 0, _, _, _, _, hb => by cases hb
  | fuel + 1, w, a, busy, b, hb => by
      rw [plan] at hb
      split_ifs at hb
      · cases hb
      · rcases List.mem_cons.1 hb with rfl | hb
        · exact ⟨_, rfl⟩
        · exact mem_plan_none b hb

theorem mem_plan_ne {batch : Option ℕ} (hbatch : ∀ g ∈ batch, 0 < g) : ∀ {fuel w a : ℕ} {busy : Bool},
    ∀ b ∈ p.plan batch fuel w a busy, b ≠ []
  | 0, _, _, _, _, hb => by cases hb
  | fuel + 1, w, a, busy, b, hb => by
      rw [plan] at hb
      split_ifs at hb with hstop
      · cases hb
      · rcases List.mem_cons.1 hb with rfl | hb
        · intro hnil
          have hpos := p.sum_block_pos hbatch (w := w) (a := a) (by omega)
          rw [hnil] at hpos
          exact absurd hpos (by simp)
        · exact mem_plan_ne hbatch b hb

theorem not_holds_of_le (h : p.mss ≤ min w a) : p.holds w a busy = false := by
  cases hh : p.holds w a busy with
  | false => rfl
  | true => exact absurd (lt_of_holds hh) (by omega)

theorem flatten_plan_none : ∀ {fuel w a : ℕ} {busy : Bool}, min w a < fuel →
    (p.plan none fuel w a busy).flatten = p.alone w a busy
  | 0, _, _, _, h => absurd h (Nat.not_lt_zero _)
  | fuel + 1, w, a, busy, h => by
      have hmpos := p.mss_pos
      rcases Nat.eq_zero_or_pos (min w a) with h0 | hpos
      · rw [plan_done h0, alone_zero h0]
        rfl
      rcases le_or_gt p.mss (min w a) with hle | hlt
      · have hb : p.block none w a = [p.mss] := by rw [block, min_eq_right hle]
        rw [plan_goes hpos (not_holds_of_le hle), hb, List.sum_singleton, List.flatten_cons,
          flatten_plan_none (by omega), alone_sub (dvd_refl p.mss) hmpos hle, Nat.div_self hmpos]
        rfl
      · rw [alone_of_lt hlt hpos]
        cases hh : p.holds w a busy with
        | true =>
          rw [plan_held hh]
          rfl
        | false =>
          have hb : p.block none w a = [min w a] := by rw [block, min_eq_left hlt.le]
          rw [plan_goes hpos hh, hb, List.sum_singleton, plan_done (by omega)]
          rfl

/-! ### Batches -/

/-- Up to one full segment there is no batch. -/
theorem plan_of_le : ∀ {fuel w a : ℕ} {busy : Bool}, min w a ≤ p.mss →
    p.plan (some g) fuel w a busy = p.plan none fuel w a busy
  | 0, _, _, _, _ => rfl
  | fuel + 1, w, a, busy, h => by
      have hb : p.block (some g) w a = p.block none w a := by
        rw [block, if_neg (by omega)]
        rfl
      rw [plan, plan, hb, plan_of_le (by omega)]

theorem block_batch (h : p.mss < min w a) :
    p.block (some g) w a = pieces p.mss (min (min w a) g) := by
  rw [block, if_pos (by omega)]

/-- When a call with batches of at most `g` bytes sends what it sends without: there is no more than
    one segment to send; or a batch ends in the middle of a segment only if it ends the call, and the
    last batch leaves the last segment alone, or has no last segment that is not full, or one the
    tests let through. -/
def Agrees (p : Pace) (g w a : ℕ) : Prop :=
  min w a ≤ p.mss ∨
    (min w a ≤ g ∨ p.mss ∣ g) ∧
      ((min w a - 1) % g + 1 ≤ p.mss ∨ min w a % p.mss = 0 ∨ p.holdsLast w a true = false)

instance : Decidable (p.Agrees g w a) := by unfold Agrees; infer_instance

theorem holdsLast_busy (h : p.mss ≤ min w a) : p.holdsLast w a busy = p.holdsLast w a true := by
  rw [holdsLast, holdsLast, decide_eq_true h, Bool.or_true, Bool.or_true]

/-- One batch for all of it. -/
theorem alone_eq_pieces_iff (h : p.mss ≤ min w a) :
    p.alone w a busy = pieces p.mss (min w a) ↔
      min w a % p.mss = 0 ∨ p.holdsLast w a true = false := by
  rw [alone, pieces, List.append_cancel_left_eq, holdsLast_busy h]
  by_cases hr : min w a % p.mss = 0
  · simp [hr]
  · cases hh : p.holdsLast w a true <;> simp [hr]

/-- A batch that ends in the middle of a segment, with more to come, does not agree. -/
theorem alone_ne_of_not_dvd (hlt : g < min w a) (hdvd : ¬p.mss ∣ g) (rest : List ℕ) :
    p.alone w a busy ≠ pieces p.mss g ++ rest := by
  intro heq
  have hr : g % p.mss ≠ 0 := fun h0 => hdvd (Nat.dvd_of_mod_eq_zero h0)
  have hrlt := Nat.mod_lt g p.mss_pos
  have hcut : (p.alone w a busy)[g / p.mss]? = some (g % p.mss) := by
    rw [heq, pieces, if_neg hr, List.append_assoc, List.getElem?_append_right (by simp)]
    simp
  rcases lt_or_ge (g / p.mss) (min w a / p.mss) with hq | hq
  · rw [alone, List.getElem?_append_left (by simpa using hq), List.getElem?_replicate, if_pos hq] at hcut
    have := Option.some.inj hcut
    omega
  · have hqe : g / p.mss = min w a / p.mss := le_antisymm (Nat.div_le_div_right hlt.le) hq
    have hmod : g % p.mss < min w a % p.mss := by
      have h1 := Nat.div_add_mod g p.mss
      have h2 := Nat.div_add_mod (min w a) p.mss
      rw [hqe] at h1
      omega
    rw [alone, hqe, List.getElem?_append_right (by simp)] at hcut
    split_ifs at hcut with hs
    · simp at hcut
    · simp at hcut
      omega

theorem agrees_sub (hdvd : p.mss ∣ g) (hg : 0 < g) (hlt : g < min w a) :
    p.Agrees g (w - g) (a - g) ↔ p.Agrees g w a := by
  have hgm : p.mss ≤ g := Nat.le_of_dvd hg hdvd
  have hmin : min (w - g) (a - g) = min w a - g := by omega
  have hlast : p.holdsLast (w - g) (a - g) true = p.holdsLast w a true := holdsLast_sub hdvd hg hlt.le
  have hmod : (min w a - g) % p.mss = min w a % p.mss := by
    obtain ⟨q, rfl⟩ := hdvd
    exact Nat.sub_mul_mod hlt.le
  have hpos : (min w a - 1) % g = (min w a - g - 1) % g := by
    rw [Nat.mod_eq_sub_mod (by omega), Nat.sub_right_comm]
  rw [Agrees, Agrees, hmin, hlast, hmod, hpos]
  constructor
  · rintro (hle | ⟨-, h⟩)
    · refine .inr ⟨.inr hdvd, .inl ?_⟩
      have := Nat.mod_le (min w a - g - 1) g
      omega
    · exact .inr ⟨.inr hdvd, h⟩
  · rintro (hle | ⟨-, h⟩)
    · omega
    · exact .inr ⟨.inr hdvd, h⟩

/-- CORRECT: with batches, the call cuts the same segments exactly under `Agrees`. -/
theorem plan_agrees (hg : 0 < g) : ∀ {fuel w a : ℕ} {busy : Bool}, min w a < fuel →
    ((p.plan none fuel w a busy).flatten = (p.plan (some g) fuel w a busy).flatten ↔ p.Agrees g w a)
  | 0, _, _, _, h => absurd h (Nat.not_lt_zero _)
  | fuel + 1, w, a, busy, h => by
      have hmpos := p.mss_pos
      rcases le_or_gt (min w a) p.mss with hle | hgt
      · rw [plan_of_le hle]
        exact iff_of_true rfl (.inl hle)
      rw [flatten_plan_none h, plan_goes (by omega) (not_holds_of_le hgt.le), block_batch hgt,
        sum_pieces, List.flatten_cons]
      rcases le_or_gt (min w a) g with hleg | hltg
      · -- the batch takes everything
        rw [min_eq_left hleg, plan_done (by omega), List.flatten_nil, List.append_nil,
          alone_eq_pieces_iff hgt.le, Agrees, Nat.mod_eq_of_lt (by omega : min w a - 1 < g)]
        constructor
        · exact fun h => .inr ⟨.inl hleg, .inr h⟩
        · rintro (hle | ⟨-, hle | h⟩)
          · omega
          · omega
          · exact h
      rw [min_eq_right hltg.le]
      by_cases hdvd : p.mss ∣ g
      · -- full segments only: compare what comes after
        have hless : min (w - g) (a - g) < fuel := by omega
        have ih : (p.plan none fuel (w - g) (a - g) true).flatten
            = (p.plan (some g) fuel (w - g) (a - g) true).flatten ↔ p.Agrees g (w - g) (a - g) :=
          plan_agrees hg hless
        rw [alone_sub hdvd hg hltg.le, pieces_of_dvd hdvd, List.append_cancel_left_eq,
          ← agrees_sub hdvd hg hltg, ← ih, flatten_plan_none hless]
      · refine iff_of_false (alone_ne_of_not_dvd hltg hdvd _) ?_
        rintro (hle | ⟨hle | hd, -⟩)
        · omega
        · omega
        · exact hdvd hd

end Pace

end Netstack.Tcp
