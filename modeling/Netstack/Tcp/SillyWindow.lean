import Netstack.Tcp.GsoRefines
import Netstack.Tcp.SendLimits

/-! Silly and small segments.

    SWS avoidance and Nagle are tested at one place, at the start of a turn of `sendPending`, for the
    next segment. Segment by segment that is enough (`allWorthy_plan_none`). A batch takes its last
    segment along untested, and the limit of a batch may cut one off in the middle of the data; and
    `limitedTransmit` has neither test. The conditions under which these two send nothing silly are
    exact. -/

namespace Netstack.Tcp
open Netstack.Header Netstack.Pieces Netstack.Trace

namespace Pace

variable {p : Pace} {w a g : ℕ} {busy : Bool}

/-- What a segment of `n` bytes owes to SWS avoidance and Nagle, when the window leaves room for `w`
    bytes and `a` bytes are left to send: it has the least size worth sending or takes everything, and
    behind outstanding data it is full, or fills the window. -/
structure Worthy (p : Pace) (w a : ℕ) (busy : Bool) (n : ℕ) : Prop where
  sws : p.sws ≤ n ∨ n = a
  nagle : p.noDelay = false → busy = true → n < p.mss → n = w

/-- Every segment of a list, sent one after the other, is worth it. -/
def AllWorthy (p : Pace) : ℕ → ℕ → Bool → List ℕ → Prop
  | _, _, _, [] => True
  | w, a, busy, n :: ns => p.Worthy w a busy n ∧ p.AllWorthy (w - n) (a - n) true ns

theorem worthy_full : p.Worthy w a busy p.mss := ⟨.inl p.sws_le, fun _ _ h => absurd h (lt_irrefl _)⟩

theorem allWorthy_singleton {n : ℕ} : p.AllWorthy w a busy [n] ↔ p.Worthy w a busy n :=
  and_iff_left trivial

theorem allWorthy_append : ∀ {ns ns' : List ℕ} {w a : ℕ} {busy : Bool},
    p.AllWorthy w a busy (ns ++ ns') ↔ p.AllWorthy w a busy ns ∧
      p.AllWorthy (w - ns.sum) (a - ns.sum) (busy || !ns.isEmpty) ns'
  | [], _, _, _, busy => by simp [AllWorthy]
  | n :: ns, ns', w, a, busy => by
      rw [List.cons_append, AllWorthy, AllWorthy, allWorthy_append, and_assoc, List.sum_cons,
        Nat.sub_add_eq, Nat.sub_add_eq]
      simp

/-- Full segments are always worth sending. -/
theorem allWorthy_replicate : ∀ {q w a : ℕ} {busy : Bool},
    p.AllWorthy w a busy (List.replicate q p.mss)
  | 0, _, _, _ => trivial
  | _ + 1, _, _, _ => ⟨worthy_full, allWorthy_replicate⟩

/-- After the full segments there is a last one, or none. -/
theorem allWorthy_full_append {q : ℕ} {ns : List ℕ} :
    p.AllWorthy w a busy (List.replicate q p.mss ++ ns) ↔
      p.AllWorthy (w - q * p.mss) (a - q * p.mss) (busy || decide (0 < q)) ns := by
  have hne : (List.replicate q p.mss).isEmpty = !decide (0 < q) := by cases q <;> simp
  rw [allWorthy_append, List.sum_replicate, smul_eq_mul, hne, Bool.not_not]
  exact and_iff_right allWorthy_replicate

/-- What the tests let through is worth sending. -/
theorem worthy_of_not_holds (hp : p.probing = false) (h : p.holds w a busy = false) :
    p.Worthy w a busy (min w a) := by
  simp only [holds, hp, Bool.not_false, Bool.true_and, Bool.or_eq_false_iff, Bool.and_eq_false_iff,
    Bool.not_eq_false', decide_eq_false_iff_not] at h
  refine ⟨by omega, fun hd hb hlt => ?_⟩
  rcases h.2 with (h | h) | h
  · rw [hd] at h
    cases h
  · rw [hb] at h
    cases h
  · omega

/-- Segment by segment, everything is worth sending. -/
theorem allWorthy_alone (hp : p.probing = false) : p.AllWorthy w a busy (p.alone w a busy) := by
  have hq : min w a / p.mss * p.mss = min w a - min w a % p.mss := by
    have := Nat.div_add_mod' (min w a) p.mss
    omega
  have hbusy : decide (0 < min w a / p.mss) = decide (p.mss ≤ min w a) := by
    rw [decide_eq_decide, Nat.div_pos_iff]
    exact and_iff_right p.mss_pos
  have hr := Nat.mod_le (min w a) p.mss
  rw [alone, allWorthy_full_append, hq, hbusy]
  split_ifs with hlast
  · trivial
  · rw [not_or, Bool.not_eq_true, holdsLast] at hlast
    have hworthy := worthy_of_not_holds hp hlast.2
    rw [show min (w - (min w a - min w a % p.mss)) (a - (min w a - min w a % p.mss))
      = min w a % p.mss by omega] at hworthy
    exact allWorthy_singleton.2 hworthy

theorem allWorthy_plan_none (hp : p.probing = false) {fuel : ℕ} (h : min w a < fuel) :
    p.AllWorthy w a busy (p.plan none fuel w a busy).flatten := by
  rw [flatten_plan_none h]
  exact allWorthy_alone hp

/-! ### Batches -/

/-- The last segment of a batch is full, or is worth sending: it has the least size or takes
    everything, and Nagle is off, or the window is full, or there is nothing in front of it. -/
def TailFits (p : Pace) (g w a : ℕ) (busy : Bool) : Prop :=
  let n := min (min w a) g
  n % p.mss = 0 ∨ (p.sws ≤ n % p.mss ∨ n = a) ∧
    (p.noDelay = true ∨ n = w ∨ busy = false ∧ n < p.mss)

instance : Decidable (p.TailFits g w a busy) := by unfold TailFits; infer_instance

/-- The segments of a batch are worth sending if its last one is. -/
theorem allWorthy_pieces_iff {n : ℕ} (hn : min (min w a) g = n) :
    p.AllWorthy w a busy (pieces p.mss n) ↔ p.TailFits g w a busy := by
  have hdiv := Nat.div_add_mod' n p.mss
  have hlt := Nat.mod_lt n p.mss_pos
  rw [pieces, allWorthy_full_append, TailFits, hn]
  by_cases hr : n % p.mss = 0
  · rw [if_pos hr]
    exact iff_of_true trivial (.inl hr)
  rw [if_neg hr, allWorthy_singleton]
  have hq : n < p.mss ↔ n / p.mss = 0 := by
    rw [Nat.div_eq_zero_iff]
    have := p.mss_pos
    omega
  constructor
  · rintro ⟨hsws, hnagle⟩
    refine .inr ⟨by omega, ?_⟩
    cases hd : p.noDelay with
    | true => exact .inl rfl
    | false =>
      by_cases hfirst : busy = false ∧ n < p.mss
      · exact .inr (.inr hfirst)
      · have hbusy : (busy || decide (0 < n / p.mss)) = true := by
          rcases Bool.eq_false_or_eq_true busy with hb | hb
          · rw [hb, Bool.true_or]
          · rw [hb, Bool.false_or, decide_eq_true_eq]
            exact Nat.pos_of_ne_zero fun h0 => hfirst ⟨hb, hq.2 h0⟩
        have := hnagle hd hbusy hlt
        exact .inr (.inl (by omega))
  · rintro (h0 | ⟨hsws, hnagle⟩)
    · exact absurd h0 hr
    · refine ⟨by omega, fun hd hb _ => ?_⟩
      rcases hnagle with h | h | ⟨hbusy, hfirst⟩
      · rw [hd] at h
        cases h
      · omega
      · rw [hbusy, Bool.false_or, decide_eq_true_eq] at hb
        omega

/-- With batches of at most `g` bytes, the segments of a call are worth sending exactly if the last
    segment of each batch is. The batch number `k` comes after `k` batches of `g` bytes. -/
theorem allWorthy_plan_iff (hp : p.probing = false) (hg : 0 < g) : ∀ {fuel w a : ℕ} {busy : Bool},
    min w a < fuel → (p.AllWorthy w a busy (p.plan (some g) fuel w a busy).flatten ↔
      ∀ k, p.mss + k * g < min w a →
        p.TailFits g (w - k * g) (a - k * g) (busy || decide (0 < k)))
  | 0, _, _, _, h => absurd h (Nat.not_lt_zero _)
  | fuel + 1, w, a, busy, h => by
      have hmpos := p.mss_pos
      rcases le_or_gt (min w a) p.mss with hle | hgt
      · rw [plan_of_le hle]
        exact iff_of_true (allWorthy_plan_none hp h) fun k hk => absurd hk (by omega)
      have hsum : (pieces p.mss (min (min w a) g)).sum = min (min w a) g := sum_pieces _ _
      have hne : (busy || !(pieces p.mss (min (min w a) g)).isEmpty) = true := by
        have hcut : pieces p.mss (min (min w a) g) ≠ [] := by
          intro hnil
          rw [hnil, List.sum_nil] at hsum
          omega
        rw [List.isEmpty_eq_false_iff.2 hcut, Bool.not_false, Bool.or_true]
      rw [plan_goes (by omega) (not_holds_of_le hgt.le), block_batch hgt, List.flatten_cons,
        allWorthy_append, allWorthy_pieces_iff rfl, hsum, hne, allWorthy_plan_iff hp hg (by omega)]
      constructor
      · rintro ⟨hfirst, hrest⟩ k hk
        cases k with
        | zero => simpa using hfirst
        | succ k =>
          have hmul : (k + 1) * g = g + k * g := by ring
          rw [hmul] at hk ⊢
          have := hrest k (by omega)
          rw [min_eq_right (by omega : g ≤ min w a)] at this
          rw [Nat.sub_add_eq, Nat.sub_add_eq]
          simpa using this
      · intro hall
        refine ⟨by simpa using hall 0 (by omega), fun k hk => ?_⟩
        have hgle : g ≤ min w a := by
          by_contra hlt
          rw [min_eq_left (by omega : min w a ≤ g)] at hk
          omega
        rw [min_eq_right hgle] at hk ⊢
        have hmul : (k + 1) * g = g + k * g := by ring
        have := hall (k + 1) (by omega)
        rw [hmul, Nat.sub_add_eq, Nat.sub_add_eq] at this
        simpa using this

end Pace

/-! ### The connection -/

namespace TCPConn

variable {c c' : TCPConn}

/-- The sizes of the segments that `c'` has recorded after those of `c`. -/
def newSizes (c c' : TCPConn) : List ℕ :=
  (c'.tx.snd.unacked.drop c.tx.snd.unacked.length).map fun e => e.data.length

theorem newSizes_refl (c : TCPConn) : c.newSizes c = [] := by rw [newSizes, List.drop_length]; rfl

theorem Emits.newSizes {blocks : List (List ℕ)} (h : Emits c c' blocks) :
    c.newSizes c' = blocks.flatten := by
  have hsizes : ((laid c.tx.snd.nxt (blocks.flatten.splitLengths c.tx.writeBuf.contents)).map Prod.snd).map
      List.length = blocks.flatten := by
    rw [map_snd_laid, List.map_splitLengths_length _ _ h.fits]
  have hq := congrArg (fun q => (q.map Prod.snd).map List.length) h.queue
  simp only [List.map_append, hsizes, List.map_map] at hq
  have hdrop := congrArg (List.drop c.tx.snd.unacked.length) hq
  rw [List.drop_left' (List.length_map _)] at hdrop
  rw [TCPConn.newSizes, List.map_drop]
  exact hdrop

/-- Room in the peer's window for `limitedTransmit`. -/
def room (c : TCPConn) : ℕ := c.tx.snd.wnd.toNat - c.flightSize

/-- What `limitedTransmit` sends is one segment, if anything. -/
theorem limitedTransmit_sizes (hm : c.Sizes) : c.newSizes c.limitedTransmit =
    if c.tx.writeBuf.len = 0 ∨ c.room = 0 then []
    else [min (min c.tx.writeBuf.len c.tx.snd.mss.toNat) c.room] := by
  obtain ⟨hm1, hm2⟩ := hm
  by_cases hstop : c.tx.writeBuf.len = 0 ∨ c.room = 0
  · have hsame : c.limitedTransmit = c := by
      rw [room, flightSize] at hstop
      rw [limitedTransmit]
      dsimp only
      split_ifs
      iterate 3 rfl
      omega
    rw [if_pos hstop, hsame, newSizes_refl]
  have hsend : c.limitedTransmit
      = (c.sendNew (min (min c.tx.writeBuf.len c.tx.snd.mss.toNat) c.room)).1 := by
    rw [room, flightSize] at hstop ⊢
    rw [limitedTransmit]
    dsimp only
    rw [if_neg (by omega), if_neg (by omega), if_neg (by omega), sendSegment_eq c (by omega) (by omega)]
    congr 2
    omega
  rw [if_neg hstop, hsend, (Emits.sendNew (by omega) (by omega)).1.newSizes]
  rfl

/-- The last segment of every batch of the next call of `sendPending` is worth sending. The batch
    number `k` comes after `k` batches of `g` bytes. Without a GSO writer there is none. -/
def BatchesFit (c : TCPConn) (hm : 1 ≤ c.tx.snd.mss) : Prop :=
  ∀ g ∈ c.batch, ∀ k, (c.pace hm).mss + k * g < min c.tx.snd.effectiveWindow.toNat c.tx.writeBuf.len →
    (c.pace hm).TailFits g (c.tx.snd.effectiveWindow.toNat - k * g) (c.tx.writeBuf.len - k * g)
      (c.hasUnacked || decide (0 < k))

/-- `limitedTransmit` has nothing to send, or the room in the peer's window is such that SWS avoidance
    would let the data go, and Nagle is off, or nothing is outstanding, or the data fills a segment or
    the room. -/
def LimitedFits (c : TCPConn) : Prop :=
  c.tx.writeBuf.len = 0 ∨ c.room = 0 ∨
    (min c.tx.snd.mss.toNat (c.tx.snd.maxWnd / 2).toNat ≤ c.room ∨ c.tx.writeBuf.len ≤ c.room) ∧
    (c.app.noDelay = true ∨ c.hasUnacked = false ∨ c.tx.snd.mss ≤ c.tx.writeBuf.len ∨
      c.room ≤ c.tx.writeBuf.len)

instance (c : TCPConn) : Decidable c.LimitedFits := by unfold LimitedFits; infer_instance

theorem worthy_limited_iff (hm : 1 ≤ c.tx.snd.mss) (hlen : c.tx.writeBuf.len ≠ 0) (hroom : c.room ≠ 0) :
    (c.pace hm).Worthy c.room c.tx.writeBuf.len c.hasUnacked
      (min (min c.tx.writeBuf.len c.tx.snd.mss.toNat) c.room) ↔ c.LimitedFits := by
  have hdelay : (c.pace hm).noDelay = c.app.noDelay := rfl
  constructor
  · rintro ⟨hsws, hnagle⟩
    rw [pace_sws] at hsws
    rw [pace_mss, hdelay] at hnagle
    refine .inr (.inr ⟨by omega, ?_⟩)
    cases hd : c.app.noDelay with
    | true => exact .inl rfl
    | false =>
      cases hb : c.hasUnacked with
      | false => exact .inr (.inl rfl)
      | true =>
        have := hnagle hd hb
        exact .inr (.inr (by omega))
  · rintro (h | h | ⟨hsws, hnagle⟩)
    · exact absurd h hlen
    · exact absurd h hroom
    · refine ⟨by rw [pace_sws]; omega, fun hd hb hlt => ?_⟩
      rw [pace_mss] at hlt
      rw [hdelay] at hd
      rw [hd, hb] at hnagle
      simp only [Bool.false_eq_true, Bool.true_eq_false, false_or] at hnagle
      omega

/-- CORRECT: outside of zero-window probing, every new segment of `sendPending`, and that of
    `limitedTransmit`, has the least size worth sending or takes all that is left, and behind
    outstanding data it is full or fills the window, exactly if `BatchesFit` and `LimitedFits` hold
    before the call. -/
theorem new_segments_worthy_iff (hm : c.Sizes) (hp : c.tx.zeroWindowProbing = false) :
    ((c.pace hm.1).AllWorthy c.tx.snd.effectiveWindow.toNat c.tx.writeBuf.len c.hasUnacked
        (c.newSizes c.sendPending) ↔ c.BatchesFit hm.1) ∧
    ((c.pace hm.1).AllWorthy c.room c.tx.writeBuf.len c.hasUnacked (c.newSizes c.limitedTransmit) ↔
      c.LimitedFits) := by
  have hpace : (c.pace hm.1).probing = false := hp
  refine ⟨?_, ?_⟩
  · have he := sendPending_emits hm.1 (le_trans (min_le_right _ _) hm.2)
    rw [he.newSizes, BatchesFit]
    cases hb : c.batch with
    | none => exact iff_of_true (Pace.allWorthy_plan_none hpace (by omega)) (by simp)
    | some g =>
      rw [Pace.allWorthy_plan_iff hpace (c.batch_pos g hb) (by omega)]
      simp
  · rw [limitedTransmit_sizes hm]
    split_ifs with hstop
    · exact iff_of_true trivial (hstop.imp id .inl)
    · rw [Pace.allWorthy_singleton, worthy_limited_iff hm.1 (by omega) (by omega)]

end TCPConn

/-- Three full segments wait: `sendPending` sends them in one batch, `limitedTransmit` the first. -/
theorem new_segments_worthy_full : ∃ s : Sys, Reach Sys.Init Sys.step (fun _ _ => True) s ∧
    s.conn.env.handler.gsoMaxSize = some 65536 ∧ s.conn.tx.writeBuf.len = 6 ∧
    ∃ hm : s.conn.Sizes, (s.conn.pace hm.1).AllWorthy s.conn.tx.snd.effectiveWindow.toNat
      s.conn.tx.writeBuf.len s.conn.hasUnacked (s.conn.newSizes s.conn.sendPending) ∧
    (s.conn.pace hm.1).AllWorthy s.conn.room s.conn.tx.writeBuf.len s.conn.hasUnacked
      (s.conn.newSizes s.conn.limitedTransmit) := by
  obtain ⟨s, hr, hg, hlen, hm, hp, hfits, hmss, hbatch, hwnd⟩ := Sys.exists_reach Sys.init_gsoSample
    (fun _ _ => true)
    (fun s => s.conn.env.handler.gsoMaxSize = some 65536 ∧ s.conn.tx.writeBuf.len = 6 ∧
      (1 ≤ s.conn.tx.snd.mss ∧ s.conn.tx.snd.mss ≤ maxPayloadSize) ∧
      s.conn.tx.zeroWindowProbing = false ∧ s.conn.LimitedFits ∧ s.conn.tx.snd.mss = 2 ∧
      s.conn.batch = some 65495 ∧ 6 ≤ s.conn.tx.snd.effectiveWindow)
    [Sys.sampleACK, .writeCall 0 [1, 2, 3, 4, 5, 6], .writeCopy 0] (by decide +kernel)
  have hiff := TCPConn.new_segments_worthy_iff hm hp
  refine ⟨s, hr.mono fun _ _ _ => trivial, hg, hlen, hm, hiff.1.2 fun g hmem k hk => ?_,
    hiff.2.2 hfits⟩
  rw [hbatch, Option.mem_some_iff] at hmem
  rw [← hmem, TCPConn.pace_mss, hmss, hlen] at hk
  obtain rfl : k = 0 := by omega
  -- all three segments of the batch are full
  refine .inl ?_
  rw [← hmem, TCPConn.pace_mss, hmss, hlen,
    show min (min (s.conn.tx.snd.effectiveWindow.toNat - 0 * 65495) (6 - 0 * 65495)) 65495 = 6 by omega]
  rfl

/-- A duplicate ACK lets limited transmit send a byte that Nagle holds back, behind an outstanding one
    and into a window with room for more. And a batch in a window of three bytes sends its last byte
    alone, with one more byte to send and segments of two. -/
theorem silly_segments : (∃ s s' : Sys, Reach Sys.Init Sys.step (fun _ _ => True) s ∧
      s.step Sys.sampleACK = some s' ∧ s.conn.tx.zeroWindowProbing = false ∧
      s.conn.app.noDelay = false ∧ s.conn.hasUnacked = true ∧ s.conn.tx.snd.mss = 536 ∧
      s.conn.room = 999 ∧ s.conn.newSizes s.conn.sendPending = [] ∧ s.conn.newSizes s'.conn = [1]) ∧
    ∃ s s' : Sys, Reach Sys.Init Sys.step (fun _ _ => True) s ∧ s.step .writeNotify = some s' ∧
      s.conn.tx.zeroWindowProbing = false ∧ s.conn.tx.snd.mss = 2 ∧ s.conn.tx.snd.maxWnd = 1000 ∧
      s.conn.tx.writeBuf.len = 4 ∧ s.conn.newSizes s'.conn = [2, 1] ∧ s'.conn.tx.writeBuf.len = 1 := by
  refine ⟨?_, ?_⟩
  · obtain ⟨s, s', hr, -, hs⟩ := Sys.exists_step Sys.init_sample (fun _ _ => true)
      (fun s s' => s.conn.tx.zeroWindowProbing = false ∧ s.conn.app.noDelay = false ∧
        s.conn.hasUnacked = true ∧ s.conn.tx.snd.mss = 536 ∧ s.conn.room = 999 ∧
        s.conn.newSizes s.conn.sendPending = [] ∧ s.conn.newSizes s'.conn = [1])
      (Sys.sampleACK :: Sys.writeEvents [1] ++ Sys.writeEvents [2]) Sys.sampleACK (by decide +kernel)
    exact ⟨s, s', hr.mono fun _ _ _ => trivial, hs⟩
  · obtain ⟨s, s', hr, -, hs⟩ := Sys.exists_step Sys.init_gsoSample (fun _ _ => true)
      (fun s s' => s.conn.tx.zeroWindowProbing = false ∧ s.conn.tx.snd.mss = 2 ∧
        s.conn.tx.snd.maxWnd = 1000 ∧ s.conn.tx.writeBuf.len = 4 ∧ s.conn.newSizes s'.conn = [2, 1] ∧
        s'.conn.tx.writeBuf.len = 1)
      [Sys.sampleACK, .inbound (Sys.sampleSegment tcpFlagACK 101 201 3 []),
        .writeCall 0 [1, 2, 3, 4], .writeCopy 0, .writeCopy 0, .writeReturn 0] .writeNotify
      (by decide +kernel)
    exact ⟨s, s', hr.mono fun _ _ _ => trivial, hs⟩

end Netstack.Tcp
