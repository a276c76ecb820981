import Netstack.Tcp.CwndBounds
import Netstack.Tcp.GsoRefines
import Netstack.Tcp.OutOfWindow

/-! Congestion avoidance, compared with the integers.

    The increment `mss * acked / cwnd` is formed in 32 bits. The product is taken before the division,
    so a cumulative ACK of a large flight wraps it: from three megabytes on with full-size segments.
    Nothing keeps a flight below that. Recovery inflates the window by a segment for each duplicate
    ACK, and what is sent in recovery is still outstanding when the first new ACK ends it. -/

namespace Netstack.Tcp
open Netstack.Header Netstack.Serial Netstack.Loop Netstack.Pieces Netstack.Trace

/-! ### The increment -/

/-- The window after an ACK, with the product `p` and the sum formed in 32 bits, is the exact one if
    neither wraps, or if the wrapped product makes no difference to the quotient. -/
theorem avoidance_exact_iff {w p : ℕ} (hw : 0 < w) (hlt : w < 2 ^ 32) :
    (w + max 1 (p % 2 ^ 32 / w)) % 2 ^ 32 = w + max 1 (p / w) ↔
      (p < 2 ^ 32 ∨ p < 2 * w) ∧ w + max 1 (p / w) < 2 ^ 32 := by
  have hle : p % 2 ^ 32 / w ≤ p / w := Nat.div_le_div_right (Nat.mod_le _ _)
  constructor
  · intro h
    have hsum : w + max 1 (p / w) < 2 ^ 32 := by
      rw [← h]
      exact Nat.mod_lt _ (by norm_num)
    refine ⟨?_, hsum⟩
    rw [Nat.mod_eq_of_lt (by omega)] at h
    by_contra hno
    -- a wrapped product is smaller by 2^32, so the quotient by at least one
    have htwo : 2 ≤ p / w := (Nat.le_div_iff_mul_le hw).2 (by omega)
    have hless : p % 2 ^ 32 / w ≤ p / w - 1 := by
      rw [← Nat.sub_mul_div p w 1, Nat.mul_one]
      exact Nat.div_le_div_right (by omega)
    omega
  · rintro ⟨hp, hsum⟩
    have hsame : max 1 (p % 2 ^ 32 / w) = max 1 (p / w) := by
      rcases hp with hp | hp
      · rw [Nat.mod_eq_of_lt hp]
      · have hone : p / w < 2 := (Nat.div_lt_iff_lt_mul hw).2 hp
        omega
    rw [hsame, Nat.mod_eq_of_lt hsum]

/-- The increment as a number. -/
theorem Congestion.toNat_increment (k : Congestion) (acked : UInt32) :
    (k.increment acked).toNat = max 1 (k.size.toNat * acked.toNat % 2 ^ 32 / k.cwnd.toNat) := by
  have hq : (k.size * acked / k.cwnd).toNat = k.size.toNat * acked.toNat % 2 ^ 32 / k.cwnd.toNat := by
    rw [UInt32.toNat_div, UInt32.toNat_mul]
  rw [increment]
  split_ifs with h0
  · rw [h0] at hq
    rw [← hq]
    rfl
  · have hne : (k.size * acked / k.cwnd).toNat ≠ 0 := fun h => h0 (UInt32.toNat.inj h)
    omega

namespace TCPConn

variable {c : TCPConn} {ack : UInt32}

theorem ne_of_seqGreaterThan {a b : UInt32} (h : seqGreaterThan a b = true) : a ≠ b := by
  rintro rfl
  simp [seqGreaterThan] at h

/-- A new ACK outside recovery, with the window at or above the threshold. -/
theorem handleACK_cwnd (hrec : c.tx.snd.inRecovery = false) (hss : c.tx.snd.ssthresh ≤ c.tx.snd.cwnd)
    (hpos : c.tx.snd.cwnd ≠ 0) (hnew : seqGreaterThan ack c.tx.snd.una = true)
    (hnxt : seqGreaterThan ack c.tx.snd.nxt = false) : (c.handleACK ack).tx.snd.cwnd
      = c.tx.snd.cwnd + c.congestion.increment (ack - c.tx.snd.una) := by
  have hne := ne_of_seqGreaterThan hnew
  have hk := handleACK_congestion c ack
  rw [ackedCongestion, Congestion.onACK, if_neg hne, if_neg (by simp [hnew, hnxt]), Congestion.newACK,
    if_neg (by simp [congestion, hrec]), if_neg (by simpa [congestion] using hss),
    if_neg (by simpa [congestion] using hpos)] at hk
  exact congrArg Congestion.cwnd hk

end TCPConn

/-- CORRECT: outside recovery, with the window at or above the threshold, a new ACK of `ack - una`
    bytes adds `max(1, mss * (ack - una) / cwnd)` to the window exactly if the new window fits 32 bits
    and so does the product, or the product is below twice the window. -/
theorem avoidance_growth_exact_iff {s : Sys} {ack : UInt32}
    (hr : Reach Sys.Init Sys.step (fun _ _ => True) s) (hm : 1 ≤ s.conn.tx.snd.mss)
    (hrec : s.conn.tx.snd.inRecovery = false) (hss : s.conn.tx.snd.ssthresh ≤ s.conn.tx.snd.cwnd)
    (hpos : s.conn.tx.snd.cwnd ≠ 0) (hnew : seqGreaterThan ack s.conn.tx.snd.una = true)
    (hnxt : seqGreaterThan ack s.conn.tx.snd.nxt = false) :
    ((s.conn.handleACK ack).tx.snd.cwnd.toNat : ℤ) = s.conn.tx.snd.cwnd.toNat
        + max 1 (s.conn.tx.snd.mss * (ack - s.conn.tx.snd.una).toNat / s.conn.tx.snd.cwnd.toNat) ↔
      (s.conn.tx.snd.mss * (ack - s.conn.tx.snd.una).toNat < 2 ^ 32 ∨
        s.conn.tx.snd.mss * (ack - s.conn.tx.snd.una).toNat < 2 * s.conn.tx.snd.cwnd.toNat) ∧
      s.conn.tx.snd.cwnd.toNat + max 1 (s.conn.tx.snd.mss * (ack - s.conn.tx.snd.una).toNat
        / s.conn.tx.snd.cwnd.toNat) < 2 ^ 32 := by
  have hsync : s.conn.ctl.synced = true := by
    by_contra hs
    rw [unsized_reach hr (by simpa using hs)] at hm
    exact absurd hm (by decide)
  have hle := (sendInv_reach (reach_positiveMSS hr fun _ => hm)).mss_le hsync
  obtain ⟨m, hmss⟩ := Int.eq_ofNat_of_zero_le (by omega : 0 ≤ s.conn.tx.snd.mss)
  have hsize : s.conn.congestion.size.toNat = m := by
    show (UInt32.ofInt s.conn.tx.snd.mss).toNat = m
    rw [maxPayloadSize] at hle
    rw [UInt32.ofInt, UInt32.toNat_ofNat', hmss]
    omega
  have hw : 0 < s.conn.tx.snd.cwnd.toNat := Nat.pos_of_ne_zero fun h => hpos (UInt32.toNat.inj h)
  have hexact := avoidance_exact_iff (p := m * (ack - s.conn.tx.snd.una).toNat) hw
    s.conn.tx.snd.cwnd.toNat_lt
  rw [TCPConn.handleACK_cwnd hrec hss hpos hnew hnxt, UInt32.toNat_add, Congestion.toNat_increment, hsize,
    hmss]
  exact_mod_cast hexact

/-- A recovery over two bytes ends, and the next byte is acknowledged: the window grows by one. -/
theorem avoidance_growth_exact_byte : ∃ s : Sys, Reach Sys.Init Sys.step (fun _ _ => True) s ∧
    s.conn.tx.snd.cwnd = 2680 ∧ s.conn.tx.snd.ssthresh = 2680 ∧ s.conn.tx.snd.una = 203 ∧
    ((s.conn.handleACK 204).tx.snd.cwnd.toNat : ℤ) = s.conn.tx.snd.cwnd.toNat
      + max 1 (s.conn.tx.snd.mss * (204 - s.conn.tx.snd.una).toNat / s.conn.tx.snd.cwnd.toNat) := by
  obtain ⟨s, hr, hcwnd, hss, huna, hnxt, hmss, hrec⟩ := Sys.exists_reach Sys.init_sample (fun _ _ => true)
    (fun s => s.conn.tx.snd.cwnd = 2680 ∧ s.conn.tx.snd.ssthresh = 2680 ∧ s.conn.tx.snd.una = 203 ∧
      s.conn.tx.snd.nxt = 204 ∧ s.conn.tx.snd.mss = 536 ∧ s.conn.tx.snd.inRecovery = false)
    [Sys.sampleACK, .writeCall 0 [1, 2], .writeCopy 0, .writeCopy 0, .writeReturn 0, .writeNotify,
      Sys.sampleACK, Sys.sampleACK, Sys.sampleACK,
      .inbound (Sys.sampleSegment tcpFlagACK 101 203 1000 []),
      .writeCall 0 [3], .writeCopy 0, .writeCopy 0, .writeReturn 0, .writeNotify] (by decide +kernel)
  have hr' := hr.mono fun _ _ _ => trivial
  refine ⟨s, hr', hcwnd, hss, huna, (avoidance_growth_exact_iff hr' ?_ hrec ?_ ?_ ?_ ?_).2 ?_⟩
  · rw [hmss]; decide
  · rw [hss, hcwnd]; decide
  · rw [hcwnd]; decide
  · rw [huna]; decide
  · rw [hnxt]; decide
  · rw [hmss, huna, hcwnd]; decide

/-! ### A large flight -/

namespace TCPConn

variable {c : TCPConn} {ack : UInt32}

/-- With a segment size that fits the buffers, `sendPending` does not panic. -/
theorem sendPending_fault (hm : c.Sizes) : c.sendPending.fault = c.fault := by
  have hstep : ∀ c : TCPConn, c.Sizes → c.sendPendingStep.1.fault = c.fault := by
    intro c hm
    rw [sendPendingStep]
    split_ifs with hw ha
    iterate 4 rfl
    rcases Transmits.sendBatch_cases c (w := c.tx.snd.effectiveWindow) (by omega) (by omega) with
      ⟨k, he, hk⟩ | ⟨k, he, hk⟩
    · obtain ⟨hpos, -⟩ := hk hm
      have hnone : recordSentGSOFault c.tx.snd.mss (c.tx.writeBuf.readNoBlock k.toNat).2.length = none := by
        obtain ⟨h1, h2⟩ := hm
        rw [maxPayloadSize] at h2
        rw [recordSentGSOFault, maxPayloadSize]
        split_ifs <;> first | rfl | omega
      rw [he, sendGSO, if_neg (by omega)]
      split
      · rfl
      · show (c.fault <|> recordSentGSOFault _ _) = c.fault
        rw [hnone]
        cases c.fault <;> rfl
    · obtain ⟨hpos, hle⟩ := hk hm
      rw [he, sendSegment_eq c hpos hle, sendNew]
      split <;> rfl
  exact loop_rule (I := fun c' => c'.Sizes ∧ c'.fault = c.fault) (J := fun c' => c'.fault = c.fault)
    (fun c' => c'.tx.writeBuf.len)
    (fun c' h hagain => by
      rcases sendPendingStep_cases h.1 with ⟨he, -⟩ | hb
      · rw [he] at hagain
        cases hagain
      · exact ⟨⟨h.1.txOnly (.sendPendingStep c'), (hstep c' h.1).trans h.2⟩, hb.shorter⟩)
    (fun c' h _ => (hstep c' h.1).trans h.2) _ c ⟨hm, rfl⟩ (Nat.lt_succ_self _)

/-- Without batches, data that is a number of full segments goes out at once if the window has room. -/
theorem sendPending_flush (hm : c.Sizes) (hg : c.env.handler.gsoMaxSize = none)
    (hroom : (c.tx.writeBuf.len : ℤ) ≤ c.tx.snd.effectiveWindow)
    (hfull : c.tx.snd.mss.toNat ∣ c.tx.writeBuf.len) :
    c.sendPending.tx.writeBuf.len = 0 ∧
      c.sendPending.tx.snd.nxt = c.tx.snd.nxt + UInt32.ofNat c.tx.writeBuf.len := by
  have hmin : min c.tx.snd.effectiveWindow.toNat c.tx.writeBuf.len = c.tx.writeBuf.len := by omega
  have hsum : (((c.pace hm.1).plan c.batch (c.tx.writeBuf.len + 1) c.tx.snd.effectiveWindow.toNat
      c.tx.writeBuf.len c.hasUnacked).flatten).sum = c.tx.writeBuf.len := by
    rw [show c.batch = none by rw [batch, hg]; rfl, Pace.flatten_plan_none (by omega), Pace.alone, hmin,
      pace_mss, if_pos (.inl (Nat.mod_eq_zero_of_dvd hfull)), List.append_nil, List.sum_replicate,
      smul_eq_mul, Nat.div_mul_cancel hfull]
  have he := sendPending_emits hm.1 (le_trans (min_le_right _ _) hm.2)
  refine ⟨?_, ?_⟩
  · rw [← RingBuffer.length_contents, he.rest, hsum, List.length_drop, RingBuffer.length_contents,
      Nat.sub_self]
  · rw [he.nxt, hsum]

/-- With nothing left to send, a new ACK moves `snd.una` and nothing else of the send sequence. -/
theorem handleACK_emptied (hlen : c.tx.writeBuf.len = 0) (hnew : seqGreaterThan ack c.tx.snd.una = true)
    (hnxt : seqGreaterThan ack c.tx.snd.nxt = false) : (c.handleACK ack).tx.writeBuf.len = 0 ∧
      (c.handleACK ack).tx.snd.una = ack ∧ (c.handleACK ack).tx.snd.nxt = c.tx.snd.nxt := by
  obtain ⟨hempty, huna, hnxt', -⟩ := handleNewACK_of_empty hlen ack
  rw [handleACK, if_neg (ne_of_seqGreaterThan hnew), if_neg (by simp [hnew, hnxt])]
  exact ⟨hempty, huna, hnxt'⟩

end TCPConn

/-- A connection in recovery with segments of 1460 bytes and the largest window scale, and a write
    buffer for 2016 segments, with nothing acknowledged since the handshake. -/
structure Feeding (c : TCPConn) (nxt cwnd : UInt32) : Prop where
  state : c.ctl.state = .established
  synced : c.ctl.synced = true
  running : c.ctl.running = true
  handedOver : c.ctl.handedOver = true
  finPending : c.ctl.finPending = false
  fault : c.fault = none
  ts : c.env.tsEnabled = false
  scale : c.env.sndWndScale = 14
  gso : c.env.handler.gsoMaxSize = none
  bufSize : c.env.cfg.writeBufferSize = 2943360
  shutdown : c.app.writeShutdown = false
  closed : c.tx.writeBuf.closed = false
  una : c.tx.snd.una = 201
  mss : c.tx.snd.mss = 1460
  recovery : c.tx.snd.inRecovery = true
  point : c.tx.snd.recoveryPoint = 201
  ssthresh : c.tx.snd.ssthresh = 7300
  probing : c.tx.zeroWindowProbing = false
  nxt : c.tx.snd.nxt = nxt
  cwnd : c.tx.snd.cwnd = cwnd

/-- An ACK that announces a window of 1000 units. -/
def ackSegment (ack : UInt32) : Segment :=
  Sys.sampleSegment tcpFlagACK 101 ack 1000 [] Sys.length_nil_lt

namespace Feeding

variable {s : Sys} {c : TCPConn} {nxt w : UInt32}

theorem setWnd (h : Feeding c nxt w) (ack : UInt32) :
    Feeding (c.resetKeepalive.setWnd (ackSegment ack)).noteMaxWnd nxt w ∧
      (c.resetKeepalive.setWnd (ackSegment ack)).noteMaxWnd.tx.snd.wnd = 16384000 := by
  refine ⟨⟨h.state, h.synced, h.running, h.handedOver, h.finPending, h.fault, h.ts, h.scale, h.gso,
    h.bufSize, h.shutdown, h.closed, h.una, h.mss, h.recovery, h.point, h.ssthresh, h.probing, h.nxt,
    h.cwnd⟩, ?_⟩
  show scaledWnd 1000 c.env.sndWndScale = 16384000
  rw [h.scale]
  decide

theorem sendPending (h : Feeding c nxt w) : Feeding c.sendPending c.sendPending.tx.snd.nxt w := by
  have htx := TCPConn.TxOnly.sendPending c
  have hk := TCPConn.sendPending_kept c
  have hsnd : ∀ {α : Type} (f : Sender × Bool × Timer × Bool → α), f c.sendPending.kept = f c.kept :=
    fun f => congrArg f hk
  have hm : c.Sizes := by
    rw [TCPConn.Sizes, h.mss]
    decide
  exact ⟨htx.ctl ▸ h.state, htx.ctl ▸ h.synced, htx.ctl ▸ h.running, htx.ctl ▸ h.handedOver,
    htx.ctl ▸ h.finPending, (TCPConn.sendPending_fault hm).trans h.fault, htx.env ▸ h.ts, htx.env ▸ h.scale,
    htx.env ▸ h.gso, htx.env ▸ h.bufSize, htx.app ▸ h.shutdown, htx.closed.trans h.closed,
    (hsnd (·.1.una)).trans h.una, (hsnd (·.1.mss)).trans h.mss,
    (hsnd (·.1.inRecovery)).trans h.recovery, (hsnd (·.1.recoveryPoint)).trans h.point,
    (hsnd (·.1.ssthresh)).trans h.ssthresh, (hsnd (·.2.1)).trans h.probing, rfl,
    (hsnd (·.1.cwnd)).trans h.cwnd⟩

theorem inflate (h : Feeding c nxt w) : Feeding c.countDup.inflate nxt (w + 1460) := by
  have hcwnd : c.countDup.inflate.tx.snd.cwnd = w + 1460 := by
    show c.tx.snd.cwnd + UInt32.ofInt c.tx.snd.mss = w + 1460
    rw [h.cwnd, h.mss]
    rfl
  exact ⟨h.state, h.synced, h.running, h.handedOver, h.finPending, h.fault, h.ts, h.scale, h.gso,
    h.bufSize, h.shutdown, h.closed, h.una, h.mss, h.recovery, h.point, h.ssthresh, h.probing, h.nxt, hcwnd⟩

theorem manageRTO (h : Feeding c nxt w) : Feeding c.manageRTO nxt w := by
  rw [TCPConn.manageRTO, TCPConn.armRTO]
  split_ifs
  · exact h
  all_goals exact ⟨h.state, h.synced, h.running, h.handedOver, h.finPending, h.fault, h.ts, h.scale, h.gso,
    h.bufSize, h.shutdown, h.closed, h.una, h.mss, h.recovery, h.point, h.ssthresh, h.probing, h.nxt, h.cwnd⟩

theorem bareACK (h : Feeding c nxt w) (ack : UInt32) : c.BareACK (ackSegment ack) :=
  ⟨h.state, h.synced, h.ts, rfl, rfl, rfl⟩

/-- A duplicate ACK sends the full segments that wait, if the window has room for all of them. -/
theorem handleDupACK (h : Feeding c 201 w) (hwnd : c.tx.snd.wnd = 16384000) {k : ℕ}
    (hlen : c.tx.writeBuf.len = 1460 * k) (hw : w.toNat + 1460 < 2 ^ 32)
    (hk : 1460 * k ≤ min (w.toNat + 1460) 16384000) :
    Feeding c.handleDupACK (201 + UInt32.ofNat (1460 * k)) (w + 1460) ∧
      c.handleDupACK.tx.writeBuf.len = 0 := by
  have hin := h.inflate
  have hlen' : c.countDup.inflate.tx.writeBuf.len = 1460 * k := hlen
  have hwnd' : c.countDup.inflate.tx.snd.wnd = 16384000 := hwnd
  have hcwnd : (w + 1460).toNat = w.toNat + 1460 := by
    rw [UInt32.toNat_add]
    exact Nat.mod_eq_of_lt hw
  have hroom : (c.countDup.inflate.tx.writeBuf.len : ℤ) ≤ c.countDup.inflate.tx.snd.effectiveWindow := by
    rw [Sender.effectiveWindow, hin.cwnd, hcwnd, hwnd', hin.nxt, hin.una, hlen']
    simp only [UInt32.sub_self, UInt32.toNat_zero, UInt32.reduceToNat]
    omega
  have hfull : c.countDup.inflate.tx.snd.mss.toNat ∣ c.countDup.inflate.tx.writeBuf.len := by
    rw [hin.mss, hlen']
    exact ⟨k, rfl⟩
  obtain ⟨hempty, hnxt⟩ := TCPConn.sendPending_flush (by rw [TCPConn.Sizes, hin.mss]; decide) hin.gso
    hroom hfull
  have hsent := hin.sendPending
  rw [hnxt, hin.nxt, hlen'] at hsent
  rw [TCPConn.handleDupACK, if_pos h.recovery]
  exact ⟨hsent, hempty⟩

theorem dupACK (h : Feeding c 201 w) {k : ℕ} (hlen : c.tx.writeBuf.len = 1460 * k)
    (hw : w.toNat + 1460 < 2 ^ 32) (hk : 1460 * k ≤ min (w.toNat + 1460) 16384000) :
    Feeding (c.onInbound (ackSegment 201)) (201 + UInt32.ofNat (1460 * k)) (w + 1460) ∧
      (c.onInbound (ackSegment 201)).tx.writeBuf.len = 0 := by
  obtain ⟨hset, hwnd⟩ := h.setWnd 201
  obtain ⟨hdup, hempty⟩ := hset.handleDupACK hwnd hlen hw hk
  have hack : (c.resetKeepalive.setWnd (ackSegment 201)).noteMaxWnd.handleACK (ackSegment 201).ack
      = (c.resetKeepalive.setWnd (ackSegment 201)).noteMaxWnd.handleDupACK := by
    rw [TCPConn.handleACK]
    exact if_pos hset.una.symm
  rw [← hack] at hdup hempty
  rw [(h.bareACK 201).onInbound h.probing h.finPending hempty]
  refine ⟨hdup.manageRTO, ?_⟩
  rw [TCPConn.manageRTO, TCPConn.armRTO]
  split_ifs <;> exact hempty

/-- The ACK of the first byte ends the recovery. -/
theorem handleFirst (h : Feeding c nxt w) (hempty : c.tx.writeBuf.len = 0)
    (hnxt : seqGreaterThan 202 nxt = false) : (c.handleACK 202).tx.writeBuf.len = 0 ∧
      (c.handleACK 202).tx.snd.una = 202 ∧ (c.handleACK 202).tx.snd.nxt = nxt ∧
      (c.handleACK 202).congestion = { c.congestion with
        inRecovery := false, cwnd := c.congestion.ssthresh, dupACKCount := 0 } := by
  have hnew : seqGreaterThan 202 c.tx.snd.una = true := by
    rw [h.una]
    decide
  rw [← h.nxt] at hnxt
  obtain ⟨hempty', huna, hnxt'⟩ := TCPConn.handleACK_emptied hempty hnew hnxt
  refine ⟨hempty', huna, hnxt'.trans h.nxt, ?_⟩
  have hpoint : seqLessThan 202 c.congestion.recoveryPoint = false := by
    show seqLessThan 202 c.tx.snd.recoveryPoint = false
    rw [h.point]
    decide
  have hrec : c.congestion.inRecovery = true := h.recovery
  rw [TCPConn.handleACK_congestion, TCPConn.ackedCongestion, Congestion.onACK,
    if_neg (TCPConn.ne_of_seqGreaterThan hnew), if_neg (by simp [hnew, hnxt]), Congestion.newACK,
    if_pos hrec, hpoint]

theorem firstACK (h : Feeding c nxt w) (hempty : c.tx.writeBuf.len = 0)
    (hnxt : seqGreaterThan 202 nxt = false) {c' : TCPConn} (hc' : c' = c.onInbound (ackSegment 202)) :
    c'.tx.snd.una = 202 ∧ c'.tx.snd.nxt = nxt ∧ c'.tx.snd.mss = 1460 ∧ c'.tx.snd.cwnd = 7300 ∧
      c'.tx.snd.ssthresh = 7300 ∧ c'.tx.snd.inRecovery = false := by
  obtain ⟨hset, -⟩ := h.setWnd 202
  obtain ⟨hempty', huna, hnxt', hk⟩ := hset.handleFirst hempty hnxt
  rw [(h.bareACK 202).onInbound h.probing h.finPending hempty'] at hc'
  have hr := TCPConn.Resends.manageRTO
    ((c.resetKeepalive.setWnd (ackSegment 202)).noteMaxWnd.handleACK 202)
  have hk' := (TCPConn.manageRTO_congestion
    ((c.resetKeepalive.setWnd (ackSegment 202)).noteMaxWnd.handleACK 202)).trans hk
  rw [hc']
  exact ⟨hr.una.trans huna, hr.nxt.trans hnxt', (congrArg Congestion.mss hk').trans h.mss,
    (congrArg Congestion.cwnd hk').trans h.ssthresh, (congrArg Congestion.ssthresh hk').trans h.ssthresh,
    congrArg Congestion.inRecovery hk'⟩

theorem step (h : Feeding s.conn nxt w) (seg : Segment) :
    s.step (.inbound seg) = some { s with conn := s.conn.onInbound seg } := by
  simp [Sys.step, Sys.loopStep, Sys.onLoop, h.fault, h.running]

end Feeding

/-- Duplicate ACKs that find nothing to send widen the window. -/
theorem feeding_reach {s : Sys} (hr : Reach Sys.Init Sys.step (fun _ _ => True) s)
    (h : Feeding s.conn 201 (UInt32.ofNat (1460 * 8))) (hempty : s.conn.tx.writeBuf.len = 0) : ∀ n : ℕ,
    n < 2 ^ 20 → ∃ s' : Sys, Reach Sys.Init Sys.step (fun _ _ => True) s' ∧
      Feeding s'.conn 201 (UInt32.ofNat (1460 * (8 + n))) ∧ s'.conn.tx.writeBuf.len = 0 ∧
      s'.writers = s.writers
  | 0, _ => ⟨s, hr, h, hempty, rfl⟩
  | n + 1, hn => by
      obtain ⟨s', hr', h', hempty', hwr⟩ := feeding_reach hr h hempty n (by omega)
      have hw : (UInt32.ofNat (1460 * (8 + n))).toNat = 1460 * (8 + n) := by
        rw [UInt32.toNat_ofNat']
        omega
      obtain ⟨hnext, hlen⟩ := h'.dupACK (k := 0) hempty' (by omega) (by omega)
      refine ⟨_, hr'.next trivial (h'.step _), ?_, hlen, hwr⟩
      rw [show 1460 * (8 + (n + 1)) = 1460 * (8 + n) + 1460 by ring, UInt32.ofNat_add]
      exact hnext

/-- A `Write` that fills the buffer. -/
theorem feeding_write {s : Sys} {w : UInt32} (hr : Reach Sys.Init Sys.step (fun _ _ => True) s)
    (h : Feeding s.conn 201 w) (hempty : s.conn.tx.writeBuf.len = 0) (hidle : s.writers 0 = .idle) :
    ∃ s' : Sys, Reach Sys.Init Sys.step (fun _ _ => True) s' ∧ Feeding s'.conn 201 w ∧
      s'.conn.tx.writeBuf.len = 1460 * 2016 := by
  obtain ⟨b, hb⟩ : ∃ b : List UInt8, b.length = 2943360 := ⟨List.replicate _ 0, List.length_replicate⟩
  have hcall : s.step (.writeCall 0 b)
      = some ({ s with conn := s.conn.growWriteBuf }.setWriter 0 (.copying b 0)) := by
    simp [Sys.step, Sys.writeStep, h.fault, h.handedOver, hidle, h.shutdown]
  obtain ⟨hgrown, hlen, hcap⟩ : Feeding s.conn.growWriteBuf 201 w ∧
      s.conn.growWriteBuf.tx.writeBuf.len = 0 ∧ 2943360 ≤ s.conn.growWriteBuf.tx.writeBuf.cap := by
    rw [TCPConn.growWriteBuf, h.bufSize]
    split_ifs with hgrow
    · refine ⟨⟨h.state, h.synced, h.running, h.handedOver, h.finPending, h.fault, h.ts, h.scale, h.gso,
        h.bufSize, h.shutdown, ?_, h.una, h.mss, h.recovery, h.point, h.ssthresh, h.probing, h.nxt, h.cwnd⟩,
        ?_, ?_⟩
      · rw [RingBuffer.closed_grow]
        exact h.closed
      · rw [RingBuffer.len_grow]
        exact hempty
      · rw [RingBuffer.cap_grow]
        exact le_max_right _ _
    · exact ⟨h, hempty, by omega⟩
  generalize s.conn.growWriteBuf = c at hcall hgrown hlen hcap
  have hsum := c.tx.writeBuf.len_add_free
  have hne : b ≠ [] := by
    rintro rfl
    cases hb
  have hcopy : ({ s with conn := c }.setWriter 0 (.copying b 0)).step (.writeCopy 0)
      = some (({ s with conn := c.copyChunk b }.setWriter 0 (.copying b 0)).setWriter 0
        (.copying (b.drop (c.tx.writeBuf.writeNoBlock b).2) (0 + (c.tx.writeBuf.writeNoBlock b).2))) := by
    have hroom : ¬c.tx.writeBuf.free = 0 := by omega
    simp [Sys.step, Sys.writeStep, Sys.setWriter, Sys.copyStep, hgrown.fault, hgrown.handedOver, hne,
      hgrown.closed, hroom]
  have hcopied : Feeding (c.copyChunk b) 201 w :=
    ⟨hgrown.state, hgrown.synced, hgrown.running, hgrown.handedOver, hgrown.finPending, hgrown.fault,
      hgrown.ts, hgrown.scale, hgrown.gso, hgrown.bufSize, hgrown.shutdown,
      (RingBuffer.closed_writeNoBlock _ _).trans hgrown.closed, hgrown.una, hgrown.mss, hgrown.recovery,
      hgrown.point, hgrown.ssthresh, hgrown.probing, hgrown.nxt, hgrown.cwnd⟩
  refine ⟨_, (hr.next trivial hcall).next trivial hcopy, hcopied, ?_⟩
  show (c.tx.writeBuf.writeNoBlock b).1.len = _
  rw [RingBuffer.len_writeNoBlock _ hne, RingBuffer.writeNoBlock_snd, hgrown.closed, hlen, hb]
  simp only [Bool.false_eq_true, ↓reduceIte]
  omega

/-- The handler of the large flight: a write buffer that grows from 4 bytes to 2016 segments. -/
def largeHandler : TCPHandler where
  __ := Sys.sampleHandler 8 4
  cfg := { (Sys.sampleHandler 8 4).cfg with writeBufferSize := 2943360 }

/-- The system after a SYN that offers segments of 1460 bytes and the largest window scale. -/
def largeSample : Sys :=
  Sys.start largeHandler 100 200 [2, 4, 5, 180, 3, 3, 14] Sys.sampleHandler_read_pos
    Sys.sampleHandler_write_pos

theorem init_largeSample : Sys.Init largeSample :=
  Sys.init_iff.2 ⟨largeHandler, _, _, _, _, _, ⟨largeHandler.cfg, rfl⟩, rfl⟩

/-- Four ACKs without data put a new connection into recovery. -/
theorem feeding_start : ∃ s : Sys, Reach Sys.Init Sys.step (fun _ _ => True) s ∧
    Feeding s.conn 201 (UInt32.ofNat (1460 * 8)) ∧ s.conn.tx.writeBuf.len = 0 ∧
    s.writers 0 = .idle := by
  obtain ⟨s, hr, h⟩ := Sys.exists_reach init_largeSample (fun _ _ => true)
    (fun s => s.conn.ctl.state = .established ∧ s.conn.ctl.synced = true ∧ s.conn.ctl.running = true ∧
      s.conn.ctl.handedOver = true ∧ s.conn.ctl.finPending = false ∧ s.conn.fault = none ∧
      s.conn.env.tsEnabled = false ∧ s.conn.env.sndWndScale = 14 ∧
      s.conn.env.handler.gsoMaxSize = none ∧ s.conn.env.cfg.writeBufferSize = 2943360 ∧
      s.conn.app.writeShutdown = false ∧ s.conn.tx.writeBuf.closed = false ∧ s.conn.tx.snd.una = 201 ∧
      s.conn.tx.snd.mss = 1460 ∧ s.conn.tx.snd.inRecovery = true ∧ s.conn.tx.snd.recoveryPoint = 201 ∧
      s.conn.tx.snd.ssthresh = 7300 ∧ s.conn.tx.zeroWindowProbing = false ∧ s.conn.tx.snd.nxt = 201 ∧
      s.conn.tx.snd.cwnd = UInt32.ofNat (1460 * 8) ∧ s.conn.tx.writeBuf.len = 0 ∧ s.writers 0 = .idle)
    [Sys.sampleACK, Sys.sampleACK, Sys.sampleACK, Sys.sampleACK] (by decide +kernel)
  obtain ⟨h1, h2, h3, h4, h5, h6, h7, h8, h9, h10, h11, h12, h13, h14, h15, h16, h17, h18, h19, h20, h21,
    h22⟩ := h
  exact ⟨s, hr.mono fun _ _ _ => trivial, ⟨h1, h2, h3, h4, h5, h6, h7, h8, h9, h10, h11, h12, h13, h14, h15,
    h16, h17, h18, h19, h20⟩, h21, h22⟩

/-- 2016 segments of 1460 bytes are outstanding and the first byte is acknowledged, which ends the
    recovery. Then the rest is acknowledged at once: the product of 1460 and 2943359 does not fit 32
    bits, and the window grows by 320 and not by 588671 bytes. -/
theorem avoidance_product_overflows : ∃ s : Sys, Reach Sys.Init Sys.step (fun _ _ => True) s ∧
    s.conn.tx.snd.mss = 1460 ∧ s.conn.tx.snd.inRecovery = false ∧ s.conn.tx.snd.una = 202 ∧
    s.conn.tx.snd.nxt = 2943561 ∧ s.conn.tx.snd.cwnd = 7300 ∧ s.conn.tx.snd.ssthresh = 7300 ∧
    2 ^ 32 ≤ s.conn.tx.snd.mss * (2943561 - s.conn.tx.snd.una).toNat ∧
    (s.conn.handleACK 2943561).tx.snd.cwnd = 7300 + 320 ∧
    max 1 (s.conn.tx.snd.mss * (2943561 - s.conn.tx.snd.una).toNat / s.conn.tx.snd.cwnd.toNat)
      = 588671 := by
  have hinc : ∀ k : Congestion, k.mss = 1460 → k.cwnd = 7300 → k.increment (2943561 - 202) = 320 := by
    intro k hmss hcwnd
    rw [Congestion.increment, Congestion.size, hmss, hcwnd]
    decide
  obtain ⟨s₀, hr₀, h₀, hempty₀, hidle₀⟩ := feeding_start
  obtain ⟨s₁, hr₁, h₁, hempty₁, hw₁⟩ := feeding_reach hr₀ h₀ hempty₀ 2007 (by decide)
  obtain ⟨s₂, hr₂, h₂, hlen₂⟩ := feeding_write hr₁ h₁ hempty₁ (hw₁ ▸ hidle₀)
  obtain ⟨h₃, hempty₃⟩ := h₂.dupACK hlen₂ (by decide) (by decide)
  have hr₃ := hr₂.next trivial (h₂.step (ackSegment 201))
  have hr₄ := hr₃.next trivial (h₃.step (ackSegment 202))
  obtain ⟨huna, hnxt, hmss, hcwnd, hss, hrec⟩ := h₃.firstACK hempty₃ (by decide) rfl
  refine ⟨_, hr₄, hmss, hrec, huna, hnxt, hcwnd, hss, ?_, ?_, ?_⟩
  · rw [hmss, huna]
    decide
  · rw [TCPConn.handleACK_cwnd hrec (by rw [hss, hcwnd]; decide) (by rw [hcwnd]; decide)
      (by rw [huna]; decide) (by rw [hnxt]; decide), huna, hcwnd, hinc _ hmss hcwnd]
  · rw [hmss, huna, hcwnd]
    decide

end Netstack.Tcp
