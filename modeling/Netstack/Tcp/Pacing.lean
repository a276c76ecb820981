import Netstack.Tcp.SendStream
import Netstack.Tcp.Control

/-! What paces the sender: the peer's window, the congestion window, the zero-window probe and the
    token of the write notification.

    Only acknowledgments and timeouts move the windows. As long as they stay in order (`Windows`),
    `sendPending` leaves data behind only with something outstanding or on a closed window. -/

namespace Netstack.Tcp
open Netstack.Header Netstack.Loop Netstack.Trace

namespace TCPConn

variable {c c' c'' : TCPConn}

/-- The peer's window and its maximum, the congestion state, the segment size, the zero-window probe
    and the token in `writeNotify`. -/
def pacing (c : TCPConn) :
    UInt32 × UInt32 × UInt32 × UInt32 × Bool × ℤ × Bool × Timer × Bool :=
  (c.tx.snd.wnd, c.tx.snd.maxWnd, c.tx.snd.cwnd, c.tx.snd.ssthresh, c.tx.snd.inRecovery,
    c.tx.snd.mss, c.tx.zeroWindowProbing, c.tx.zeroWindowTimer, c.app.writeNotify)

/-- All of the sender that sending and retransmitting leave alone. -/
def kept (c : TCPConn) : Sender × Bool × Timer × Bool :=
  ({ c.tx.snd with nxt := 0, unacked := [] }, c.tx.zeroWindowProbing, c.tx.zeroWindowTimer,
    c.app.writeNotify)

theorem pacing_of_kept (he : c'.kept = c.kept) : c'.pacing = c.pacing :=
  congrArg (fun k => (k.1.wnd, k.1.maxWnd, k.1.cwnd, k.1.ssthresh, k.1.inRecovery, k.1.mss, k.2.1,
    k.2.2.1, k.2.2.2)) he

theorem sendNew_kept (c : TCPConn) (k : ℕ) : (c.sendNew k).1.kept = c.kept := by
  rw [sendNew]
  split <;> rfl

theorem sendSegment_kept (c : TCPConn) (k : ℤ) : (c.sendSegment k).1.kept = c.kept := by
  rw [sendSegment]
  split
  · rfl
  · exact sendNew_kept c _

theorem sendGSO_kept (c : TCPConn) (k : ℤ) : (c.sendGSO k).1.kept = c.kept := by
  rw [sendGSO]
  split_ifs <;> rfl

theorem sendBatch_kept (c : TCPConn) (w a : ℤ) : (c.sendBatch w a).1.kept = c.kept := by
  rw [sendBatch.eq_def]
  split
  · split
    · exact sendGSO_kept c _
    · exact sendSegment_kept c _
  · exact sendSegment_kept c _

theorem sendPendingStep_kept (c : TCPConn) : c.sendPendingStep.1.kept = c.kept := by
  rw [sendPendingStep]
  split_ifs
  iterate 4 rfl
  exact sendBatch_kept c _ _

theorem sendPending_kept (c : TCPConn) : c.sendPending.kept = c.kept := by
  refine loop_rel (fun a b : TCPConn => b.kept = a.kept) ?_ sendPendingStep_kept ?_ _ c
  · intro a b d hab hbd
    exact hbd.trans hab
  · exact fun _ => rfl

theorem retransmit_kept (c : TCPConn) (seg : UnackedSegment) :
    (c.retransmit seg).kept = c.kept := by
  rw [retransmit]
  split <;> rfl

theorem retransmitOldest_kept (c : TCPConn) : c.retransmitOldest.kept = c.kept := by
  rw [retransmitOldest.eq_def]
  split
  · rfl
  · exact retransmit_kept _ _

theorem retransmitFirstUnSACKed_kept (c : TCPConn) :
    c.retransmitFirstUnSACKed.kept = c.kept := by
  rw [retransmitFirstUnSACKed.eq_def]
  split
  · rfl
  · exact retransmit_kept _ _

theorem sackLossLoop_kept : ∀ (l : List UnackedSegment) (c : TCPConn),
    (sackLossLoop l c).2.kept = c.kept
  | [], _ => rfl
  | seg :: rest, c => by
      rw [sackLossLoop]
      split_ifs
      · exact sackLossLoop_kept rest c
      · exact sackLossLoop_kept rest _
      · exact (sackLossLoop_kept rest _).trans (retransmit_kept c seg)
      · exact sackLossLoop_kept rest c

theorem sackLossDetection_kept (c : TCPConn) : c.sackLossDetection.kept = c.kept :=
  sackLossLoop_kept c.tx.snd.unacked c

theorem handleSACK_pacing (c : TCPConn) (seg : Segment) : (c.handleSACK seg).pacing = c.pacing := by
  rw [handleSACK]
  dsimp only
  split
  · obtain ⟨l, seen, he⟩ := processSACKBlocks_eq c.tx.snd
      (parseSegmentOptions seg.options).sackBlocks seg.ack
    rw [he]
    exact (pacing_of_kept (sackLossDetection_kept _)).trans rfl
  · rfl

theorem measureRTTM_pacing (c : TCPConn) (seg : Segment) : (c.measureRTTM seg).pacing = c.pacing := by
  obtain ⟨s, n, ⟨_, _, _, rfl⟩, he⟩ := measureRTTM_eq c seg
  rw [he]
  rfl

theorem removeAcked_pacing (c : TCPConn) (ack : UInt32) : (c.removeAcked ack).pacing = c.pacing := by
  obtain ⟨s, n, ⟨_, _, _, rfl⟩, he⟩ := removeAcked_eq c ack
  rw [he]
  rfl

theorem limitedTransmit_kept (c : TCPConn) : c.limitedTransmit.kept = c.kept := by
  rw [limitedTransmit]
  dsimp only
  split_ifs
  iterate 3 rfl
  exact sendSegment_kept c _

theorem sendPending_pacing (c : TCPConn) : c.sendPending.pacing = c.pacing :=
  pacing_of_kept (sendPending_kept c)

theorem finalizeFIN_pacing (c : TCPConn) : c.finalizeFIN.pacing = c.pacing := by
  rw [finalizeFIN.eq_def]
  split <;> rfl

theorem armRTO_pacing (c : TCPConn) : c.armRTO.pacing = c.pacing := by
  rw [armRTO]
  split <;> rfl

theorem manageRTO_pacing (c : TCPConn) : c.manageRTO.pacing = c.pacing := by
  rw [manageRTO]
  split_ifs
  · rfl
  · exact armRTO_pacing c
  · rfl

theorem RxOnly.pacing (h : RxOnly c c') : c'.pacing = c.pacing := by
  rw [TCPConn.pacing, h.tx, h.app]
  rfl

theorem Transmits.drained (h : Transmits c c') : c.tx.writeBuf.Drained c'.tx.writeBuf := by
  induction h with
  | refl => exact .refl _
  | resends _ hr ih => exact ih.trans hr.drained
  | @acked c₁ ack _ _ _ ih =>
    obtain ⟨s, n, -, he⟩ := removeAcked_eq (c₁.advanceUna ack) ack
    rw [he]
    exact ih
  | @new c₁ k _ _ ih =>
    rw [sendNew_writeBuf]
    exact ih.trans (.readNoBlock _ k)
  | @gso c₁ k _ _ ih =>
    rw [TCPConn.sendGSO]
    split_ifs
    · exact ih
    · exact ih.trans (.readNoBlock _ _)
    · exact ih.trans (.readNoBlock _ _)
  | fault _ _ ih => exact ih

theorem finalizeFIN_writeBuf (c : TCPConn) : c.finalizeFIN.tx.writeBuf = c.tx.writeBuf := by
  rw [finalizeFIN.eq_def]
  split <;> rfl

theorem finIfDrained_writeBuf (c : TCPConn) : c.finIfDrained.tx.writeBuf = c.tx.writeBuf := by
  rw [finIfDrained]
  split
  · exact finalizeFIN_writeBuf c
  · rfl

theorem handleClose_drained (c : TCPConn) : c.tx.writeBuf.Drained c.handleClose.tx.writeBuf := by
  have hfin : c.tx.writeBuf.Drained c.flush.finOrDefer.tx.writeBuf := by
    refine (Transmits.flush c).drained.trans ?_
    rw [finOrDefer]
    split
    · exact .refl _
    · rw [finalizeFIN_writeBuf]
      exact .refl _
  rw [handleClose.eq_def]
  split
  · exact hfin
  · exact hfin
  · exact .refl _

theorem onInbound_drained (c : TCPConn) (seg : Segment) :
    c.tx.writeBuf.Drained (c.onInbound seg).tx.writeBuf := by
  have hseg : c.tx.writeBuf.Drained (c.handleSegment seg).tx.writeBuf := by
    rcases handleSegment_cases c seg with ht | ⟨-, he⟩
    · exact ht.drained
    · rw [he]
      show c.tx.writeBuf.Drained (synPayload _ seg).tx.writeBuf
      rw [(opened_rxOnly c seg).tx]
      exact (Resends.of_rxOnly (.updateTSRecent c seg)).drained
  have hrto := hseg.trans (Resends.manageRTO _).drained
  rw [onInbound, drainForFIN]
  split
  · rw [finIfDrained_writeBuf]
    exact hrto.trans (Transmits.sendPending _).drained
  · exact hrto

theorem onWriteNotify_drained (c : TCPConn) : c.tx.writeBuf.Drained c.onWriteNotify.tx.writeBuf := by
  rw [onWriteNotify]
  split_ifs
  · rw [finIfDrained_writeBuf]
    exact (Transmits.onWriteNotifySend c).drained
  · exact (Transmits.onWriteNotifySend c).drained
  · exact .refl _

theorem onClose_drained (c : TCPConn) : c.tx.writeBuf.Drained c.onClose.tx.writeBuf := by
  have hclose := handleClose_drained { c with app.closeCh := false }
  rw [onClose]
  split
  · exact hclose.trans (Resends.armRTO _).drained
  · exact hclose

/-! ### Windows in order -/

/-- A segment has at least one byte and fits into the congestion window, also into the one a recovery
    ends with, and the peer's window is closed or worth a segment. -/
structure Windows (c : TCPConn) : Prop where
  sizes : c.Sizes
  cwnd : c.tx.snd.mss ≤ c.tx.snd.cwnd.toNat
  recovery : c.tx.snd.inRecovery = true → c.tx.snd.mss ≤ c.tx.snd.ssthresh.toNat
  wnd : c.tx.snd.wnd = 0 ∨
    min c.tx.snd.mss ((c.tx.snd.maxWnd / 2).toNat : ℤ) ≤ c.tx.snd.wnd.toNat

theorem Windows.of_pacing (h : Windows c) (he : c'.pacing = c.pacing) : Windows c' := by
  simp only [pacing, Prod.mk.injEq] at he
  obtain ⟨hwnd, hmax, hcwnd, hss, hrec, hmss, -⟩ := he
  refine ⟨?_, ?_, ?_, ?_⟩
  · rw [Sizes, hmss]; exact h.sizes
  · rw [hmss, hcwnd]; exact h.cwnd
  · rw [hrec, hmss, hss]; exact h.recovery
  · rw [hwnd, hmss, hmax]; exact h.wnd

theorem Windows.of_snd (h : Windows c) (he : c'.tx.snd = c.tx.snd) : Windows c' := by
  refine ⟨?_, ?_, ?_, ?_⟩
  · rw [Sizes, he]; exact h.sizes
  · rw [he]; exact h.cwnd
  · rw [he]; exact h.recovery
  · rw [he]; exact h.wnd

/-- With nothing outstanding there is nothing in flight. -/
theorem SendsAs.una_eq_nxt {f : Bool} (h : SendsAs c f) (hq : c.hasUnacked = false) :
    c.tx.snd.una = c.tx.snd.nxt := by
  obtain ⟨x, n, hs⟩ := h
  obtain ⟨u, hx, hn, hu, -⟩ := hs.una
  have hchain := hs.chain
  rw [hasUnacked, Bool.not_eq_false', List.isEmpty_iff] at hq
  rw [hq] at hchain
  have hxn : x = n := hchain
  rw [hu, hs.nxt, show u = n by omega]

/-- `sendPending` leaves something outstanding, unless there was nothing to send or the window is
    closed. -/
theorem sendPending_outcome {f : Bool} (hw : Windows c) (hs : SendsAs c f) :
    c.sendPending.hasUnacked = true ∨
      c.sendPending = c ∧ (c.tx.writeBuf.len = 0 ∨ c.tx.snd.wnd = 0) := by
  rcases sendPending_cases hw.sizes with ⟨he, hheld⟩ | hu
  · cases hq : c.hasUnacked with
    | true => exact .inl (by rw [he]; exact hq)
    | false =>
      refine .inr ⟨he, ?_⟩
      have hflight : c.tx.snd.effectiveWindow = min (c.tx.snd.cwnd.toNat : ℤ) c.tx.snd.wnd.toNat := by
        rw [Sender.effectiveWindow, hs.una_eq_nxt hq]
        simp
      have hpos := hw.sizes.1
      have hcwnd := hw.cwnd
      rcases hheld with hclosed | hempty | hsws | hnagle
      · right
        rw [hflight] at hclosed
        exact UInt32.toNat_inj.1 (by simp only [UInt32.toNat_zero]; omega)
      · exact .inl hempty
      · simp only [swsHold, Bool.and_eq_true, decide_eq_true_eq, hflight] at hsws
        rcases hw.wnd with h0 | hle
        · exact .inr h0
        · omega
      · simp [nagleHold, hq] at hnagle
  · exact .inl hu

/-! ### Acknowledgments -/

theorem toNat_mss (h : c.Sizes) : (UInt32.ofInt c.tx.snd.mss).toNat = c.tx.snd.mss.toNat := by
  obtain ⟨h1, h2⟩ := h
  rw [maxPayloadSize] at h2
  rw [UInt32.ofInt, UInt32.toNat_ofNat']
  omega

theorem toNat_mul_mss (h : c.Sizes) {k : UInt32} (hk : k.toNat ≤ 3) :
    (k * UInt32.ofInt c.tx.snd.mss).toNat = k.toNat * c.tx.snd.mss.toNat := by
  have hle : c.tx.snd.mss.toNat ≤ 1500 := by
    have := h.2
    rw [maxPayloadSize] at this
    omega
  have hmul : k.toNat * c.tx.snd.mss.toNat ≤ 3 * 1500 := Nat.mul_le_mul hk hle
  rw [UInt32.toNat_mul, toNat_mss h, Nat.mod_eq_of_lt (by omega)]

theorem Windows.inflate (h : Windows c) (hc : c.tx.snd.cwnd.toNat < 2 ^ 31) : Windows c.inflate := by
  refine ⟨h.sizes, ?_, h.recovery, h.wnd⟩
  have hle := h.sizes.2
  have hcwnd := h.cwnd
  rw [maxPayloadSize] at hle
  show c.tx.snd.mss ≤ ((c.tx.snd.cwnd + UInt32.ofInt c.tx.snd.mss).toNat : ℤ)
  rw [UInt32.toNat_add, toNat_mss h.sizes, Nat.mod_eq_of_lt (by omega)]
  omega

/-- Half the window, but two segments at least. -/
theorem mss_le_ssthresh (h : c.Sizes) {w : UInt32} (hw : w.toNat < 2 ^ 31) :
    c.tx.snd.mss ≤ ((max w (2 * UInt32.ofInt c.tx.snd.mss)).toNat : ℤ) ∧
    (max w (2 * UInt32.ofInt c.tx.snd.mss)).toNat < 2 ^ 31 := by
  have hpos := h.1
  have hle := h.2
  rw [maxPayloadSize] at hle
  rw [UInt32.toNat_max, toNat_mul_mss h (by decide), show (2 : UInt32).toNat = 2 from rfl]
  omega

theorem Windows.enterRecovery (h : Windows c) (hc : c.tx.snd.cwnd.toNat < 2 ^ 31) :
    Windows c.enterRecovery := by
  have hhalf : (c.tx.snd.cwnd / 2).toNat < 2 ^ 31 := by
    rw [UInt32.toNat_div]
    exact (Nat.div_le_self _ _).trans_lt hc
  obtain ⟨hge, hlt⟩ := mss_le_ssthresh h.sizes hhalf
  refine ⟨h.sizes, ?_, fun _ => hge, h.wnd⟩
  show c.tx.snd.mss ≤ ((max (c.tx.snd.cwnd / 2) (2 * UInt32.ofInt c.tx.snd.mss)
    + 3 * UInt32.ofInt c.tx.snd.mss).toNat : ℤ)
  have hle := h.sizes.2
  rw [maxPayloadSize] at hle
  rw [UInt32.toNat_add, toNat_mul_mss h.sizes (by decide), show (3 : UInt32).toNat = 3 from rfl,
    Nat.mod_eq_of_lt (by omega)]
  omega

theorem Windows.backOff (h : Windows c) : Windows c.backOff := by
  rw [TCPConn.backOff]
  refine Windows.of_pacing ?_ (pacing_of_kept (retransmitOldest_kept _))
  refine ⟨h.sizes, ?_, (fun hr => by cases hr), h.wnd⟩
  show c.tx.snd.mss ≤ ((UInt32.ofInt c.tx.snd.mss).toNat : ℤ)
  rw [toNat_mss h.sizes]
  omega

/-- The increment of congestion avoidance does not overflow the window. -/
theorem increment_lt (h : Windows c) {acked : UInt32} (hacked : acked.toNat < 2 ^ 31)
    (hne : c.tx.snd.cwnd ≠ 0) :
    (UInt32.ofInt c.tx.snd.mss * acked / c.tx.snd.cwnd).toNat < 2 ^ 31 := by
  have hprod := (UInt32.ofInt c.tx.snd.mss * acked).toNat_lt
  have hpos : 0 < c.tx.snd.cwnd.toNat :=
    Nat.pos_of_ne_zero fun h0 => hne (UInt32.toNat_inj.1 h0)
  rw [UInt32.toNat_div]
  rcases Nat.lt_or_ge 1 c.tx.snd.cwnd.toNat with h2 | h1
  · calc (UInt32.ofInt c.tx.snd.mss * acked).toNat / c.tx.snd.cwnd.toNat
        ≤ (UInt32.ofInt c.tx.snd.mss * acked).toNat / 2 := Nat.div_le_div_left h2 (by omega)
      _ < 2 ^ 31 := by omega
  · -- a window of one byte has segments of one byte
    have hone : c.tx.snd.cwnd.toNat = 1 := by omega
    have hmss : c.tx.snd.mss = 1 := by
      have h1 := h.sizes.1
      have h2 := h.cwnd
      omega
    rw [hone, Nat.div_one, UInt32.toNat_mul, toNat_mss h.sizes, hmss, Int.toNat_one, Nat.one_mul]
    omega

theorem Windows.growCwnd (h : Windows c) (hc : c.tx.snd.cwnd.toNat < 2 ^ 31) {acked : UInt32}
    (hacked : acked.toNat < 2 ^ 31) : Windows (c.growCwnd acked) := by
  have hcwnd := h.cwnd
  rw [TCPConn.growCwnd]
  dsimp only
  split_ifs with hslow h0 hinc
  · refine ⟨h.sizes, ?_, h.recovery, h.wnd⟩
    show c.tx.snd.mss ≤ ((min (c.tx.snd.cwnd + acked) c.tx.snd.ssthresh).toNat : ℤ)
    rw [UInt32.lt_iff_toNat_lt] at hslow
    rw [UInt32.toNat_min, UInt32.toNat_add, Nat.mod_eq_of_lt (by omega)]
    omega
  · exact h.of_pacing rfl
  · refine ⟨h.sizes, ?_, h.recovery, h.wnd⟩
    show c.tx.snd.mss ≤ ((c.tx.snd.cwnd + 1).toNat : ℤ)
    rw [UInt32.toNat_add, UInt32.toNat_one, Nat.mod_eq_of_lt (by omega)]
    omega
  · refine ⟨h.sizes, ?_, h.recovery, h.wnd⟩
    show c.tx.snd.mss ≤ ((c.tx.snd.cwnd
      + UInt32.ofInt c.tx.snd.mss * acked / c.tx.snd.cwnd).toNat : ℤ)
    have hlt := increment_lt h hacked h0
    rw [UInt32.toNat_add, Nat.mod_eq_of_lt (by omega)]
    omega

theorem Windows.recoveryACK (h : Windows c) (hr : c.tx.snd.inRecovery = true) (ack : UInt32) :
    Windows (c.recoveryACK ack) := by
  rw [TCPConn.recoveryACK]
  split
  · have hre := h.of_pacing (pacing_of_kept (retransmitFirstUnSACKed_kept c))
    have hrec : c.retransmitFirstUnSACKed.tx.snd.inRecovery = true := by
      have hsame := congrArg (fun k => k.1.inRecovery) (retransmitFirstUnSACKed_kept c)
      exact hsame.trans hr
    exact ⟨hre.sizes, hre.recovery hrec, hre.recovery, hre.wnd⟩
  · exact ⟨h.sizes, h.recovery hr, (fun hr => by cases hr), h.wnd⟩

theorem Windows.updateCwnd (h : Windows c) (hc : c.tx.snd.cwnd.toNat < 2 ^ 31) (ack : UInt32)
    {acked : UInt32} (hacked : acked.toNat < 2 ^ 31) : Windows (c.updateCwnd ack acked) := by
  rw [TCPConn.updateCwnd]
  split
  · rename_i hr
    exact h.recoveryACK hr ack
  · exact h.growCwnd hc hacked

theorem Windows.handleDupACK (h : Windows c) (hc : c.tx.snd.cwnd.toNat < 2 ^ 31) :
    Windows c.handleDupACK := by
  have hdup : Windows c.countDup := h.of_pacing rfl
  rw [TCPConn.handleDupACK]
  split_ifs
  · exact (hdup.inflate hc).of_pacing (sendPending_pacing _)
  · exact hdup.of_pacing (pacing_of_kept (limitedTransmit_kept _))
  · exact (hdup.enterRecovery hc).of_pacing (pacing_of_kept (retransmitFirstUnSACKed_kept _))
  · exact hdup

/-- Everything of a new acknowledgment but the `sendPending` at its end. -/
def ackedState (c : TCPConn) (ack : UInt32) : TCPConn :=
  ((c.advanceUna ack).removeAcked ack).updateCwnd ack (ack - c.tx.snd.una)

theorem Windows.ackedState (h : Windows c) (hc : c.tx.snd.cwnd.toNat < 2 ^ 31) {ack : UInt32}
    (hnew : seqGreaterThan ack c.tx.snd.una = true) : Windows (c.ackedState ack) := by
  rw [seqGreaterThan, decide_eq_true_eq] at hnew
  have hacked := ((Serial.toInt32_pos_iff _).1 hnew).2
  have hp := removeAcked_pacing (c.advanceUna ack) ack
  refine ((h.of_pacing rfl).of_pacing hp).updateCwnd ?_ ack hacked
  rw [show ((c.advanceUna ack).removeAcked ack).tx.snd.cwnd = c.tx.snd.cwnd from
    congrArg (fun p => p.2.2.1) hp]
  exact hc

/-- What `handleACK` does: a duplicate, an invalid or a new acknowledgment. -/
theorem handleACK_cases (c : TCPConn) (ack : UInt32) :
    c.handleACK ack = c.handleDupACK ∨ c.handleACK ack = c ∨
    seqGreaterThan ack c.tx.snd.una = true ∧ seqGreaterThan ack c.tx.snd.nxt = false ∧
      c.handleACK ack = (c.ackedState ack).sendPending := by
  rw [handleACK]
  split_ifs with hdup hold
  · exact .inl rfl
  · exact .inr (.inl rfl)
  · rw [Bool.not_eq_true, Bool.or_eq_false_iff, Bool.not_eq_false'] at hold
    exact .inr (.inr ⟨hold.1, hold.2, rfl⟩)

theorem Windows.handleACK (h : Windows c) (hc : c.tx.snd.cwnd.toNat < 2 ^ 31) (ack : UInt32) :
    Windows (c.handleACK ack) := by
  rcases handleACK_cases c ack with he | he | ⟨hnew, -, he⟩
  · rw [he]; exact h.handleDupACK hc
  · rw [he]; exact h
  · rw [he]; exact (h.ackedState hc hnew).of_pacing (sendPending_pacing _)

/-- The peer's window, the zero-window probe and the token in `writeNotify`. -/
def gate (c : TCPConn) : UInt32 × Bool × Timer × Bool :=
  (c.tx.snd.wnd, c.tx.zeroWindowProbing, c.tx.zeroWindowTimer, c.app.writeNotify)

theorem gate_of_pacing (he : c'.pacing = c.pacing) : c'.gate = c.gate := by
  simp only [pacing, Prod.mk.injEq] at he
  rw [gate, he.1, he.2.2.2.2.2.2.1, he.2.2.2.2.2.2.2.1, he.2.2.2.2.2.2.2.2]
  rfl

theorem gate_of_kept (he : c'.kept = c.kept) : c'.gate = c.gate :=
  congrArg (fun k => (k.1.wnd, k.2)) he

theorem updateCwnd_gate (c : TCPConn) (ack acked : UInt32) :
    (c.updateCwnd ack acked).gate = c.gate := by
  rw [updateCwnd]
  split
  · rw [recoveryACK]
    split
    · have hre := gate_of_kept (retransmitFirstUnSACKed_kept c)
      exact hre
    · rfl
  · rw [growCwnd]
    dsimp only
    split_ifs <;> rfl

theorem ackedState_gate (c : TCPConn) (ack : UInt32) : (c.ackedState ack).gate = c.gate :=
  (updateCwnd_gate _ _ _).trans (gate_of_pacing (removeAcked_pacing _ _))

theorem handleACK_gate (c : TCPConn) (ack : UInt32) : (c.handleACK ack).gate = c.gate := by
  rcases handleACK_cases c ack with he | he | ⟨-, -, he⟩
  · rw [he, handleDupACK]
    split_ifs
    · have hsend := gate_of_pacing (sendPending_pacing c.countDup.inflate)
      exact hsend
    · have hsend := gate_of_kept (limitedTransmit_kept c.countDup)
      exact hsend
    · have hsend := gate_of_kept (retransmitFirstUnSACKed_kept c.countDup.enterRecovery)
      exact hsend
    · rfl
  · rw [he]
  · rw [he]
    exact (gate_of_pacing (sendPending_pacing _)).trans (ackedState_gate c ack)

/-- Data whose predecessors have all been acknowledged is sent, unless the window is closed. -/
theorem handleACK_outcome {f : Bool} (hw : Windows c) (hc : c.tx.snd.cwnd.toNat < 2 ^ 31)
    (hs : SendsAs c f) (ack : UInt32) (hu : c.hasUnacked = true) :
    (c.handleACK ack).hasUnacked = true ∨ (c.handleACK ack).tx.writeBuf.len = 0 ∨
      c.tx.snd.wnd = 0 := by
  rcases handleACK_cases c ack with he | he | ⟨hnew, hvalid, he⟩
  · rw [he]
    exact .inl (hasUnacked_grows hu (.handleDupACK c))
  · rw [he]
    exact .inl hu
  · have hs' : SendsAs (c.ackedState ack) f :=
      hs.transmits hw.sizes ((Transmits.refl.acked hnew hvalid).resends (.updateCwnd ..))
    rw [he]
    rcases sendPending_outcome (hw.ackedState hc hnew) hs' with hq | ⟨hsame, hempty | hclosed⟩
    · exact .inl hq
    · rw [hsame]
      exact .inr (.inl hempty)
    · have hwnd : (c.ackedState ack).tx.snd.wnd = c.tx.snd.wnd :=
        congrArg Prod.fst (ackedState_gate c ack)
      exact .inr (.inr (hwnd.symm.trans hclosed))

end TCPConn

open TCPConn in
/-- Only `Write` puts bytes into `writeBuf`, and only into an open one with space left. -/
theorem Sys.Step.drained {s s' : Sys} {e : Event} (h : Sys.Step s e s') :
    s.conn.tx.writeBuf.Drained s'.conn.tx.writeBuf ∨
    s.conn.tx.writeBuf.closed = false ∧ s.conn.tx.writeBuf.free ≠ 0 ∧
      s'.conn.tx.writeBuf.notFull = s.conn.tx.writeBuf.notFull := by
  by_cases he : Sys.resending e = true
  · exact .inl (h.resends he).drained
  cases h
  case writeCopy =>
    exact .inr ⟨by assumption, by assumption, RingBuffer.notFull_writeNoBlock ..⟩
  case inbound seg _ => exact .inl (onInbound_drained _ seg)
  case zeroWindowTimer => exact .inl (Transmits.onZeroWindow _).drained
  case writeNotify => exact .inl (onWriteNotify_drained _)
  case closeCh => exact .inl (onClose_drained _)
  case closeWrite =>
    rw [TCPConn.closeWrite]
    split
    · exact .inl (.refl _)
    · exact .inl (.closeWrite _)
  case writeCopied | writeBlocked => exact .inl (.refl _)
  all_goals exact absurd rfl he

end Netstack.Tcp
