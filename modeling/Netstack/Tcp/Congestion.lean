import Netstack.Lib.Simulation
import Netstack.Tcp.AckOnce
import Netstack.Tcp.IdleSender

/-! Congestion control (`handleACK`, `handleDupACK`, `handleRTO` of `snd.go`).

    The congestion window, the threshold and the recovery state form a small machine of their own: it
    is moved by duplicate ACKs, by ACKs of new data and by timeouts, and by nothing else. `Congestion`
    is that machine, and `Sys.Step.congestion` says which of its moves an event of the connection
    makes. -/

namespace Netstack.Tcp
open Netstack.Header Netstack.Trace Netstack.Simulation

/-! ### The machine -/

/-- What congestion control keeps. -/
structure Congestion where
  mss : ℤ
  cwnd : UInt32
  ssthresh : UInt32
  dupACKCount : ℤ
  inRecovery : Bool
  recoveryPoint : UInt32
  deriving DecidableEq

namespace Congestion

/-- `uint32(s.mss)`. -/
def size (k : Congestion) : UInt32 := UInt32.ofInt k.mss

/-- Half the window, but two segments at least. -/
def halved (k : Congestion) : UInt32 := max (k.cwnd / 2) (2 * k.size)

/-- A duplicate ACK: it inflates the window in recovery, and the third one starts recovery. -/
def dupACK (k : Congestion) (nxt : UInt32) : Congestion :=
  let counted := { k with dupACKCount := k.dupACKCount + 1 }
  if k.inRecovery then { counted with cwnd := k.cwnd + k.size }
  else if k.dupACKCount = 2 then
    { counted with
      ssthresh := k.halved
      cwnd := k.halved + 3 * k.size
      inRecovery := true
      recoveryPoint := nxt }
  else counted

/-- The increment of congestion avoidance. -/
def increment (k : Congestion) (acked : UInt32) : UInt32 :=
  if k.size * acked / k.cwnd = 0 then 1 else k.size * acked / k.cwnd

/-- An ACK of `acked` new bytes, up to `ack`. A division by a window of zero panics. -/
def newACK (k : Congestion) (ack acked : UInt32) : Congestion :=
  if k.inRecovery then
    { k with
      inRecovery := seqLessThan ack k.recoveryPoint
      cwnd := k.ssthresh
      dupACKCount := 0 }
  else if k.cwnd < k.ssthresh then
    { k with cwnd := min (k.cwnd + acked) k.ssthresh, dupACKCount := 0 }
  else if k.cwnd = 0 then k
  else { k with cwnd := k.cwnd + k.increment acked, dupACKCount := 0 }

/-- An ACK with the number `ack`: a duplicate, one of new data, or one to ignore. -/
def onACK (k : Congestion) (una nxt ack : UInt32) : Congestion :=
  if ack = una then k.dupACK nxt
  else if !seqGreaterThan ack una || seqGreaterThan ack nxt then k
  else k.newACK ack (ack - una)

/-- A retransmission timeout. -/
def timeout (k : Congestion) : Congestion :=
  { k with inRecovery := false, dupACKCount := 0, ssthresh := k.halved, cwnd := k.size }

end Congestion

namespace TCPConn

variable {c c' : TCPConn}

/-- The congestion state of a connection. -/
def congestion (c : TCPConn) : Congestion where
  mss := c.tx.snd.mss
  cwnd := c.tx.snd.cwnd
  ssthresh := c.tx.snd.ssthresh
  dupACKCount := c.tx.snd.dupACKCount
  inRecovery := c.tx.snd.inRecovery
  recoveryPoint := c.tx.snd.recoveryPoint

/-! ### What leaves it alone -/

theorem congestion_of_kept (he : c'.kept = c.kept) : c'.congestion = c.congestion :=
  congrArg (fun k : Sender × Bool × Timer × Bool => (⟨k.1.mss, k.1.cwnd, k.1.ssthresh,
    k.1.dupACKCount, k.1.inRecovery, k.1.recoveryPoint⟩ : Congestion)) he

theorem congestion_of_ackState (he : c'.ackState = c.ackState) : c'.congestion = c.congestion :=
  congrArg (fun k : UInt32 × ℤ × UInt32 × UInt32 × ℤ × Bool × UInt32 =>
    (⟨k.2.1, k.2.2.1, k.2.2.2.1, k.2.2.2.2.1, k.2.2.2.2.2.1, k.2.2.2.2.2.2⟩ : Congestion)) he

theorem congestion_of_snd (he : c'.tx.snd = c.tx.snd) : c'.congestion = c.congestion := by
  rw [congestion, he]
  rfl

theorem RxOnly.congestion (h : RxOnly c c') : c'.congestion = c.congestion :=
  congestion_of_snd (by rw [h.tx])

theorem sendPending_congestion (c : TCPConn) : c.sendPending.congestion = c.congestion :=
  congestion_of_kept (sendPending_kept c)

theorem measureRTTM_congestion (c : TCPConn) (seg : Segment) :
    (c.measureRTTM seg).congestion = c.congestion := by
  obtain ⟨s, n, ⟨_, _, _, rfl⟩, he⟩ := measureRTTM_eq c seg
  rw [he]
  rfl

theorem removeAcked_congestion (c : TCPConn) (ack : UInt32) :
    (c.removeAcked ack).congestion = c.congestion := by
  obtain ⟨s, n, ⟨_, _, _, rfl⟩, he⟩ := removeAcked_eq c ack
  rw [he]
  rfl

theorem handleSACK_congestion (c : TCPConn) (seg : Segment) :
    (c.handleSACK seg).congestion = c.congestion := by
  rw [handleSACK]
  dsimp only
  split
  · obtain ⟨l, seen, he⟩ := processSACKBlocks_eq c.tx.snd
      (parseSegmentOptions seg.options).sackBlocks seg.ack
    rw [he]
    exact (congestion_of_kept (sackLossDetection_kept _)).trans rfl
  · rfl

theorem cancelZeroWindowProbe_congestion (c : TCPConn) :
    c.cancelZeroWindowProbe.congestion = c.congestion := by
  rw [cancelZeroWindowProbe]
  split <;> rfl

theorem manageZeroWindow_congestion (c : TCPConn) : c.manageZeroWindow.congestion = c.congestion := by
  rw [manageZeroWindow, checkZeroWindow]
  split_ifs
  · exact (sendPending_congestion _).trans (cancelZeroWindowProbe_congestion c)
  all_goals rfl

theorem sendOnUpdate_congestion (c : TCPConn) (seg : Segment) (oldWnd : UInt32) :
    (c.sendOnUpdate seg oldWnd).congestion = c.congestion := by
  rw [sendOnUpdate]
  split
  · exact sendPending_congestion c
  · rfl

theorem finalizeFIN_congestion (c : TCPConn) : c.finalizeFIN.congestion = c.congestion := by
  rw [finalizeFIN.eq_def]
  split <;> rfl

theorem finIfDrained_congestion (c : TCPConn) : c.finIfDrained.congestion = c.congestion := by
  rw [finIfDrained]
  split
  · exact finalizeFIN_congestion c
  · rfl

theorem armRTO_congestion (c : TCPConn) : c.armRTO.congestion = c.congestion := by
  rw [armRTO]
  split <;> rfl

theorem manageRTO_congestion (c : TCPConn) : c.manageRTO.congestion = c.congestion := by
  rw [manageRTO]
  split_ifs
  · rfl
  · exact armRTO_congestion c
  · rfl

theorem drainForFIN_congestion (c : TCPConn) : c.drainForFIN.congestion = c.congestion := by
  rw [drainForFIN]
  split
  · exact (finIfDrained_congestion _).trans (sendPending_congestion c)
  · rfl

theorem onWriteNotify_congestion (c : TCPConn) : c.onWriteNotify.congestion = c.congestion := by
  have hsend : c.onWriteNotifySend.congestion = c.congestion := by
    rw [onWriteNotifySend, armRTO_congestion, (RxOnly.piggyback _).congestion, checkZeroWindow]
    split_ifs <;> exact (sendPending_congestion _).trans rfl
  rw [onWriteNotify]
  split_ifs
  · exact (finIfDrained_congestion _).trans hsend
  · exact hsend
  · rfl

theorem onClose_congestion (c : TCPConn) : c.onClose.congestion = c.congestion := by
  have hflush : ∀ c : TCPConn, c.flush.finOrDefer.congestion = c.congestion := by
    intro c
    have hf : c.flush.congestion = c.congestion := by
      rw [flush]
      split
      · exact sendPending_congestion c
      · rfl
    rw [finOrDefer]
    split
    · exact hf
    · exact (finalizeFIN_congestion _).trans hf
  have hclose : ∀ c : TCPConn, c.handleClose.congestion = c.congestion := by
    intro c
    rw [handleClose.eq_def]
    split
    · exact hflush c
    · exact hflush c
    · rfl
  rw [onClose]
  split
  · exact (armRTO_congestion _).trans (hclose _)
  · exact hclose _

theorem onZeroWindow_congestion (c : TCPConn) : c.onZeroWindow.congestion = c.congestion := by
  have hprobe : ∀ c : TCPConn, c.sendZeroWindowProbe.congestion = c.congestion := by
    intro c
    have hnew := congestion_of_kept (sendNew_kept c 1)
    rw [sendZeroWindowProbe]
    dsimp only
    split_ifs
    · rfl
    · exact hnew
    · exact (cancelZeroWindowProbe_congestion _).trans hnew
  rw [onZeroWindow]
  split
  · exact hprobe _
  · rfl

/-! ### What moves it -/

theorem handleDupACK_congestion (c : TCPConn) :
    c.handleDupACK.congestion = c.congestion.dupACK c.tx.snd.nxt := by
  rw [handleDupACK, Congestion.dupACK]
  show TCPConn.congestion _ = if c.tx.snd.inRecovery = true then _ else
    if c.tx.snd.dupACKCount = 2 then _ else _
  split_ifs with hrec hle heq heq heq heq
  · exact (sendPending_congestion _).trans rfl
  · omega
  · exact (congestion_of_kept (limitedTransmit_kept _)).trans rfl
  · exact (congestion_of_kept (retransmitFirstUnSACKed_kept _)).trans rfl
  · omega
  · omega
  · rfl

theorem growCwnd_congestion (c : TCPConn) (ack acked : UInt32) (hrec : c.tx.snd.inRecovery = false) :
    (c.growCwnd acked).congestion = c.congestion.newACK ack acked := by
  have hk : ¬c.congestion.inRecovery = true := by
    show ¬c.tx.snd.inRecovery = true
    rw [hrec]
    simp
  rw [growCwnd, Congestion.newACK, if_neg hk]
  show TCPConn.congestion _ = if c.tx.snd.cwnd < c.tx.snd.ssthresh then _ else
    if c.tx.snd.cwnd = 0 then _ else _
  split_ifs <;> rfl

theorem recoveryACK_congestion (c : TCPConn) (ack acked : UInt32) (hrec : c.tx.snd.inRecovery = true) :
    (c.recoveryACK ack).congestion = c.congestion.newACK ack acked := by
  have hresent := congestion_of_kept (retransmitFirstUnSACKed_kept c)
  have hk : c.congestion.inRecovery = true := hrec
  rw [recoveryACK, Congestion.newACK, if_pos hk]
  split
  · rename_i hpart
    show { c.retransmitFirstUnSACKed.congestion with
      cwnd := c.retransmitFirstUnSACKed.congestion.ssthresh, dupACKCount := 0 } = _
    rw [hresent, show seqLessThan ack c.congestion.recoveryPoint = true from hpart]
    rw [← hk]
  · rename_i hfull
    rw [show seqLessThan ack c.congestion.recoveryPoint = false from
      Bool.eq_false_iff.2 hfull]
    rfl

/-- What an ACK with the number `ack` makes of the congestion state. -/
def ackedCongestion (c : TCPConn) (ack : UInt32) : Congestion :=
  c.congestion.onACK c.tx.snd.una c.tx.snd.nxt ack

theorem handleACK_congestion (c : TCPConn) (ack : UInt32) :
    (c.handleACK ack).congestion = c.ackedCongestion ack := by
  rw [handleACK, ackedCongestion, Congestion.onACK]
  split_ifs
  · exact handleDupACK_congestion c
  · rfl
  · have hq : ((c.advanceUna ack).removeAcked ack).congestion = c.congestion :=
      removeAcked_congestion _ _
    rw [handleNewACK, sendPending_congestion, updateCwnd]
    split
    · rename_i hrec
      rw [recoveryACK_congestion _ ack (ack - c.tx.snd.una) hrec, hq]
    · rename_i hrec
      rw [growCwnd_congestion _ ack _ (by simpa using hrec), hq]

theorem ackedCongestion_of_eq (ack : UInt32) (hk : c'.congestion = c.congestion)
    (huna : c'.tx.snd.una = c.tx.snd.una) (hnxt : c'.tx.snd.nxt = c.tx.snd.nxt) :
    c'.ackedCongestion ack = c.ackedCongestion ack := by
  rw [ackedCongestion, hk, huna, hnxt]
  rfl

theorem measureRTTM_acked (c : TCPConn) (seg : Segment) (ack : UInt32) :
    (c.measureRTTM seg).ackedCongestion ack = c.ackedCongestion ack :=
  ackedCongestion_of_eq ack (measureRTTM_congestion c seg) (Resends.measureRTTM c seg).una
    (Resends.measureRTTM c seg).nxt

theorem processACK_congestion (c : TCPConn) (seg : Segment) :
    (c.processACK seg).congestion = c.ackedCongestion seg.ack := by
  rw [processACK, handleACK_congestion]
  have hsack := ackedCongestion_of_eq seg.ack
    (handleSACK_congestion ((c.setWnd seg).noteMaxWnd.measureRTTM seg) seg)
    (Resends.handleSACK _ seg).una (Resends.handleSACK _ seg).nxt
  exact hsack.trans (measureRTTM_acked _ seg _)

/-! ### The handlers -/

/-- In ESTABLISHED every segment with an ACK counts. -/
theorem handleEstablished_congestion (c : TCPConn) (seg : Segment) :
    (c.handleEstablished seg).congestion =
      if seg.flags.has tcpFlagACK ∧ c.ctl.synced then c.ackedCongestion seg.ack
      else c.congestion := by
  rw [handleEstablished, (RxOnly.establishedFIN _ seg).congestion,
    (RxOnly.takePayload _ seg).congestion, establishedACK]
  show TCPConn.congestion (if seg.flags.has tcpFlagACK ∧ c.ctl.synced then _ else _) = _
  split
  · rw [manageZeroWindow_congestion, sendOnUpdate_congestion, processACK_congestion]
    rfl
  · rfl

/-- The congestion state after a segment: as before, or after its ACK. -/
def CongestionAfter (c : TCPConn) (seg : Segment) (k : Congestion) : Prop :=
  k = c.congestion ∨ k = c.ackedCongestion seg.ack

theorem RxOnly.acked (h : RxOnly c c') (ack : UInt32) :
    c'.ackedCongestion ack = c.ackedCongestion ack :=
  ackedCongestion_of_eq ack h.congestion (by rw [h.tx]) (by rw [h.tx])

theorem onInbound_congestion (c : TCPConn) (seg : Segment) :
    (c.onInbound seg).congestion = (c.handleSegment seg).congestion :=
  (drainForFIN_congestion _).trans (manageRTO_congestion _)

/-- A segment after the handshake moves the congestion state by its ACK, or not at all. -/
theorem after_handleSegment (c : TCPConn) (seg : Segment) (hs : c.ctl.state ≠ .synRcvd) :
    CongestionAfter c seg (c.handleSegment seg).congestion := by
  obtain ⟨c₁, c₂, h₁, hack, h₂⟩ := AcksOnce.handleSegment c seg hs
  have hk₁ := congestion_of_ackState h₁.state
  rw [CongestionAfter, congestion_of_ackState h₂.state]
  rcases hack with rfl | rfl
  · exact .inl hk₁
  · right
    rw [handleACK_congestion]
    exact ackedCongestion_of_eq seg.ack hk₁ h₁.resends.una h₁.resends.nxt

/-- The retransmission timeout has something to retransmit, and retries are left. -/
def timesOut (c : TCPConn) : Bool :=
  c.ctl.synced && c.hasUnacked &&
    (c.tx.zeroWindowProbing || decide (c.tx.snd.retries + 1 ≤ c.env.cfg.maxRetries))

theorem backOff_congestion (c : TCPConn) : c.backOff.congestion = c.congestion.timeout :=
  (congestion_of_kept (retransmitOldest_kept _)).trans rfl

theorem handleRTO_congestion (c : TCPConn) : c.handleRTO.congestion =
    if c.hasUnacked && (c.tx.zeroWindowProbing || decide (c.tx.snd.retries + 1 ≤ c.env.cfg.maxRetries))
    then c.congestion.timeout else c.congestion := by
  rw [handleRTO, hasUnacked]
  cases hempty : c.tx.snd.unacked.isEmpty with
  | true => rfl
  | false =>
    cases c.tx.zeroWindowProbing with
    | true => exact backOff_congestion c
    | false =>
      by_cases hlimit : c.tx.snd.retries + 1 > c.env.cfg.maxRetries
      · have hle : ¬c.tx.snd.retries + 1 ≤ c.env.cfg.maxRetries := by omega
        simp only [Bool.false_eq_true, ↓reduceIte, hlimit, hle, Bool.not_false, Bool.true_and,
          decide_false, Bool.or_self]
        rw [abort, (RxOnly.closeDone _).congestion]
        split <;> rfl
      · have hle : c.tx.snd.retries + 1 ≤ c.env.cfg.maxRetries := by omega
        simp only [Bool.false_eq_true, ↓reduceIte, hlimit, hle, Bool.not_false, Bool.true_and,
          decide_true, Bool.or_true]
        exact backOff_congestion _

theorem onRTO_congestion (c : TCPConn) :
    c.onRTO.congestion = if c.timesOut then c.congestion.timeout else c.congestion := by
  have hrearm : ∀ c : TCPConn, c.rearmRTO.congestion = c.congestion := by
    intro c
    rw [rearmRTO]
    split
    · exact armRTO_congestion c
    · rfl
  rw [onRTO, timesOut]
  cases c.ctl.synced with
  | false => rfl
  | true =>
    rw [if_pos rfl, hrearm, handleRTO_congestion, Bool.true_and]
    rfl

/-- `seg` gets past the checks of `handleSegment` and carries an ACK. -/
def counts (c : TCPConn) (seg : Segment) : Bool :=
  !c.pawsDrop seg && !seg.flags.has tcpFlagRST && !seg.flags.has tcpFlagSYN && seg.flags.has tcpFlagACK

/-- The congestion state after a segment in ESTABLISHED. -/
theorem onInbound_established (c : TCPConn) (seg : Segment) (hst : c.ctl.state = .established)
    (hs : c.ctl.synced = true) : (c.onInbound seg).congestion =
      if c.counts seg then c.ackedCongestion seg.ack else c.congestion := by
  have hts : RxOnly c (c.updateTSRecent seg) := .updateTSRecent c seg
  rw [onInbound_congestion, handleSegment, counts]
  cases c.pawsDrop seg with
  | true => rfl
  | false =>
    cases seg.flags.has tcpFlagRST with
    | true => exact (RxOnly.handleRSTSegment c seg).congestion
    | false =>
      cases hsyn : seg.flags.has tcpFlagSYN with
      | true =>
        simp only [hst, ne_eq, reduceCtorEq, not_false_eq_true, and_self, ↓reduceIte]
        rfl
      | false =>
        have hst' : (c.updateTSRecent seg).ctl.state = .established := by
          rw [(TxOnly.updateTSRecent c seg).ctl]
          exact hst
        have hs' : (c.updateTSRecent seg).ctl.synced = true := hts.synced.trans hs
        simp only [Bool.false_eq_true, false_and, ↓reduceIte, Bool.not_false, Bool.true_and]
        rw [dispatch, hst']
        show (handleEstablished _ seg).congestion = _
        rw [handleEstablished_congestion, hs', hts.acked, hts.congestion]
        simp

end TCPConn

/-! ### The connection -/

/-- What an event does to the congestion state. -/
theorem Sys.Step.congestion {s s' : Sys} {e : Event} (h : Sys.Step s e s') :
    s'.conn.congestion = s.conn.congestion ∨
    (∃ seg, e = .inbound seg ∧ s.conn.ctl.state ≠ .synRcvd ∧
      s'.conn.congestion = s.conn.ackedCongestion seg.ack) ∨
    (e = .rtoTimer ∧ s.conn.timesOut = true ∧ s'.conn.congestion = s.conn.congestion.timeout) ∨
    (∃ seg, e = .inbound seg ∧ s.conn.ctl.state = .synRcvd ∧
      s'.conn.congestion = (s.conn.opened seg).congestion) := by
  by_cases he : Sys.resting e = true
  · exact .inl (TCPConn.congestion_of_snd (h.rests he).1)
  cases h
  case inbound seg _ =>
    have hk := TCPConn.onInbound_congestion s.conn seg
    by_cases hs : s.conn.ctl.state = .synRcvd
    · rcases TCPConn.handleSegment_unsynced (.inl hs) seg with hrx | he
      · exact .inl (hk.trans hrx.congestion)
      · rw [he] at hk
        exact .inr (.inr (.inr ⟨seg, rfl, hs, hk⟩))
    · rcases TCPConn.after_handleSegment s.conn seg hs with he | he
      · exact .inl (hk.trans he)
      · exact .inr (.inl ⟨seg, rfl, hs, hk.trans he⟩)
  case rtoTimer =>
    have hk := TCPConn.onRTO_congestion s.conn
    cases ht : s.conn.timesOut with
    | true =>
      rw [ht, if_pos rfl] at hk
      exact .inr (.inr (.inl ⟨rfl, rfl, hk⟩))
    | false =>
      rw [ht] at hk
      exact .inl hk
  case zeroWindowTimer => exact .inl (TCPConn.onZeroWindow_congestion _)
  case writeNotify => exact .inl (TCPConn.onWriteNotify_congestion _)
  case closeCh => exact .inl (TCPConn.onClose_congestion _)
  all_goals exact absurd rfl he

/-! ### Duplicate ACKs with nothing outstanding -/

namespace Congestion

/-- A duplicate ACK does no more than count, unless it is the third one or the window is already
    being inflated. -/
theorem dupACK_keeps_iff (k : Congestion) (nxt : UInt32) :
    ((k.dupACK nxt).cwnd = k.cwnd ∧ (k.dupACK nxt).ssthresh = k.ssthresh ∧
      (k.dupACK nxt).inRecovery = k.inRecovery ∧
      (k.dupACK nxt).recoveryPoint = k.recoveryPoint) ↔
    if k.inRecovery then k.size = 0 else k.dupACKCount ≠ 2 := by
  rw [dupACK]
  cases hrec : k.inRecovery with
  | true => simp
  | false =>
    by_cases h2 : k.dupACKCount = 2
    · simp [h2]
    · simp [h2]

end Congestion

/-- The congestion window, the threshold and the recovery state are the same. -/
def Steady (c c' : TCPConn) : Prop :=
  c'.tx.snd.cwnd = c.tx.snd.cwnd ∧ c'.tx.snd.ssthresh = c.tx.snd.ssthresh ∧
  c'.tx.snd.inRecovery = c.tx.snd.inRecovery ∧ c'.tx.snd.recoveryPoint = c.tx.snd.recoveryPoint

theorem Steady.trans {c c' c'' : TCPConn} (h : Steady c c') (h' : Steady c' c'') : Steady c c'' :=
  ⟨h'.1.trans h.1, h'.2.1.trans h.2.1, h'.2.2.1.trans h.2.2.1, h'.2.2.2.trans h.2.2.2⟩

/-- A segment with `ack` equal to `snd.una` comes in on an established connection that has nothing
    outstanding. -/
def IdleDupACK (s : Sys) (e : Event) : Prop := ∃ seg, e = .inbound seg ∧
  s.conn.ctl.state = .established ∧ s.conn.tx.snd.una = s.conn.tx.snd.nxt ∧
  s.conn.tx.snd.unacked = [] ∧ seg.ack = s.conn.tx.snd.una

/-- The segment does not get as far as the duplicate-ACK counter, or it is not the third one there.
    In recovery every one of them counts, unless the segment size is zero. -/
def HarmlessDup (s : Sys) (e : Event) : Prop := ∀ seg, e = .inbound seg → s.conn.counts seg = true →
  if s.conn.tx.snd.inRecovery then UInt32.ofInt s.conn.tx.snd.mss = 0
  else s.conn.tx.snd.dupACKCount ≠ 2

/-- One such segment leaves the congestion state as it is exactly if it is harmless. -/
theorem steady_idleDup_iff {s s' : Sys} {e : Event} (hs : s.conn.ctl.SyncedInside)
    (hidle : IdleDupACK s e) (hstep : s.step e = some s') :
    Steady s.conn s'.conn ↔ HarmlessDup s e := by
  obtain ⟨seg, rfl, hst, -, -, hack⟩ := hidle
  have hsync : s.conn.ctl.synced = true := hs.resolve_right (by rw [hst]; simp)
  have hconn : s'.conn = s.conn.onInbound seg := by
    cases (Sys.step_inv hstep).2
    rfl
  have hk := TCPConn.onInbound_established s.conn seg hst hsync
  rw [← hconn] at hk
  have hsteady : Steady s.conn s'.conn ↔
      (s'.conn.congestion.cwnd = s.conn.congestion.cwnd ∧
        s'.conn.congestion.ssthresh = s.conn.congestion.ssthresh ∧
        s'.conn.congestion.inRecovery = s.conn.congestion.inRecovery ∧
        s'.conn.congestion.recoveryPoint = s.conn.congestion.recoveryPoint) := Iff.rfl
  have hharm : HarmlessDup s (.inbound seg) ↔ (s.conn.counts seg = true →
      if s.conn.congestion.inRecovery then s.conn.congestion.size = 0
      else s.conn.congestion.dupACKCount ≠ 2) :=
    ⟨fun h => h seg rfl, fun h seg' he => by cases he; exact h⟩
  rw [hsteady, hharm, hk]
  cases s.conn.counts seg with
  | false => simp
  | true =>
    have hdup : s.conn.ackedCongestion seg.ack = s.conn.congestion.dupACK s.conn.tx.snd.nxt := by
      rw [TCPConn.ackedCongestion, Congestion.onACK, if_pos hack]
    rw [if_pos rfl, hdup, Congestion.dupACK_keeps_iff]
    simp

/-- SAFE, while the third duplicate does not come: any number of segments that acknowledge nothing
    new, on a connection with nothing outstanding, leave the congestion state exactly as it was; and a
    segment that is not harmless in this sense changes it. -/
theorem idle_dup_acks {s : Sys} (hr : Reach Sys.Init Sys.step (fun _ _ => True) s) :
    (∀ es s₁, Run Sys.step (fun s e => IdleDupACK s e ∧ HarmlessDup s e) s es s₁ →
      Steady s.conn s₁.conn) ∧
    (∀ e s', IdleDupACK s e → s.step e = some s' →
      (Steady s.conn s'.conn ↔ HarmlessDup s e)) := by
  refine ⟨fun es s₁ hrun => ?_, fun e s' hidle hstep =>
    steady_idleDup_iff (syncedInside_reach hr) hidle hstep⟩
  induction hrun with
  | nil s => exact ⟨rfl, rfl, rfl, rfl⟩
  | cons hok hstep _ ih =>
    have hone := (steady_idleDup_iff (syncedInside_reach hr) hok.1 hstep).2 hok.2
    exact hone.trans (ih (hr.next trivial hstep))

/-- An executable check for a duplicate that is harmless outside of a recovery. -/
def harmlessIdleDup (s : Sys) : Event → Bool
  | .inbound seg => decide (s.conn.ctl.state = .established ∧
      s.conn.tx.snd.una = s.conn.tx.snd.nxt ∧ s.conn.tx.snd.unacked = [] ∧
      seg.ack = s.conn.tx.snd.una ∧ s.conn.tx.snd.inRecovery = false ∧
      s.conn.tx.snd.dupACKCount ≠ 2)
  | _ => false

theorem harmlessIdleDup_sound {s : Sys} {e : Event} (h : harmlessIdleDup s e = true) :
    IdleDupACK s e ∧ HarmlessDup s e := by
  cases e <;> simp only [harmlessIdleDup, decide_eq_true_eq, reduceCtorEq] at h
  case inbound seg =>
    obtain ⟨hst, huna, hq, hack, hrec, hdup⟩ := h
    refine ⟨⟨seg, rfl, hst, huna, hq, hack⟩, fun _ _ _ => ?_⟩
    rw [hrec]
    simpa using hdup

/-- The peer sends two bytes in two segments, and the congestion state stays. -/
theorem idle_dup_acks_two : ∃ s s₁ : Sys, Reach Sys.Init Sys.step (fun _ _ => True) s ∧
    Run Sys.step (fun s e => IdleDupACK s e ∧ HarmlessDup s e) s
      [.inbound (Sys.sampleSegment tcpFlagACK 101 201 1000 [1]),
        .inbound (Sys.sampleSegment tcpFlagACK 102 201 1000 [2])] s₁ ∧
    Steady s.conn s₁.conn := by
  obtain ⟨s, hr, hexec⟩ := Sys.exists_reach Sys.init_sample (fun _ _ => true)
    (fun s => (exec Sys.step (fun s e => harmlessIdleDup s e = true) s
      [.inbound (Sys.sampleSegment tcpFlagACK 101 201 1000 [1]),
        .inbound (Sys.sampleSegment tcpFlagACK 102 201 1000 [2])]).any (fun _ => True) = true)
    [Sys.sampleACK] (by decide +kernel)
  have hr' : Reach Sys.Init Sys.step (fun _ _ => True) s := hr.mono fun _ _ _ => trivial
  obtain ⟨s₁, hrun, -⟩ := exists_run_exec Sys.step (fun s e => harmlessIdleDup s e = true) s _
    (fun _ => True) hexec
  have hrun' := hrun.mono fun _ _ hok => harmlessIdleDup_sound hok
  exact ⟨s, s₁, hr', hrun', (idle_dup_acks hr').1 _ _ hrun'⟩

/-- Three bytes from the peer in three segments, with nothing ever sent, make the sender enter fast
    recovery and halve its threshold. -/
theorem idle_third_dup_enters : ∃ s s' : Sys, Reach Sys.Init Sys.step (fun _ _ => True) s ∧
    IdleDupACK s (.inbound (Sys.sampleSegment tcpFlagACK 103 201 1000 [3])) ∧
    s.step (.inbound (Sys.sampleSegment tcpFlagACK 103 201 1000 [3])) = some s' ∧
    s.conn.tx.accepted = [] ∧ s.conn.tx.snd.inRecovery = false ∧ s'.conn.tx.snd.inRecovery = true ∧
    s.conn.tx.snd.cwnd = 5360 ∧ s'.conn.tx.snd.cwnd = 4288 ∧ s'.conn.tx.snd.ssthresh = 2680 := by
  obtain ⟨s, s', hr, -, hstep, ⟨hst, huna, hq, hack⟩, hrest⟩ := Sys.exists_step Sys.init_sample
    (fun _ _ => true)
    (fun s s' => (s.conn.ctl.state = .established ∧ s.conn.tx.snd.una = s.conn.tx.snd.nxt ∧
      s.conn.tx.snd.unacked = [] ∧ 201 = s.conn.tx.snd.una) ∧
      s.conn.tx.accepted = [] ∧ s.conn.tx.snd.inRecovery = false ∧
      s'.conn.tx.snd.inRecovery = true ∧ s.conn.tx.snd.cwnd = 5360 ∧
      s'.conn.tx.snd.cwnd = 4288 ∧ s'.conn.tx.snd.ssthresh = 2680)
    [Sys.sampleACK, .inbound (Sys.sampleSegment tcpFlagACK 101 201 1000 [1]),
      .inbound (Sys.sampleSegment tcpFlagACK 102 201 1000 [2])]
    (.inbound (Sys.sampleSegment tcpFlagACK 103 201 1000 [3])) (by decide +kernel)
  exact ⟨s, s', hr.mono fun _ _ _ => trivial, ⟨_, rfl, hst, huna, hq, hack⟩, hstep, hrest⟩

end Netstack.Tcp
