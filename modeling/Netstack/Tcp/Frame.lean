import Netstack.Tcp.System

/-! What the functions of a connection leave alone.

    `TxOnly c c'` says that `c'` came from `c` by work of the send side: the state machine, the
    receive side and what the application asked for are the same, and every packet sent on the way
    acknowledges `rcv.nxt`. `RxOnly c c'` is the same for work of the receive side: the send side is
    untouched, and no packet sent on the way carries data or a FIN. Both compose, so a handler's
    frame is read off the functions it calls. -/

namespace Netstack.Tcp
open Netstack.Header Netstack.Loop

namespace TCPConn

/-! ### What an RTT sample or a SACK changes of the sender -/

/-- `s'` is `s` with another RTT estimate. -/
def Resampled (s s' : Sender) : Prop :=
  ∃ srtt rttvar rto, s' = { s with srtt := srtt, rttvar := rttvar, rto := rto }

theorem resampled_refl (s : Sender) : Resampled s s := ⟨_, _, _, rfl⟩

theorem resampled_updateRTT (s : Sender) (cfg : Config) (measured : ℤ) :
    Resampled s (s.updateRTT cfg measured) := ⟨_, _, _, rfl⟩

theorem measureRTTM_eq (c : TCPConn) (seg : Segment) : ∃ s n, Resampled c.tx.snd s ∧
    c.measureRTTM seg = { c with tx.snd := s, ticks := n } := by
  rw [measureRTTM]
  split
  · split
    · exact ⟨_, _, resampled_refl _, rfl⟩
    · dsimp only
      split
      · exact ⟨_, _, resampled_updateRTT .., rfl⟩
      · exact ⟨_, _, resampled_refl _, rfl⟩
  · exact ⟨_, _, resampled_refl _, rfl⟩

theorem removeAcked_eq (c : TCPConn) (ack : UInt32) : ∃ s n, Resampled c.tx.snd s ∧
    c.removeAcked ack
      = { c with tx.snd := { s with unacked := dropAcked ack c.tx.snd.unacked }, ticks := n } := by
  rw [removeAcked]
  dsimp only
  split
  · exact ⟨_, _, resampled_updateRTT .., rfl⟩
  · exact ⟨_, _, resampled_refl _, rfl⟩

theorem processSACKBlocks_eq (s : Sender) (blocks : List SACKBlock) (ack : UInt32) :
    ∃ marked seen, s.processSACKBlocks blocks ack
      = { s with unacked := s.unacked.map (Sender.markSACKed marked), dsackSeen := seen } := by
  rw [Sender.processSACKBlocks.eq_def]
  split
  · exact ⟨[], s.dsackSeen, rfl⟩
  · split
    · exact ⟨_, true, rfl⟩
    · exact ⟨_, s.dsackSeen, rfl⟩

/-! ### Work of the send side -/

/-- The persist timer is armed while the window is probed. -/
def Probed (c : TCPConn) : Prop := c.tx.zeroWindowProbing = true → c.tx.zeroWindowTimer.armed = true

/-- `lastWndZero` after the segments `ps` have been sent: the senders of ACKs and data set it, that of
    FINs does not. -/
def noteZero (z : Bool) (ps : List OutSegment) : Bool :=
  ps.foldl (fun z p =>
    if p.flags.has tcpFlagACK && !p.flags.has tcpFlagSYN && !p.flags.has tcpFlagFIN then p.wnd == 0
    else z) z

theorem noteZero_append (z : Bool) (ps ps' : List OutSegment) :
    noteZero z (ps ++ ps') = noteZero (noteZero z ps) ps' := List.foldl_append

theorem noteZero_ack (z : Bool) {p : OutSegment} (hp : p.flags = tcpFlagACK) :
    noteZero z [p] = (p.wnd == 0) :=
  if_pos (by rw [hp]; decide)

theorem noteZero_fin (z : Bool) {p : OutSegment} (hp : p.flags.has tcpFlagFIN = true) :
    noteZero z [p] = z :=
  if_neg (by rw [hp]; simp)

structure TxOnly (c c' : TCPConn) : Prop where
  env : c'.env = c.env
  app : c'.app = c.app
  ctl : c'.ctl = c.ctl
  rx : c'.rx = c.rx
  mss : c'.tx.snd.mss = c.tx.snd.mss
  rtoTimer : c'.tx.rtoTimer = c.tx.rtoTimer
  closed : c'.tx.writeBuf.closed = c.tx.writeBuf.closed
  probed : c.Probed → c'.Probed
  delayed : c'.timers.delayedACKTimer = c.timers.delayedACKTimer
  segs : c'.timers.unackedSegs = c.timers.unackedSegs
  timeWait : c'.timers.timeWaitTimer = c.timers.timeWaitTimer
  told : ∃ ps, c'.wire.out = c.wire.out ++ ps ∧
    c'.wire.lastWndZero = noteZero c.wire.lastWndZero ps ∧
    ∀ p ∈ ps, p.flags.has tcpFlagACK = true ∧ p.flags.has tcpFlagSYN = false ∧
      (c.ctl.synced = true → p.wnd = c.wnd)
  sent : ∃ ps, c'.wire.out = c.wire.out ++ ps ∧
    ∀ p ∈ ps, c.ctl.synced = true → p.ack = c.rx.rcv.nxt

/-- What work of the send side leaves alone while it sends nothing. -/
def txFrame (c : TCPConn) :
    Env × App × Ctl × Rx × ℤ × Timer × Bool × Bool × Timer × Timer × ℕ × Timer × Bool ×
      List OutSegment :=
  (c.env, c.app, c.ctl, c.rx, c.tx.snd.mss, c.tx.rtoTimer, c.tx.writeBuf.closed,
    c.tx.zeroWindowProbing, c.tx.zeroWindowTimer, c.timers.delayedACKTimer, c.timers.unackedSegs,
    c.timers.timeWaitTimer, c.wire.lastWndZero, c.wire.out)

namespace TxOnly

variable {c c' c'' : TCPConn}

theorem wnd_eq (h : TxOnly c c') : c'.wnd = c.wnd := by
  rw [TCPConn.wnd, h.rx, h.ctl, h.mss, h.env]
  rfl

theorem told_trans (h : TxOnly c c') (h' : TxOnly c' c'') : ∃ ps, c''.wire.out = c.wire.out ++ ps ∧
    c''.wire.lastWndZero = noteZero c.wire.lastWndZero ps ∧
    ∀ p ∈ ps, p.flags.has tcpFlagACK = true ∧ p.flags.has tcpFlagSYN = false ∧
      (c.ctl.synced = true → p.wnd = c.wnd) := by
  obtain ⟨ps, hps, hnote, hp⟩ := h.told
  obtain ⟨ps', hps', hnote', hp'⟩ := h'.told
  refine ⟨ps ++ ps', by rw [hps', hps, List.append_assoc],
    by rw [hnote', hnote, noteZero_append], fun p hmem => ?_⟩
  rcases List.mem_append.1 hmem with hmem | hmem
  · exact hp p hmem
  · rw [← h.wnd_eq, ← h.ctl]
    exact hp' p hmem

theorem trans (h : TxOnly c c') (h' : TxOnly c' c'') : TxOnly c c'' := by
  obtain ⟨ps, hps, hack⟩ := h.sent
  obtain ⟨ps', hps', hack'⟩ := h'.sent
  refine ⟨h'.env.trans h.env, h'.app.trans h.app, h'.ctl.trans h.ctl, h'.rx.trans h.rx,
    h'.mss.trans h.mss, h'.rtoTimer.trans h.rtoTimer, h'.closed.trans h.closed,
    fun hp => h'.probed (h.probed hp), h'.delayed.trans h.delayed, h'.segs.trans h.segs,
    h'.timeWait.trans h.timeWait, told_trans h h', ps ++ ps', by rw [hps', hps, List.append_assoc], ?_⟩
  intro p hp hs
  rcases List.mem_append.1 hp with hp | hp
  · exact hack p hp hs
  · rw [← h.rx]; exact hack' p hp (by rw [h.ctl]; exact hs)

theorem of_silent (h : c'.txFrame = c.txFrame) : TxOnly c c' := by
  simp only [txFrame, Prod.mk.injEq] at h
  obtain ⟨henv, happ, hctl, hrx, hmss, hrto, hclosed, hprobing, htimer, hdelayed, hsegs,
    htimeWait, hzero, hout⟩ := h
  refine ⟨henv, happ, hctl, hrx, hmss, hrto, hclosed, ?_, hdelayed, hsegs, htimeWait,
    ⟨[], by rw [hout, List.append_nil], hzero, by simp⟩, [], by rw [hout, List.append_nil], by simp⟩
  rw [Probed, Probed, hprobing, htimer]
  exact id

theorem refl (c : TCPConn) : TxOnly c c := of_silent rfl

/-- A silent change of the send side, and then more work of it. -/
theorem after (h : TxOnly c' c'') (h' : c'.txFrame = c.txFrame) : TxOnly c c'' :=
  (of_silent h').trans h

theorem told_transmitData (c : TCPConn) (data : List UInt8) (seq : UInt32) (gsoSize : Option UInt16) :
    ∃ ps, (c.transmitData (c.dataSegment data seq gsoSize)).wire.out = c.wire.out ++ ps ∧
      (c.wnd == 0) = noteZero c.wire.lastWndZero ps ∧
      ∀ p ∈ ps, p.flags.has tcpFlagACK = true ∧ p.flags.has tcpFlagSYN = false ∧
        (c.ctl.synced = true → p.wnd = c.wnd) := by
  have hflags : (c.dataSegment data seq gsoSize).flags = tcpFlagACK := rfl
  refine ⟨[c.dataSegment data seq gsoSize], rfl, (noteZero_ack _ hflags).symm, fun p hp => ?_⟩
  rw [List.mem_singleton.1 hp, hflags]
  exact ⟨by decide, by decide, fun _ => rfl⟩

theorem sendData (c : TCPConn) (data : List UInt8) (seq : UInt32) :
    TxOnly c (c.sendData data seq) :=
  ⟨rfl, rfl, rfl, rfl, rfl, rfl, rfl, id, rfl, rfl, rfl, told_transmitData c data seq none, [_], rfl,
    by simp [dataSegment]⟩

theorem sendDataGSO (c : TCPConn) (data : List UInt8) (seq : UInt32) :
    TxOnly c (c.sendDataGSO data seq) :=
  ⟨rfl, rfl, rfl, rfl, rfl, rfl, rfl, id, rfl, rfl, rfl, told_transmitData c data seq _, [_], rfl,
    by simp [dataSegment]⟩

theorem sendFINSegment (c : TCPConn) (seq : UInt32) : TxOnly c (c.sendFINSegment seq) := by
  refine ⟨rfl, rfl, rfl, rfl, rfl, rfl, rfl, id, rfl, rfl, rfl, ⟨[_], rfl, ?_, ?_⟩, [_], rfl, ?_⟩
  · exact (noteZero_fin _ (by simp only; decide)).symm
  · intro p hp
    rw [List.mem_singleton.1 hp]
    exact ⟨by simp only; decide, by simp only; decide, fun hs => by simp [ackWnd, hs]⟩
  · intro p hp hs
    rw [List.mem_singleton.1 hp]
    simp [ackNum, hs]

theorem takeBytes (c : TCPConn) (k : ℕ) : TxOnly c (c.takeBytes k) :=
  of_silent (by simp [txFrame, TCPConn.takeBytes])

theorem recordSent (c : TCPConn) (seq : UInt32) (data : List UInt8) :
    TxOnly c (c.recordSent seq data) := of_silent rfl

theorem recordSentGSO (c : TCPConn) (seq : UInt32) (data : List UInt8) (mss : ℤ) :
    TxOnly c (c.recordSentGSO seq data mss) := of_silent rfl

theorem advanceNxt (c : TCPConn) (n : ℕ) : TxOnly c (c.advanceNxt n) :=
  of_silent rfl

theorem sendNew (c : TCPConn) (k : ℕ) : TxOnly c (c.sendNew k).1 := by
  rw [TCPConn.sendNew]
  split
  · exact takeBytes c k
  · exact (((takeBytes c k).trans (sendData ..)).trans (recordSent ..)).trans (advanceNxt ..)

theorem sendGSO (c : TCPConn) (k : ℤ) : TxOnly c (c.sendGSO k).1 := by
  rw [TCPConn.sendGSO]
  split_ifs
  · exact of_silent rfl
  · exact takeBytes c _
  · exact (((takeBytes c _).trans (recordSentGSO ..)).trans (sendDataGSO ..)).trans (advanceNxt ..)

theorem sendSegment (c : TCPConn) (k : ℤ) : TxOnly c (c.sendSegment k).1 := by
  unfold TCPConn.sendSegment
  split
  · exact of_silent rfl
  · exact sendNew c _

theorem sendBatch (c : TCPConn) (w a : ℤ) : TxOnly c (c.sendBatch w a).1 := by
  unfold TCPConn.sendBatch
  dsimp only
  split
  · split
    · exact sendGSO ..
    · exact sendSegment ..
  · exact sendSegment ..

theorem sendPendingStep (c : TCPConn) : TxOnly c c.sendPendingStep.1 := by
  unfold TCPConn.sendPendingStep
  dsimp only
  split_ifs
  iterate 4 exact refl c
  exact sendBatch ..

theorem sendPending (c : TCPConn) : TxOnly c c.sendPending := by
  refine loop_rel TxOnly trans sendPendingStep ?_ _ c
  intro c
  exact of_silent rfl

theorem flush (c : TCPConn) : TxOnly c c.flush := by
  rw [TCPConn.flush]
  split
  · exact sendPending c
  · exact refl c

theorem removeAcked (c : TCPConn) (ack : UInt32) : TxOnly c (c.removeAcked ack) := by
  obtain ⟨s, n, ⟨_, _, _, rfl⟩, he⟩ := removeAcked_eq c ack
  rw [he]
  exact of_silent rfl

theorem retransmit (c : TCPConn) (seg : UnackedSegment) : TxOnly c (c.retransmit seg) := by
  unfold TCPConn.retransmit
  dsimp only
  split
  · exact (sendFINSegment ..).after rfl
  · exact (sendData ..).after rfl

theorem retransmitOldest (c : TCPConn) : TxOnly c c.retransmitOldest := by
  unfold TCPConn.retransmitOldest
  split
  · exact refl c
  · exact (retransmit ..).after rfl

theorem retransmitFirstUnSACKed (c : TCPConn) : TxOnly c c.retransmitFirstUnSACKed := by
  unfold TCPConn.retransmitFirstUnSACKed
  split
  · exact refl c
  · exact (retransmit ..).after rfl

theorem sackLossLoop : ∀ (l : List UnackedSegment) (c : TCPConn), TxOnly c (sackLossLoop l c).2
  | [], c => refl c
  | seg :: rest, c => by
      rw [TCPConn.sackLossLoop]
      split_ifs
      · exact sackLossLoop rest c
      · exact (sackLossLoop rest _).after rfl
      · exact (retransmit c seg).trans (sackLossLoop rest _)
      · exact sackLossLoop rest c

theorem sackLossDetection (c : TCPConn) : TxOnly c c.sackLossDetection :=
  (sackLossLoop _ c).trans (of_silent rfl)

theorem backOff (c : TCPConn) : TxOnly c c.backOff :=
  (retransmitOldest _).after rfl

theorem countRetry (c : TCPConn) : TxOnly c c.countRetry := of_silent rfl

theorem limitedTransmit (c : TCPConn) : TxOnly c c.limitedTransmit := by
  unfold TCPConn.limitedTransmit
  dsimp only
  split_ifs
  iterate 3 exact refl c
  exact sendSegment ..

theorem handleDupACK (c : TCPConn) : TxOnly c c.handleDupACK := by
  rw [TCPConn.handleDupACK]
  split_ifs
  · exact (sendPending _).after rfl
  · exact (limitedTransmit _).after rfl
  · exact (retransmitFirstUnSACKed _).after rfl
  · exact of_silent rfl

theorem growCwnd (c : TCPConn) (acked : UInt32) : TxOnly c (c.growCwnd acked) := by
  unfold TCPConn.growCwnd
  dsimp only
  split_ifs <;> exact of_silent rfl

theorem recoveryACK (c : TCPConn) (ack : UInt32) : TxOnly c (c.recoveryACK ack) := by
  unfold TCPConn.recoveryACK
  split
  · exact (retransmitFirstUnSACKed c).trans (of_silent rfl)
  · exact of_silent rfl

theorem updateCwnd (c : TCPConn) (ack acked : UInt32) : TxOnly c (c.updateCwnd ack acked) := by
  unfold TCPConn.updateCwnd
  split
  · exact recoveryACK ..
  · exact growCwnd ..

theorem advanceUna (c : TCPConn) (ack : UInt32) : TxOnly c (c.advanceUna ack) :=
  of_silent rfl

theorem handleNewACK (c : TCPConn) (ack : UInt32) : TxOnly c (c.handleNewACK ack) :=
  (((advanceUna c ack).trans (removeAcked _ ack)).trans (updateCwnd _ ack _)).trans (sendPending _)

theorem handleACK (c : TCPConn) (ack : UInt32) : TxOnly c (c.handleACK ack) := by
  unfold TCPConn.handleACK
  split_ifs
  · exact handleDupACK c
  · exact refl c
  · exact handleNewACK c ack

theorem cancelZeroWindowProbe (c : TCPConn) : TxOnly c c.cancelZeroWindowProbe := by
  rw [TCPConn.cancelZeroWindowProbe]
  split
  · exact ⟨rfl, rfl, rfl, rfl, rfl, rfl, rfl, (fun _ h => by cases h), rfl, rfl, rfl,
      ⟨[], (List.append_nil _).symm, rfl, by simp⟩, [], (List.append_nil _).symm, by simp⟩
  · exact refl c

theorem checkZeroWindow (c : TCPConn) : TxOnly c c.checkZeroWindow := by
  rw [TCPConn.checkZeroWindow]
  split_ifs
  · exact refl c
  · exact ⟨rfl, rfl, rfl, rfl, rfl, rfl, rfl, (fun _ _ => rfl), rfl, rfl, rfl,
      ⟨[], (List.append_nil _).symm, rfl, by simp⟩, [], (List.append_nil _).symm, by simp⟩
  · exact refl c

theorem sendZeroWindowProbe (c : TCPConn) : TxOnly c c.sendZeroWindowProbe := by
  unfold TCPConn.sendZeroWindowProbe
  dsimp only
  split_ifs
  · exact refl c
  · exact sendNew c 1
  · exact (sendNew c 1).trans (cancelZeroWindowProbe _)

theorem sendFIN (c : TCPConn) : TxOnly c c.sendFIN :=
  (sendFINSegment c _).trans (of_silent rfl)

theorem measureRTTM (c : TCPConn) (seg : Segment) : TxOnly c (c.measureRTTM seg) := by
  obtain ⟨s, n, ⟨_, _, _, rfl⟩, he⟩ := measureRTTM_eq c seg
  rw [he]
  exact of_silent rfl

theorem setWnd (c : TCPConn) (seg : Segment) : TxOnly c (c.setWnd seg) :=
  of_silent rfl

theorem noteMaxWnd (c : TCPConn) : TxOnly c c.noteMaxWnd := of_silent rfl

theorem handleSACK (c : TCPConn) (seg : Segment) : TxOnly c (c.handleSACK seg) := by
  unfold TCPConn.handleSACK
  dsimp only
  split
  · obtain ⟨_, _, he⟩ := processSACKBlocks_eq c.tx.snd
      (parseSegmentOptions seg.options).sackBlocks seg.ack
    exact (sackLossDetection _).after (by rw [he]; rfl)
  · exact refl c

theorem manageZeroWindow (c : TCPConn) : TxOnly c c.manageZeroWindow := by
  unfold TCPConn.manageZeroWindow
  split_ifs
  · exact (cancelZeroWindowProbe c).trans (sendPending _)
  · exact checkZeroWindow c
  · exact refl c

theorem processACK (c : TCPConn) (seg : Segment) : TxOnly c (c.processACK seg) :=
  ((((setWnd c seg).trans (noteMaxWnd _)).trans (measureRTTM _ seg)).trans (handleSACK _ seg)).trans
    (handleACK _ seg.ack)

theorem sendOnUpdate (c : TCPConn) (seg : Segment) (oldWnd : UInt32) :
    TxOnly c (c.sendOnUpdate seg oldWnd) := by
  rw [TCPConn.sendOnUpdate]
  split
  · exact sendPending c
  · exact refl c

theorem establishedACK (c : TCPConn) (seg : Segment) : TxOnly c (c.establishedACK seg) := by
  rw [TCPConn.establishedACK]
  split
  · exact ((processACK c seg).trans (sendOnUpdate _ _ _)).trans (manageZeroWindow _)
  · exact refl c

theorem closingACK (c : TCPConn) (seg : Segment) : TxOnly c (c.closingACK seg) :=
  (measureRTTM c seg).trans (handleACK _ _)

theorem finWait1ACK (c : TCPConn) (seg : Segment) : TxOnly c (c.finWait1ACK seg) := by
  unfold TCPConn.finWait1ACK
  split
  · exact ((setWnd c seg).trans (measureRTTM _ seg)).trans (handleACK _ _)
  · exact refl c

theorem finWait2ACK (c : TCPConn) (seg : Segment) : TxOnly c (c.finWait2ACK seg) := by
  unfold TCPConn.finWait2ACK
  split
  · exact setWnd c seg
  · exact refl c

theorem handleCloseWait (c : TCPConn) (seg : Segment) : TxOnly c (c.handleCloseWait seg) := by
  unfold TCPConn.handleCloseWait
  split
  · exact (((setWnd c seg).trans (noteMaxWnd _)).trans (measureRTTM _ seg)).trans (handleACK _ _)
  · exact refl c

theorem resetKeepalive (c : TCPConn) : TxOnly c c.resetKeepalive := of_silent rfl

theorem updateTSRecent (c : TCPConn) (seg : Segment) : TxOnly c (c.updateTSRecent seg) := by
  unfold TCPConn.updateTSRecent
  split
  · split <;> exact of_silent rfl
  · exact refl c

end TxOnly

/-! ### Work of the receive side and of the state machine -/


structure RxOnly (c c' : TCPConn) : Prop where
  env : c'.env = c.env
  app : c'.app = c.app
  tx : c'.tx = c.tx
  fault : c'.fault = c.fault
  synced : c'.ctl.synced = c.ctl.synced
  handedOver : c'.ctl.handedOver = c.ctl.handedOver
  running : c'.ctl.running = c.ctl.running
  finPending : c'.ctl.finPending = c.ctl.finPending
  early : c'.ctl.state.early = true → c.ctl.state = c'.ctl.state
  sent : ∃ ps, c'.wire.out = c.wire.out ++ ps ∧
    ∀ p ∈ ps, p.payload = [] ∧ p.flags.has tcpFlagFIN = false

namespace RxOnly

variable {c c' c'' : TCPConn}

theorem synRcvd (h : RxOnly c c') (hs : c'.ctl.state = .synRcvd) : c.ctl.state = .synRcvd :=
  (h.early (by rw [hs]; rfl)).trans hs

theorem refl (c : TCPConn) : RxOnly c c :=
  ⟨rfl, rfl, rfl, rfl, rfl, rfl, rfl, rfl, fun _ => rfl, [], by simp, by simp⟩

theorem trans (h : RxOnly c c') (h' : RxOnly c' c'') : RxOnly c c'' := by
  obtain ⟨ps, hps, hp⟩ := h.sent
  obtain ⟨ps', hps', hp'⟩ := h'.sent
  refine ⟨h'.env.trans h.env, h'.app.trans h.app, h'.tx.trans h.tx, h'.fault.trans h.fault,
    h'.synced.trans h.synced, h'.handedOver.trans h.handedOver, h'.running.trans h.running,
    h'.finPending.trans h.finPending, fun hs => (h.early (by rw [h'.early hs]; exact hs)).trans (h'.early hs),
    ps ++ ps', by rw [hps', hps, List.append_assoc], ?_⟩
  intro p hmem
  rcases List.mem_append.1 hmem with hmem | hmem
  · exact hp p hmem
  · exact hp' p hmem

/-- Nothing is sent, and the state machine stays where it is. -/
theorem of_silent (env : c'.env = c.env) (app : c'.app = c.app) (tx : c'.tx = c.tx)
    (fault : c'.fault = c.fault) (ctl : c'.ctl = c.ctl) (out : c'.wire.out = c.wire.out) :
    RxOnly c c' :=
  ⟨env, app, tx, fault, by rw [ctl], by rw [ctl], by rw [ctl], by rw [ctl], fun _ => by rw [ctl], [],
    by rw [out, List.append_nil], by simp⟩

theorem sendACK (c : TCPConn) : RxOnly c c.sendACK := by
  refine ⟨rfl, rfl, rfl, rfl, rfl, rfl, rfl, rfl, fun _ => rfl, [_], rfl, ?_⟩
  intro p hp
  rw [List.mem_singleton.1 hp]
  exact ⟨rfl, by simp only; decide⟩

theorem sendSYNACK (c : TCPConn) : RxOnly c c.sendSYNACK := by
  refine ⟨rfl, rfl, rfl, rfl, rfl, rfl, rfl, rfl, fun _ => rfl, [_], rfl, ?_⟩
  intro p hp
  rw [List.mem_singleton.1 hp]
  exact ⟨rfl, by simp only; decide⟩

theorem sendRSTSegment (c : TCPConn) (seq : UInt32) : RxOnly c (c.sendRSTSegment seq) := by
  refine ⟨rfl, rfl, rfl, rfl, rfl, rfl, rfl, rfl, fun _ => rfl, [_], rfl, ?_⟩
  intro p hp
  rw [List.mem_singleton.1 hp]
  exact ⟨rfl, by simp only; decide⟩

theorem sendKeepaliveProbe (c : TCPConn) : RxOnly c c.sendKeepaliveProbe := by
  refine ⟨rfl, rfl, rfl, rfl, rfl, rfl, rfl, rfl, fun _ => rfl, [_], rfl, ?_⟩
  intro p hp
  rw [List.mem_singleton.1 hp]
  exact ⟨rfl, by simp only; decide⟩

theorem setState (c : TCPConn) {s : TCPState} (hs : s.early = false) : RxOnly c (c.setState s) :=
  ⟨rfl, rfl, rfl, rfl, rfl, rfl, rfl, rfl, fun h => absurd (hs.symm.trans h) (by simp), [], by simp [TCPConn.setState],
    by simp⟩

theorem closeDone (c : TCPConn) : RxOnly c c.closeDone := by
  unfold TCPConn.closeDone
  split
  · exact refl c
  · exact (setState c (s := .closed) rfl).trans
      ⟨rfl, rfl, rfl, rfl, rfl, rfl, rfl, rfl, fun _ => rfl, [], by simp, by simp⟩

theorem autoTuneAccumulate (c : TCPConn) (n : ℕ) : RxOnly c (c.autoTuneAccumulate n) := by
  unfold TCPConn.autoTuneAccumulate
  dsimp only
  split_ifs <;> exact of_silent rfl rfl rfl rfl rfl rfl

theorem writeData (c : TCPConn) (data : List UInt8) : RxOnly c (c.writeData data) :=
  of_silent rfl rfl rfl rfl rfl rfl

theorem deliver (c : TCPConn) (data : List UInt8) : RxOnly c (c.deliver data) := by
  unfold TCPConn.deliver
  split
  · exact (writeData c data).trans (autoTuneAccumulate _ _)
  · exact writeData c data

theorem closeReadBuf (c : TCPConn) : RxOnly c c.closeReadBuf := of_silent rfl rfl rfl rfl rfl rfl

theorem countFIN (c : TCPConn) : RxOnly c c.countFIN := of_silent rfl rfl rfl rfl rfl rfl

theorem cancelDelayedACK (c : TCPConn) : RxOnly c c.cancelDelayedACK :=
  of_silent rfl rfl rfl rfl rfl rfl

theorem processFIN (c : TCPConn) : RxOnly c c.processFIN :=
  ((((countFIN c).trans (cancelDelayedACK _)).trans (sendACK _)).trans (closeReadBuf _)).trans
    (setState _ rfl)

theorem drainOOO : ∀ (l : List OOOSegment) (c : TCPConn), RxOnly c (drainOOO l c)
  | [], c => of_silent rfl rfl rfl rfl rfl rfl
  | seg :: rest, c => by
      rw [TCPConn.drainOOO]
      dsimp only
      split_ifs
      · exact of_silent rfl rfl rfl rfl rfl rfl
      · exact drainOOO rest c
      · exact (deliver c _).trans (of_silent rfl rfl rfl rfl rfl rfl)
      · exact (deliver c _).trans (drainOOO rest _)

theorem clearFIN (c : TCPConn) : RxOnly c c.clearFIN := of_silent rfl rfl rfl rfl rfl rfl

theorem deferredFIN (c : TCPConn) : RxOnly c c.deferredFIN := by
  unfold TCPConn.deferredFIN
  split
  · exact (clearFIN c).trans (processFIN _)
  · exact refl c

theorem deliverOOO (c : TCPConn) : RxOnly c c.deliverOOO := (drainOOO _ c).trans (deferredFIN _)

theorem skipData (c : TCPConn) (seq : UInt32) (data : List UInt8) : RxOnly c (c.skipData seq data) :=
  of_silent rfl rfl rfl rfl rfl rfl

theorem acceptData (c : TCPConn) (seq : UInt32) (data : List UInt8) :
    RxOnly c (c.acceptData seq data) := by
  unfold TCPConn.acceptData
  split_ifs
  · exact skipData c seq data
  · exact (deliver c data).trans (deliverOOO _)
  · exact deliver c data
  · exact of_silent rfl rfl rfl rfl rfl rfl
  · exact refl c

theorem windowData (c : TCPConn) (seq : UInt32) (data : List UInt8) :
    RxOnly c (c.windowData seq data) := by
  unfold TCPConn.windowData
  dsimp only
  split
  · exact refl c
  · split
    · exact refl c
    · exact acceptData ..

theorem handleData (c : TCPConn) (seq : UInt32) (data : List UInt8) :
    RxOnly c (c.handleData seq data) := by
  unfold TCPConn.handleData
  dsimp only
  split_ifs
  · exact refl c
  · exact of_silent rfl rfl rfl rfl rfl rfl
  · exact windowData ..
  · exact windowData ..

theorem takePayload (c : TCPConn) (seg : Segment) : RxOnly c (c.takePayload seg) := by
  unfold TCPConn.takePayload
  split
  · exact handleData ..
  · exact refl c

theorem ackNow (c : TCPConn) : RxOnly c c.ackNow :=
  ((cancelDelayedACK c).trans (sendACK _)).trans (of_silent rfl rfl rfl rfl rfl rfl)

theorem countSegment (c : TCPConn) : RxOnly c c.countSegment := of_silent rfl rfl rfl rfl rfl rfl

theorem delayACK (c : TCPConn) : RxOnly c c.delayACK := of_silent rfl rfl rfl rfl rfl rfl

theorem scheduleACK (c : TCPConn) (seg : Segment) : RxOnly c (c.scheduleACK seg) := by
  unfold TCPConn.scheduleACK
  split_ifs
  · exact refl c
  · exact (countSegment c).trans (ackNow _)
  · exact (countSegment c).trans (ackNow _)
  · exact (countSegment c).trans (delayACK _)

theorem deferFIN (c : TCPConn) (finSeq : UInt32) : RxOnly c (c.deferFIN finSeq) :=
  of_silent rfl rfl rfl rfl rfl rfl

theorem establishedFIN (c : TCPConn) (seg : Segment) : RxOnly c (c.establishedFIN seg) := by
  unfold TCPConn.establishedFIN
  split_ifs
  · exact processFIN c
  · exact (deferFIN c _).trans (scheduleACK _ seg)
  · exact scheduleACK c seg

theorem resetKeepalive (c : TCPConn) : RxOnly c c.resetKeepalive :=
  of_silent rfl rfl rfl rfl rfl rfl

theorem enterTimeWait (c : TCPConn) : RxOnly c c.enterTimeWait :=
  ((setState c (s := .timeWait) rfl).trans (closeReadBuf _)).trans (of_silent rfl rfl rfl rfl rfl rfl)

theorem finWait2Data (c : TCPConn) (seg : Segment) : RxOnly c (c.finWait2Data seg) := by
  unfold TCPConn.finWait2Data
  split
  · exact refl c
  · exact (takePayload c _).trans (of_silent rfl rfl rfl rfl rfl rfl)

theorem reACKFIN (c : TCPConn) (seg : Segment) : RxOnly c (c.reACKFIN seg) := by
  unfold TCPConn.reACKFIN
  split
  · exact sendACK c
  · exact refl c

theorem handleTimeWait (c : TCPConn) (seg : Segment) : RxOnly c (c.handleTimeWait seg) := by
  unfold TCPConn.handleTimeWait
  split
  · exact (sendACK c).trans (of_silent rfl rfl rfl rfl rfl rfl)
  · exact refl c

theorem handleRST (c : TCPConn) : RxOnly c c.handleRST := (setState c (s := .closed) rfl).trans (closeDone _)

theorem handleRSTSegment (c : TCPConn) (seg : Segment) : RxOnly c (c.handleRSTSegment seg) := by
  unfold TCPConn.handleRSTSegment
  split_ifs
  · exact refl c
  · exact handleRST c
  · exact sendACK c
  · exact refl c

theorem updateTSRecent (c : TCPConn) (seg : Segment) : RxOnly c (c.updateTSRecent seg) := by
  unfold TCPConn.updateTSRecent
  split
  · split <;> exact of_silent rfl rfl rfl rfl rfl rfl
  · exact refl c

theorem piggyback (c : TCPConn) : RxOnly c c.piggyback := by
  rw [TCPConn.piggyback]
  split <;> exact of_silent rfl rfl rfl rfl rfl rfl

end RxOnly

/-! ### Events that receive nothing -/

/-- The receive side of `c'` is that of `c` but for the DSACK block, auto-tuning aside, and every
    acknowledgment sent on the way is of `rcv.nxt` and advertises the window. -/
structure Quiet (c c' : TCPConn) : Prop where
  env : c'.env = c.env
  mss : c'.tx.snd.mss = c.tx.snd.mss
  readShutdown : c'.app.readShutdown = c.app.readShutdown
  synced : c'.ctl.synced = c.ctl.synced
  running : c'.ctl.running = true → c.ctl.running = true
  state : c'.ctl.state = c.ctl.state ∨
    c'.ctl.state ≠ .synRcvd ∧ c'.ctl.state ≠ .closing ∧ c'.ctl.state ≠ .established
  readBuf : c'.rx.readBuf = c.rx.readBuf
  delivered : c'.rx.delivered = c.rx.delivered
  finAt : c'.rx.finAt = c.rx.finAt
  nxt : c'.rx.rcv.nxt = c.rx.rcv.nxt
  ooo : c'.rx.rcv.ooo = c.rx.rcv.ooo
  finReceived : c'.rx.rcv.finReceived = c.rx.rcv.finReceived
  finSeq : c'.rx.rcv.finSeq = c.rx.rcv.finSeq
  sent : ∃ ps, c'.wire.out = c.wire.out ++ ps ∧
    ∀ p ∈ ps, c.ctl.synced = true → p.flags.has tcpFlagACK = true →
      p.ack = c.rx.rcv.nxt ∧ p.wnd = c.wnd

namespace Quiet

variable {c c' c'' : TCPConn}

theorem wnd_eq (h : Quiet c c') : c'.wnd = c.wnd := by
  rw [TCPConn.wnd, h.readBuf, h.synced, h.mss, h.env]
  rfl

theorem trans (h : Quiet c c') (h' : Quiet c' c'') : Quiet c c'' := by
  obtain ⟨ps, hps, hack⟩ := h.sent
  obtain ⟨ps', hps', hack'⟩ := h'.sent
  refine ⟨h'.env.trans h.env, h'.mss.trans h.mss, h'.readShutdown.trans h.readShutdown, h'.synced.trans h.synced,
    fun hr => h.running (h'.running hr), ?_,
    h'.readBuf.trans h.readBuf, h'.delivered.trans h.delivered, h'.finAt.trans h.finAt,
    h'.nxt.trans h.nxt, h'.ooo.trans h.ooo, h'.finReceived.trans h.finReceived,
    h'.finSeq.trans h.finSeq, ps ++ ps', by rw [hps', hps, List.append_assoc], ?_⟩
  · rcases h'.state with he | hne
    · rw [he]; exact h.state
    · exact .inr hne
  intro p hp hs hf
  rcases List.mem_append.1 hp with hp | hp
  · exact hack p hp hs hf
  · rw [← h.nxt, ← h.wnd_eq]; exact hack' p hp (h.synced.trans hs) hf

theorem synRcvd (h : Quiet c c') (hs : c'.ctl.state = .synRcvd) : c.ctl.state = .synRcvd := by
  rcases h.state with he | hne
  · exact he.symm.trans hs
  · exact absurd hs hne.1

theorem closing (h : Quiet c c') (hs : c'.ctl.state = .closing) : c.ctl.state = .closing := by
  rcases h.state with he | hne
  · exact he.symm.trans hs
  · exact absurd hs hne.2.1

theorem established (h : Quiet c c') (hs : c'.ctl.state = .established) :
    c.ctl.state = .established := by
  rcases h.state with he | hne
  · exact he.symm.trans hs
  · exact absurd hs hne.2.2

theorem of_txOnly (h : TxOnly c c') : Quiet c c' := by
  obtain ⟨ps, hps, hack⟩ := h.sent
  obtain ⟨ps', hps', -, htold⟩ := h.told
  obtain rfl : ps' = ps := List.append_cancel_left (hps'.symm.trans hps)
  refine ⟨h.env, h.mss, by rw [h.app], by rw [h.ctl], by rw [h.ctl]; exact id, .inl (by rw [h.ctl]),
    by rw [h.rx], by rw [h.rx], by rw [h.rx], by rw [h.rx], by rw [h.rx], by rw [h.rx],
    by rw [h.rx], ps', hps', fun p hp hs _ => ⟨hack p hp hs, (htold p hp).2.2 hs⟩⟩

/-- Nothing is sent, and neither the receive side nor the state machine is touched. -/
theorem of_silent (env : c'.env = c.env) (mss : c'.tx.snd.mss = c.tx.snd.mss)
    (readShutdown : c'.app.readShutdown = c.app.readShutdown)
    (ctl : c'.ctl = c.ctl) (rx : c'.rx = c.rx) (out : c'.wire.out = c.wire.out) : Quiet c c' :=
  ⟨env, mss, readShutdown, by rw [ctl], by rw [ctl]; exact id, .inl (by rw [ctl]), by rw [rx],
    by rw [rx], by rw [rx], by rw [rx], by rw [rx], by rw [rx], by rw [rx], [],
    by rw [out, List.append_nil], by simp⟩

theorem refl (c : TCPConn) : Quiet c c := of_silent rfl rfl rfl rfl rfl rfl

theorem sendACK (c : TCPConn) : Quiet c c.sendACK := by
  refine ⟨rfl, rfl, rfl, rfl, id, .inl rfl, rfl, rfl, rfl, ?_, ?_, ?_, ?_, [_], rfl, ?_⟩
  iterate 4 · simp only [TCPConn.sendACK]; split <;> rfl
  intro p hp hs _
  rw [List.mem_singleton.1 hp]
  simp [ackNum, ackWnd, hs]

theorem sendRSTSegment (c : TCPConn) (seq : UInt32) : Quiet c (c.sendRSTSegment seq) := by
  refine ⟨rfl, rfl, rfl, rfl, id, .inl rfl, rfl, rfl, rfl, rfl, rfl, rfl, rfl, [_], rfl, ?_⟩
  intro p hp _ hf
  rw [List.mem_singleton.1 hp] at hf
  exact absurd hf (by simp only; decide)

theorem sendKeepaliveProbe (c : TCPConn) : Quiet c c.sendKeepaliveProbe :=
  ⟨rfl, rfl, rfl, rfl, id, .inl rfl, rfl, rfl, rfl, rfl, rfl, rfl, rfl, [_], rfl, by simp⟩

theorem setState (c : TCPConn) {s : TCPState}
    (hs : s ≠ .synRcvd ∧ s ≠ .closing ∧ s ≠ .established) : Quiet c (c.setState s) :=
  ⟨rfl, rfl, rfl, rfl, id, .inr hs, rfl, rfl, rfl, rfl, rfl, rfl, rfl, [],
    by simp [TCPConn.setState], by simp⟩

theorem closeDone (c : TCPConn) : Quiet c c.closeDone := by
  rw [TCPConn.closeDone]
  split
  · exact refl c
  · exact (setState c (s := .closed) (by simp)).trans
      ⟨rfl, rfl, rfl, rfl, id, .inl rfl, rfl, rfl, rfl, rfl, rfl, rfl, rfl, [], by simp, by simp⟩

theorem handleRST (c : TCPConn) : Quiet c c.handleRST := (setState c (by simp)).trans (closeDone _)

theorem handleRSTSegment (c : TCPConn) (seg : Segment) : Quiet c (c.handleRSTSegment seg) := by
  rw [TCPConn.handleRSTSegment]
  split_ifs
  · exact refl c
  · exact handleRST c
  · exact sendACK c
  · exact refl c

theorem ackNow (c : TCPConn) : Quiet c c.ackNow :=
  ((of_silent rfl rfl rfl rfl rfl rfl : Quiet c c.cancelDelayedACK).trans (sendACK _)).trans
    (of_silent rfl rfl rfl rfl rfl rfl)

theorem scheduleACK (c : TCPConn) (seg : Segment) : Quiet c (c.scheduleACK seg) := by
  have hcount : Quiet c c.countSegment := of_silent rfl rfl rfl rfl rfl rfl
  rw [TCPConn.scheduleACK]
  split_ifs
  · exact refl c
  · exact hcount.trans (ackNow _)
  · exact hcount.trans (ackNow _)
  · exact hcount.trans (of_silent rfl rfl rfl rfl rfl rfl)

theorem reACKFIN (c : TCPConn) (seg : Segment) : Quiet c (c.reACKFIN seg) := by
  rw [TCPConn.reACKFIN]
  split
  · exact sendACK c
  · exact refl c

theorem ackPayload (c : TCPConn) (seg : Segment) : Quiet c (c.ackPayload seg) := by
  rw [TCPConn.ackPayload]
  split
  · exact refl c
  · exact sendACK c

/-- Only sent before there is a receiver. -/
theorem sendSYNACK (c : TCPConn) (hs : c.ctl.synced = false) : Quiet c c.sendSYNACK := by
  refine ⟨rfl, rfl, rfl, rfl, id, .inl rfl, rfl, rfl, rfl, rfl, rfl, rfl, rfl, [_], rfl, ?_⟩
  intro p _ hs'
  rw [hs] at hs'
  cases hs'

theorem handOver (c : TCPConn) : Quiet c c.handOver :=
  ⟨rfl, rfl, rfl, rfl, id, .inl rfl, rfl, rfl, rfl, rfl, rfl, rfl, rfl, [], by simp [TCPConn.handOver], by simp⟩

theorem handleTimeWait (c : TCPConn) (seg : Segment) : Quiet c (c.handleTimeWait seg) := by
  rw [TCPConn.handleTimeWait]
  split
  · exact (sendACK c).trans (of_silent rfl rfl rfl rfl rfl rfl)
  · exact refl c

theorem handleLastAck (c : TCPConn) (seg : Segment) : Quiet c (c.handleLastAck seg) := by
  rw [TCPConn.handleLastAck]
  split_ifs
  · exact (of_txOnly (.handleACK c _)).trans (closeDone _)
  · exact refl c
  · exact refl c

theorem clearPending (c : TCPConn) : Quiet c c.clearPending :=
  ⟨rfl, rfl, rfl, rfl, id, .inl rfl, rfl, rfl, rfl, rfl, rfl, rfl, rfl, [], by simp [TCPConn.clearPending],
    by simp⟩

theorem finalizeFIN (c : TCPConn) : Quiet c c.finalizeFIN := by
  rw [TCPConn.finalizeFIN.eq_def]
  split
  · exact ((clearPending c).trans (of_txOnly (.sendFIN _))).trans (setState _ (by simp))
  · exact ((clearPending c).trans (of_txOnly (.sendFIN _))).trans (setState _ (by simp))
  · exact clearPending c

theorem finIfDrained (c : TCPConn) : Quiet c c.finIfDrained := by
  rw [TCPConn.finIfDrained]
  split
  · exact finalizeFIN c
  · exact refl c

theorem drainForFIN (c : TCPConn) : Quiet c c.drainForFIN := by
  rw [TCPConn.drainForFIN]
  split
  · exact (of_txOnly (.sendPending c)).trans (finIfDrained _)
  · exact refl c

theorem abort (c : TCPConn) : Quiet c c.abort := by
  rw [TCPConn.abort]
  split
  · exact (sendRSTSegment c _).trans (closeDone _)
  · exact closeDone c

theorem handleRTO (c : TCPConn) : Quiet c c.handleRTO := by
  rw [TCPConn.handleRTO]
  split_ifs
  · exact refl c
  · exact of_txOnly (.backOff c)
  · exact (of_txOnly (.countRetry c)).trans (abort _)
  · exact (of_txOnly (.countRetry c)).trans (of_txOnly (.backOff _))

theorem exitRun (c : TCPConn) : Quiet c c.exitRun :=
  (closeDone c).trans ⟨rfl, rfl, rfl, rfl, by simp [TCPConn.exitRun], .inl rfl, rfl, rfl, rfl, rfl, rfl, rfl, rfl, [],
    by simp [TCPConn.exitRun], by simp⟩

theorem finOrDefer (c : TCPConn) : Quiet c c.finOrDefer := by
  rw [TCPConn.finOrDefer]
  split
  · exact ⟨rfl, rfl, rfl, rfl, id, .inl rfl, rfl, rfl, rfl, rfl, rfl, rfl, rfl, [], by simp, by simp⟩
  · exact finalizeFIN c

theorem handleClose (c : TCPConn) : Quiet c c.handleClose := by
  rw [TCPConn.handleClose.eq_def]
  split
  iterate 2 exact (of_txOnly (.flush c)).trans (finOrDefer _)
  exact refl c

theorem armRTO (c : TCPConn) : Quiet c c.armRTO := by
  rw [TCPConn.armRTO]
  split <;> exact of_silent rfl rfl rfl rfl rfl rfl

theorem manageRTO (c : TCPConn) : Quiet c c.manageRTO := by
  rw [TCPConn.manageRTO]
  split_ifs
  · exact refl c
  · exact armRTO c
  · exact of_silent rfl rfl rfl rfl rfl rfl

theorem onRTO (c : TCPConn) : Quiet c c.onRTO := by
  have hstop : Quiet c c.stopRTO := of_silent rfl rfl rfl rfl rfl rfl
  rw [TCPConn.onRTO]
  split
  · refine (hstop.trans (handleRTO _)).trans ?_
    rw [rearmRTO]
    split
    · exact armRTO _
    · exact refl _
  · exact hstop

theorem cancelDelayedACK (c : TCPConn) : Quiet c c.cancelDelayedACK := of_silent rfl rfl rfl rfl rfl rfl

theorem clearSegs (c : TCPConn) : Quiet c c.clearSegs := of_silent rfl rfl rfl rfl rfl rfl

theorem onDelayedACK (c : TCPConn) : Quiet c c.onDelayedACK :=
  ((cancelDelayedACK c).trans (sendACK _)).trans (clearSegs _)

theorem onZeroWindow (c : TCPConn) : Quiet c c.onZeroWindow := by
  have hstop : Quiet c c.stopZeroWindow := of_silent rfl rfl rfl rfl rfl rfl
  rw [TCPConn.onZeroWindow]
  split
  · exact (hstop.trans (of_txOnly (.sendZeroWindowProbe _))).trans (of_silent rfl rfl rfl rfl rfl rfl)
  · exact hstop

theorem onKeepalive (c : TCPConn) : Quiet c c.onKeepalive := by
  have hfired : ∀ n, Quiet c (c.keepaliveFired n) := fun _ => of_silent rfl rfl rfl rfl rfl rfl
  rw [TCPConn.onKeepalive]
  split_ifs
  · exact (hfired c.timers.keepaliveProbes).trans (of_silent rfl rfl rfl rfl rfl rfl)
  · exact ((hfired (c.timers.keepaliveProbes + 1)).trans (sendRSTSegment _ _)).trans (exitRun _)
  · exact ((hfired (c.timers.keepaliveProbes + 1)).trans (sendKeepaliveProbe _)).trans
      (of_silent rfl rfl rfl rfl rfl rfl)
  · exact hfired _

theorem piggyback (c : TCPConn) : Quiet c c.piggyback := by
  rw [TCPConn.piggyback]
  split
  · exact (cancelDelayedACK c).trans (clearSegs _)
  · exact refl c

theorem onWriteNotifySend (c : TCPConn) : Quiet c c.onWriteNotifySend := by
  have htoken : Quiet c { c with app.writeNotify := false } := of_silent rfl rfl rfl rfl rfl rfl
  exact ((htoken.trans (of_txOnly (((TxOnly.sendPending _).trans (.resetKeepalive _)).trans
    (.checkZeroWindow _)))).trans (piggyback _)).trans (armRTO _)

theorem onWriteNotify (c : TCPConn) : Quiet c c.onWriteNotify := by
  rw [TCPConn.onWriteNotify]
  split_ifs
  · exact (onWriteNotifySend c).trans (finIfDrained _)
  · exact onWriteNotifySend c
  · exact of_silent rfl rfl rfl rfl rfl rfl

theorem onWindowNotify (c : TCPConn) : Quiet c c.onWindowNotify := by
  have htoken : Quiet c { c with app.windowNotify := false, wire.lastWndZero := false } :=
    of_silent rfl rfl rfl rfl rfl rfl
  rw [TCPConn.onWindowNotify]
  split
  · exact (htoken.trans (sendACK _)).trans (clearSegs _)
  · exact of_silent rfl rfl rfl rfl rfl rfl

theorem onClose (c : TCPConn) : Quiet c c.onClose := by
  have htoken : Quiet c { c with app.closeCh := false } := of_silent rfl rfl rfl rfl rfl rfl
  rw [TCPConn.onClose]
  split
  · exact (htoken.trans (handleClose _)).trans (armRTO _)
  · exact htoken.trans (handleClose _)

theorem onSynRcvdTimer (c : TCPConn) : Quiet c c.onSynRcvdTimer := by
  have hfired : Quiet c { c with timers.synRcvdTimer := Timer.stopped } :=
    of_silent rfl rfl rfl rfl rfl rfl
  rw [TCPConn.onSynRcvdTimer]
  split
  · exact hfired.trans (exitRun _)
  · exact hfired

theorem onFinWait2Timer (c : TCPConn) : Quiet c c.onFinWait2Timer := by
  have hfired : Quiet c { c with timers.finWait2Timer := Timer.stopped } :=
    of_silent rfl rfl rfl rfl rfl rfl
  rw [TCPConn.onFinWait2Timer]
  split
  · exact hfired.trans (exitRun _)
  · exact hfired

theorem growWriteBuf (c : TCPConn) : Quiet c c.growWriteBuf := by
  rw [TCPConn.growWriteBuf]
  split <;> exact of_silent rfl rfl rfl rfl rfl rfl

theorem closeWrite (c : TCPConn) : Quiet c c.closeWrite := by
  rw [TCPConn.closeWrite]
  split <;> exact of_silent rfl rfl rfl rfl rfl rfl

end Quiet

/-! ### Before the handshake ends -/

/-- In SYN_RCVD a segment is answered, or it opens the connection and its payload is taken in. -/
theorem handleSynRcvd_quiet {c : TCPConn} (hs : c.ctl.synced = false) (seg : Segment) :
    Quiet c (c.handleSynRcvd seg) ∨
    Quiet ((c.establish seg).resetKeepalive.synPayload seg) (c.handleSynRcvd seg) := by
  rw [handleSynRcvd]
  split_ifs
  · exact .inl (.sendACK c)
  · exact .inl ((Quiet.sendRSTSegment c _).trans (.handleRST _))
  · exact .inr (.handOver _)
  · exact .inl (.sendSYNACK c hs)
  · exact .inl (.refl c)

/-- The payload of the segment that completes the handshake is taken in like any other. -/
theorem quiet_synPayload {c : TCPConn} (hs : c.ctl.synced = true) (seg : Segment) :
    Quiet (c.takePayload seg) (c.synPayload seg) := by
  rw [takePayload, if_pos hs, synPayload]
  split
  · rename_i hnil
    rw [List.isEmpty_iff.1 hnil]
    exact .refl c
  · exact .sendACK _

/-- `handleSynRcvd_quiet` for the run loop. -/
theorem onInbound_unsynced {c : TCPConn} (hs : c.ctl.synced = false)
    (hst : c.ctl.state = .synRcvd ∨ c.ctl.state = .closed) (seg : Segment) :
    Quiet c (c.onInbound seg) ∨ c.ctl.state = .synRcvd ∧
      Quiet (((c.updateTSRecent seg).establish seg).resetKeepalive.synPayload seg)
        (c.onInbound seg) := by
  have t := TxOnly.updateTSRecent c seg
  have hend : Quiet (c.handleSegment seg) (c.onInbound seg) :=
    (Quiet.manageRTO _).trans (.drainForFIN _)
  have hcases : Quiet c (c.handleSegment seg) ∨ c.ctl.state = .synRcvd ∧
      Quiet (((c.updateTSRecent seg).establish seg).resetKeepalive.synPayload seg)
        (c.handleSegment seg) := by
    rw [handleSegment]
    split_ifs
    · exact .inl (.refl c)
    · exact .inl (.handleRSTSegment c seg)
    · exact .inl (.sendACK c)
    · rw [dispatch, t.ctl]
      rcases hst with hst | hst <;> rw [hst] <;> dsimp only
      · rcases handleSynRcvd_quiet (c := c.updateTSRecent seg) (by rw [t.ctl]; exact hs) seg with q | q
        · exact .inl ((Quiet.of_txOnly t).trans q)
        · exact .inr ⟨rfl, q⟩
      · exact .inl (.of_txOnly t)
  exact hcases.imp (fun q => q.trans hend) (And.imp_right fun q => q.trans hend)

end TCPConn
end Netstack.Tcp
