import Netstack.Tcp.Steps
import Netstack.Tcp.Transmit

/-! The cases of the select loop, read on the send side.

    All of them transmit, in the sense of `Transmits`, but for three things: a segment that completes
    the handshake, and the FIN and its deferral. `Sends` adds these and what `Write` copies, so that
    every step of the system is a `Sends`. -/

namespace Netstack.Tcp
open Netstack.Header Netstack.Loop

namespace TCPConn

variable {c : TCPConn}

/-- The connection that `handleSynRcvd` hands over. -/
def opened (c : TCPConn) (seg : Segment) : TCPConn :=
  (((c.updateTSRecent seg).establish seg).resetKeepalive.synPayload seg).handOver

/-- The sender a handshake creates has sent nothing yet. -/
theorem handshakeSender_eq (c : TCPConn) (seg : Segment) : ∃ m, c.handshakeSender seg
    = { newSender c.env.iss seg.wnd c.env.sndWndScale c.env.handler.mtu c.env.peerMSS c.env.cfg with
        mss := m } := by
  rw [handshakeSender]
  split
  · exact ⟨_, rfl⟩
  · exact ⟨_, rfl⟩

theorem RxOnly.synPayload (c : TCPConn) (seg : Segment) : RxOnly c (c.synPayload seg) := by
  rw [TCPConn.synPayload]
  split
  · exact .refl _
  · exact (RxOnly.handleData ..).trans (.sendACK _)

theorem opened_rxOnly (c : TCPConn) (seg : Segment) : RxOnly ((c.updateTSRecent seg).establish seg)
    (((c.updateTSRecent seg).establish seg).resetKeepalive.synPayload seg) :=
  (RxOnly.resetKeepalive _).trans (.synPayload _ seg)

theorem opened_finPending (c : TCPConn) (seg : Segment) :
    (c.opened seg).ctl.finPending = c.ctl.finPending :=
  (opened_rxOnly c seg).finPending.trans (RxOnly.updateTSRecent c seg).finPending

theorem handleSynRcvd_cases (c : TCPConn) (seg : Segment) : RxOnly c (c.handleSynRcvd seg) ∨
    c.handleSynRcvd seg = ((c.establish seg).resetKeepalive.synPayload seg).handOver := by
  rw [handleSynRcvd]
  split_ifs
  · exact .inl (.sendACK c)
  · exact .inl ((RxOnly.sendRSTSegment c _).trans (.handleRST _))
  · exact .inr rfl
  · exact .inl (.sendSYNACK c)
  · exact .inl (.refl c)

/-- A segment only transmits, unless it completes the handshake. -/
theorem handleSegment_cases (c : TCPConn) (seg : Segment) :
    Transmits c (c.handleSegment seg) ∨
      c.ctl.state = .synRcvd ∧ c.handleSegment seg = c.opened seg := by
  by_cases hs : c.ctl.state = .synRcvd
  · rw [handleSegment]
    split_ifs
    · exact .inl .refl
    · exact .inl (.of_rxOnly (.handleRSTSegment c seg))
    · exact .inl (.of_rxOnly (.sendACK c))
    · rw [dispatch, (TxOnly.updateTSRecent c seg).ctl, hs]
      rcases handleSynRcvd_cases (c.updateTSRecent seg) seg with h | h
      · exact .inl (.of_rxOnly ((RxOnly.updateTSRecent c seg).trans h))
      · exact .inr ⟨rfl, h⟩
  · rcases Handled.handleSegment c seg hs with h | h
    · exact .inl (.of_rxOnly h.rxOnly)
    · exact .inl ((Transmits.of_rxOnly (.updateTSRecent c seg)).trans (.handled h))

namespace Resends

theorem onRTO (c : TCPConn) : Resends c c.onRTO := by
  have hstop : Resends c c.stopRTO := of_silent rfl
  rw [TCPConn.onRTO]
  split
  · refine (hstop.trans (handleRTO _)).trans ?_
    rw [rearmRTO]
    split
    · exact armRTO _
    · exact refl _
  · exact hstop

theorem onDelayedACK (c : TCPConn) : Resends c c.onDelayedACK := of_rxOnly (.ackNow c)

theorem onKeepalive (c : TCPConn) : Resends c c.onKeepalive := by
  have hfired : ∀ n, Resends c (c.keepaliveFired n) := fun _ => of_silent rfl
  rw [TCPConn.onKeepalive]
  split_ifs
  · exact of_silent rfl
  · exact ((hfired (c.timers.keepaliveProbes + 1)).trans (of_rxOnly (.sendRSTSegment _ _))).trans
      (exitRun _)
  · exact ((hfired (c.timers.keepaliveProbes + 1)).trans (of_rxOnly (.sendKeepaliveProbe _))).trans
      (of_silent rfl)
  · exact hfired _

theorem onWindowNotify (c : TCPConn) : Resends c c.onWindowNotify := by
  have htoken : Resends c { c with app.windowNotify := false, wire.lastWndZero := false } :=
    of_silent rfl
  rw [TCPConn.onWindowNotify]
  split
  · exact (htoken.trans (of_rxOnly (.sendACK _))).trans (of_silent rfl)
  · exact of_silent rfl

theorem onForceClose (c : TCPConn) : Resends c c.onForceClose := by
  rw [TCPConn.onForceClose]
  split
  · exact ((of_rxOnly (.sendRSTSegment c _)).trans (forceCloseBufs _)).trans (exitRun _)
  · exact (forceCloseBufs c).trans (exitRun _)

theorem onSynRcvdTimer (c : TCPConn) : Resends c c.onSynRcvdTimer := by
  rw [TCPConn.onSynRcvdTimer]
  dsimp only
  split
  · exact (exitRun _).after rfl
  · exact of_silent rfl

theorem onFinWait2Timer (c : TCPConn) : Resends c c.onFinWait2Timer := by
  rw [TCPConn.onFinWait2Timer]
  dsimp only
  split
  · exact (exitRun _).after rfl
  · exact of_silent rfl

end Resends

namespace Transmits

theorem sendZeroWindowProbe (c : TCPConn) : Transmits c c.sendZeroWindowProbe := by
  have hnew : Transmits c (c.sendNew 1).1 := refl.new fun _ => ⟨Nat.one_pos, by norm_num⟩
  rw [TCPConn.sendZeroWindowProbe]
  split
  · exact refl
  · dsimp only
    split
    · exact hnew
    · exact hnew.resends (.cancelZeroWindowProbe _)

theorem onZeroWindow (c : TCPConn) : Transmits c c.onZeroWindow := by
  have hstop : Transmits c c.stopZeroWindow := of_silent rfl
  rw [TCPConn.onZeroWindow]
  split
  · exact (hstop.trans (sendZeroWindowProbe _)).trans (of_silent rfl)
  · exact hstop

theorem onWriteNotifySend (c : TCPConn) : Transmits c c.onWriteNotifySend := by
  have hsend : Transmits c { c with app.writeNotify := false }.sendPending :=
    (sendPending { c with app.writeNotify := false }).after rfl
  exact (((hsend.trans (of_rxOnly (.resetKeepalive _))).resends (.checkZeroWindow _)).trans
    (of_rxOnly (.piggyback _))).resends (.armRTO _)

end Transmits

/-! ### Steps that only add to the queue -/

/-- The queue of `c'` is that of `c`, but for its marks, with entries added. -/
def Grows (c c' : TCPConn) : Prop :=
  c.tx.snd.unacked.map UnackedSegment.sent <+: c'.tx.snd.unacked.map UnackedSegment.sent

namespace Grows

variable {c' c'' : TCPConn}

theorem of_queue (h : c'.tx.snd.unacked = c.tx.snd.unacked) : Grows c c' := by
  rw [Grows, h]

theorem of_resends (h : Resends c c') : Grows c c' := by
  rw [Grows, h.queue]

theorem of_append {l : List UnackedSegment} (h : c'.tx.snd.unacked = c.tx.snd.unacked ++ l) :
    Grows c c' := by
  rw [Grows, h, List.map_append]
  exact List.prefix_append ..

theorem trans (h : Grows c c') (h' : Grows c' c'') : Grows c c'' := List.IsPrefix.trans h h'

theorem sendNew (c : TCPConn) (k : ℕ) : Grows c (c.sendNew k).1 := by
  rw [TCPConn.sendNew]
  split
  · exact of_queue rfl
  · exact of_append rfl

theorem sendSegment (c : TCPConn) (k : ℤ) : Grows c (c.sendSegment k).1 := by
  rw [TCPConn.sendSegment]
  split
  · exact of_queue rfl
  · exact sendNew c _

theorem sendGSO (c : TCPConn) (k : ℤ) : Grows c (c.sendGSO k).1 := by
  rw [TCPConn.sendGSO]
  split_ifs
  · exact of_queue rfl
  · exact of_queue rfl
  · exact of_append rfl

theorem sendPendingStep (c : TCPConn) : Grows c c.sendPendingStep.1 := by
  rw [TCPConn.sendPendingStep]
  split_ifs
  iterate 4 exact of_queue rfl
  rw [sendBatch.eq_def]
  dsimp only
  split
  · split
    · exact sendGSO c _
    · exact sendSegment c _
  · exact sendSegment c _

theorem sendPending (c : TCPConn) : Grows c c.sendPending := by
  refine loop_rel Grows trans sendPendingStep ?_ _ c
  intro c
  exact of_queue rfl

theorem limitedTransmit (c : TCPConn) : Grows c c.limitedTransmit := by
  rw [TCPConn.limitedTransmit]
  dsimp only
  split_ifs
  iterate 3 exact of_queue rfl
  exact sendSegment c _

theorem handleDupACK (c : TCPConn) : Grows c c.handleDupACK := by
  rw [TCPConn.handleDupACK]
  split_ifs
  · have hdup : Grows c c.countDup.inflate := of_queue rfl
    exact hdup.trans (sendPending _)
  · have hdup : Grows c c.countDup := of_queue rfl
    exact hdup.trans (limitedTransmit _)
  · have hdup : Grows c c.countDup.enterRecovery := of_queue rfl
    exact hdup.trans (of_resends (.retransmitFirstUnSACKed _))
  · exact of_queue rfl

theorem flush (c : TCPConn) : Grows c c.flush := by
  rw [TCPConn.flush]
  split
  · exact sendPending c
  · exact of_queue rfl

theorem finalizeFIN (c : TCPConn) : Grows c c.finalizeFIN := by
  rw [TCPConn.finalizeFIN.eq_def]
  split
  · exact of_append rfl
  · exact of_append rfl
  · exact of_queue rfl

theorem finIfDrained (c : TCPConn) : Grows c c.finIfDrained := by
  rw [TCPConn.finIfDrained]
  split
  · exact finalizeFIN c
  · exact of_queue rfl

theorem onZeroWindow (c : TCPConn) : Grows c c.onZeroWindow := by
  have hstop : Grows c c.stopZeroWindow := of_queue rfl
  rw [TCPConn.onZeroWindow]
  split
  · have hprobe : Grows c.stopZeroWindow c.stopZeroWindow.sendZeroWindowProbe := by
      rw [sendZeroWindowProbe]
      split
      · exact of_queue rfl
      · dsimp only
        split
        · exact sendNew _ 1
        · exact (sendNew _ 1).trans (of_resends (.cancelZeroWindowProbe _))
    exact (hstop.trans hprobe).trans (of_queue rfl)
  · exact hstop

theorem onWriteNotifySend (c : TCPConn) : Grows c c.onWriteNotifySend := by
  have htoken : Grows c { c with app.writeNotify := false } := of_queue rfl
  have hkeep : Grows { c with app.writeNotify := false }.sendPending
      { c with app.writeNotify := false }.sendPending.resetKeepalive := of_queue rfl
  exact ((((htoken.trans (sendPending _)).trans hkeep).trans (of_resends (.checkZeroWindow _))).trans
    (of_resends (.of_rxOnly (.piggyback _)))).trans (of_resends (.armRTO _))

theorem onWriteNotify (c : TCPConn) : Grows c c.onWriteNotify := by
  rw [TCPConn.onWriteNotify]
  split_ifs
  · exact (onWriteNotifySend c).trans (finIfDrained _)
  · exact onWriteNotifySend c
  · exact of_queue rfl

theorem onClose (c : TCPConn) : Grows c c.onClose := by
  have htoken : Grows c { c with app.closeCh := false } := of_queue rfl
  have hclose : Grows c { c with app.closeCh := false }.handleClose := by
    have hfin : Grows c { c with app.closeCh := false }.flush.finOrDefer := by
      refine (htoken.trans (flush _)).trans ?_
      rw [finOrDefer]
      split
      · exact of_queue rfl
      · exact finalizeFIN _
    rw [handleClose.eq_def]
    split
    iterate 2 exact hfin
    exact htoken
  rw [TCPConn.onClose]
  dsimp only
  split
  · exact hclose.trans (of_resends (.armRTO _))
  · exact hclose

end Grows

theorem hasUnacked_grows {c' : TCPConn} (h : c.hasUnacked = true) (hg : Grows c c') :
    c'.hasUnacked = true := by
  rw [hasUnacked, Bool.not_eq_true', List.isEmpty_eq_false_iff] at h ⊢
  intro hnil
  rw [Grows, hnil, List.map_nil, List.prefix_nil, List.map_eq_nil_iff] at hg
  exact h hg

theorem hasUnacked_resends {c' : TCPConn} (hr : Resends c c') : c'.hasUnacked = c.hasUnacked := by
  have hq := congrArg List.isEmpty hr.queue
  rw [List.isEmpty_map, List.isEmpty_map] at hq
  rw [hasUnacked, hasUnacked, hq]

/-- A probe takes a byte out of `writeBuf`, or ends the probing. -/
theorem sendZeroWindowProbe_cases (hs : c.ctl.synced = true) :
    c.tx.writeBuf.len = 0 ∧ c.sendZeroWindowProbe = c.cancelZeroWindowProbe ∨
    c.tx.writeBuf.len ≠ 0 ∧ c.sendZeroWindowProbe = (c.sendNew 1).1 ∧
      c.sendZeroWindowProbe.hasUnacked = true := by
  rw [sendZeroWindowProbe, if_neg (by simp [hs])]
  dsimp only
  by_cases hlen : c.tx.writeBuf.len = 0
  · have hempty : c.sendNew 1 = (c, false) := by
      rw [sendNew, if_pos (by
        rw [RingBuffer.readNoBlock_snd, (RingBuffer.contents_eq_nil_iff _).2 hlen, List.take_nil]),
        takeBytes, RingBuffer.readNoBlock, if_pos hlen]
    rw [hempty]
    exact .inl ⟨hlen, rfl⟩
  · have hb := batch_sendNew (c := c) Nat.one_pos (by norm_num) (Nat.pos_of_ne_zero hlen)
    rw [if_pos hb.again]
    exact .inr ⟨hlen, rfl, hb.queued⟩

/-- `sendPending` is held at once and does nothing, or leaves something in the queue. -/
theorem sendPending_cases (hm : c.Sizes) :
    c.sendPending = c ∧ c.Held ∨ c.sendPending.hasUnacked = true := by
  rcases sendPendingStep_cases hm with ⟨he, hheld⟩ | hb
  · left
    refine ⟨?_, hheld⟩
    rw [sendPending, loop, he]
    rfl
  · right
    rw [sendPending, loop, if_pos hb.again]
    refine hasUnacked_grows hb.queued (loop_rel Grows Grows.trans Grows.sendPendingStep ?_ _ _)
    intro c
    exact .of_queue rfl

/-! ### Every step -/

/-- What there is to keep while only settings and tokens change. -/
def sendCore (c : TCPConn) :
    Env × TCPState × Bool × Sender × List UInt8 × ℕ × ℕ × List UInt8 × List OutSegment ×
      Option Fault :=
  (c.env, c.ctl.state, c.ctl.synced, c.tx.snd, c.tx.writeBuf.contents, c.tx.writeBuf.notFull,
    c.tx.writeBuf.free, c.tx.accepted, c.wire.out, c.fault)

/-- `c'` came from `c` by elementary actions, the handshake, `Write` and the FIN included. -/
inductive Sends (c : TCPConn) : TCPConn → Prop
  | refl : Sends c c
  | transmits {c' c'' : TCPConn} : Sends c c' → Transmits c' c'' → Sends c c''
  | silent {c' c'' : TCPConn} : Sends c c' → c''.sendCore = c'.sendCore → Sends c c''
  | opened {c' : TCPConn} {seg : Segment} : Sends c c' → c'.ctl.state = .synRcvd →
      Sends c (c'.opened seg)
  | fin {c' : TCPConn} {st : TCPState} : Sends c c' →
      (c'.ctl.state = .established ∧ st = .finWait1 ∨ c'.ctl.state = .closeWait ∧ st = .lastAck) →
      Sends c (c'.clearPending.sendFIN.setState st)
  | copy {c' : TCPConn} {b : List UInt8} : Sends c c' → b ≠ [] → Sends c (c'.copyChunk b)

namespace Sends

variable {c' : TCPConn}

theorem finalizeFIN (h : Sends c c') : Sends c c'.finalizeFIN := by
  rw [TCPConn.finalizeFIN.eq_def]
  split
  · rename_i hs
    exact h.fin (.inl ⟨hs, rfl⟩)
  · rename_i hs
    exact h.fin (.inr ⟨hs, rfl⟩)
  · exact h.silent rfl

theorem finIfDrained (h : Sends c c') : Sends c c'.finIfDrained := by
  rw [TCPConn.finIfDrained]
  split
  · exact h.finalizeFIN
  · exact h

theorem onInbound (c : TCPConn) (seg : Segment) : Sends c (c.onInbound seg) := by
  have hseg : Sends c (c.handleSegment seg) := by
    rcases handleSegment_cases c seg with ht | ⟨hs, he⟩
    · exact refl.transmits ht
    · rw [he]
      exact refl.opened hs
  have hrto := hseg.transmits (.of_resends (.manageRTO _))
  rw [TCPConn.onInbound, drainForFIN]
  split
  · exact (hrto.transmits (.sendPending _)).finIfDrained
  · exact hrto

theorem onWriteNotify (c : TCPConn) : Sends c c.onWriteNotify := by
  have hsend : Sends c c.onWriteNotifySend := refl.transmits (.onWriteNotifySend c)
  rw [TCPConn.onWriteNotify]
  split_ifs
  · exact hsend.finIfDrained
  · exact hsend
  · exact refl.silent rfl

theorem onClose (c : TCPConn) : Sends c c.onClose := by
  have htoken : Sends c { c with app.closeCh := false } := refl.silent rfl
  have hclose : Sends c { c with app.closeCh := false }.handleClose := by
    have hfin : Sends c { c with app.closeCh := false }.flush.finOrDefer := by
      have hflush := htoken.transmits (.flush _)
      rw [finOrDefer]
      split
      · exact hflush.silent rfl
      · exact hflush.finalizeFIN
    rw [handleClose.eq_def]
    split
    iterate 2 exact hfin
    exact htoken
  rw [TCPConn.onClose]
  dsimp only
  split
  · exact hclose.transmits (.of_resends (.armRTO _))
  · exact hclose

theorem closeWrite (c : TCPConn) : Sends c c.closeWrite := by
  rw [TCPConn.closeWrite]
  split
  · exact refl
  · exact refl.silent rfl

end Sends
end TCPConn

section
variable {s s' : Sys} {e : Event}

/-- Events in which at most what is in the queue is sent, again. -/
def Sys.resending : Event → Bool
  | .inbound _ | .zeroWindowTimer | .writeNotify | .closeCh | .writeCopy _ | .closeWrite => false
  | _ => true

theorem Sys.Step.resends (h : Sys.Step s e s') (he : Sys.resending e = true) :
    TCPConn.Resends s.conn s'.conn := by
  cases h
  case inbound | zeroWindowTimer | writeNotify | closeCh | closeWrite => cases he
  case writeCopy | writeCopied | writeBlocked => cases he
  case rtoTimer => exact .onRTO _
  case delayedACKTimer => exact .onDelayedACK _
  case keepaliveTimer => exact .onKeepalive _
  case windowNotify => exact .onWindowNotify _
  case forceCloseCh => exact .onForceClose _
  case synRcvdTimer => exact .onSynRcvdTimer _
  case finWait2Timer => exact .onFinWait2Timer _
  case timeWaitTimer | done => exact .exitRun _
  case writeCall => exact .growWriteBuf _
  case closeRead =>
    rw [TCPConn.closeRead]
    split
    · exact .refl _
    · exact .of_silent rfl
  all_goals exact .of_silent rfl

/-- Events in which the sender is not at work. -/
def Sys.resting : Event → Bool
  | .inbound _ | .rtoTimer | .zeroWindowTimer | .writeNotify | .closeCh => false
  | _ => true

theorem Sys.Step.rests (h : Sys.Step s e s') (he : Sys.resting e = true) :
    s'.conn.tx.snd = s.conn.tx.snd ∧ s'.conn.tx.zeroWindowProbing = s.conn.tx.zeroWindowProbing := by
  have hexit : ∀ c : TCPConn, c.exitRun.tx.snd = c.tx.snd ∧
      c.exitRun.tx.zeroWindowProbing = c.tx.zeroWindowProbing := by
    intro c
    have hsnd : c.closeDone.tx.snd = c.tx.snd := congrArg Tx.snd (TCPConn.RxOnly.closeDone c).tx
    have hprobing := congrArg Tx.zeroWindowProbing (TCPConn.RxOnly.closeDone c).tx
    exact ⟨hsnd, hprobing⟩
  cases h
  case inbound | rtoTimer | zeroWindowTimer | writeNotify | closeCh => cases he
  case keepaliveTimer =>
    rw [TCPConn.onKeepalive]
    split_ifs
    · exact ⟨rfl, rfl⟩
    · exact hexit _
    · exact ⟨rfl, rfl⟩
    · exact ⟨rfl, rfl⟩
  case windowNotify =>
    rw [TCPConn.onWindowNotify]
    split <;> exact ⟨rfl, rfl⟩
  case forceCloseCh =>
    rw [TCPConn.onForceClose]
    split <;> exact hexit _
  case synRcvdTimer =>
    rw [TCPConn.onSynRcvdTimer]
    split
    · exact hexit _
    · exact ⟨rfl, rfl⟩
  case finWait2Timer =>
    rw [TCPConn.onFinWait2Timer]
    split
    · exact hexit _
    · exact ⟨rfl, rfl⟩
  case timeWaitTimer | done => exact hexit _
  case writeCall =>
    rw [TCPConn.growWriteBuf]
    split <;> exact ⟨rfl, rfl⟩
  case closeWrite =>
    rw [TCPConn.closeWrite]
    split <;> exact ⟨rfl, rfl⟩
  case closeRead =>
    rw [TCPConn.closeRead]
    split <;> exact ⟨rfl, rfl⟩
  all_goals exact ⟨rfl, rfl⟩

theorem Sys.Step.sends (h : Sys.Step s e s') : TCPConn.Sends s.conn s'.conn := by
  by_cases he : Sys.resending e = true
  · exact .transmits .refl (.of_resends (h.resends he))
  cases h
  case inbound seg _ => exact .onInbound _ seg
  case zeroWindowTimer => exact .transmits .refl (.onZeroWindow _)
  case writeNotify => exact .onWriteNotify _
  case closeCh => exact .onClose _
  case writeCopy =>
    rename_i rest written hho hpc hmore hopen hroom
    exact .copy .refl hmore
  case writeCopied | writeBlocked => exact .refl
  case closeWrite => exact .closeWrite _
  all_goals exact absurd rfl he

end

end Netstack.Tcp
