import Netstack.Tcp.SendSteps

/-! What the handlers of inbound segments do to the state machine.

    The state is assigned in many places, but a segment leads to few outcomes. `handleData_cases`
    says what the receiver does with a payload, `handleSegment_ctl` lists what a segment can leave in
    `ctl`, each outcome with the state it starts from. -/

namespace Netstack.Tcp
open Netstack.Header Netstack.Trace

/-- An assignment to `c.state`. -/
def Ctl.set (k : Ctl) (s : TCPState) : Ctl :=
  { k with state := s, assigns := k.assigns ++ [(k.state, s)] }

/-- `closeDone`, on the state machine. -/
def Ctl.finish (k : Ctl) : Ctl := if k.done then k else { k.set .closed with done := true }

def Ctl.unpend (k : Ctl) : Ctl := { k with finPending := false }

/-- `finalizeFIN`, on the state machine. -/
def Ctl.finalize (k : Ctl) : Ctl :=
  match k.state with
  | .established => k.unpend.set .finWait1
  | .closeWait => k.unpend.set .lastAck
  | _ => k.unpend

namespace TCPConn

theorem closeDone_ctl (c : TCPConn) : c.closeDone.ctl = c.ctl.finish := by
  rw [closeDone, Ctl.finish]
  split <;> rfl

/-! ### The receiver -/

/-- `c'` is `c` after the receiver has taken or filed bytes: only `readBuf`, the position and the
    out-of-order list, with what is measured about them, have changed. -/
structure Fed (c c' : TCPConn) : Prop where
  env : c'.env = c.env
  app : c'.app = c.app
  ctl : c'.ctl = c.ctl
  timers : c'.timers = c.timers
  tx : c'.tx = c.tx
  wire : c'.wire = c.wire
  fault : c'.fault = c.fault
  finReceived : c'.rx.rcv.finReceived = c.rx.rcv.finReceived
  finSeq : c'.rx.rcv.finSeq = c.rx.rcv.finSeq

namespace Fed

variable {c c' c'' : TCPConn}

theorem refl (c : TCPConn) : Fed c c := ⟨rfl, rfl, rfl, rfl, rfl, rfl, rfl, rfl, rfl⟩

theorem trans (h : Fed c c') (h' : Fed c' c'') : Fed c c'' :=
  ⟨h'.env.trans h.env, h'.app.trans h.app, h'.ctl.trans h.ctl, h'.timers.trans h.timers,
    h'.tx.trans h.tx, h'.wire.trans h.wire, h'.fault.trans h.fault,
    h'.finReceived.trans h.finReceived, h'.finSeq.trans h.finSeq⟩

theorem deliver (c : TCPConn) (data : List UInt8) : Fed c (c.deliver data) := by
  rw [TCPConn.deliver]
  split
  · rw [autoTuneAccumulate]
    split_ifs <;> exact ⟨rfl, rfl, rfl, rfl, rfl, rfl, rfl, rfl, rfl⟩
  · exact ⟨rfl, rfl, rfl, rfl, rfl, rfl, rfl, rfl, rfl⟩

theorem drainOOO : ∀ (l : List OOOSegment) (c : TCPConn), Fed c (drainOOO l c)
  | [], c => ⟨rfl, rfl, rfl, rfl, rfl, rfl, rfl, rfl, rfl⟩
  | seg :: rest, c => by
      rw [TCPConn.drainOOO]
      dsimp only
      split_ifs
      · exact ⟨rfl, rfl, rfl, rfl, rfl, rfl, rfl, rfl, rfl⟩
      · exact drainOOO rest c
      · exact (deliver c _).trans ⟨rfl, rfl, rfl, rfl, rfl, rfl, rfl, rfl, rfl⟩
      · exact (deliver c _).trans (drainOOO rest _)

end Fed

/-- What became of a payload: it was taken, filed or dropped, and with it the data may have caught
    up with a deferred FIN. -/
def Took (c c' : TCPConn) : Prop := ∃ c₁, Fed c c₁ ∧
  (c' = c₁ ∨ c.rx.rcv.finReceived = true ∧ c₁.rx.rcv.nxt = c.rx.rcv.finSeq ∧
    c' = c₁.clearFIN.processFIN)

theorem Took.refl (c : TCPConn) : Took c c := ⟨c, .refl c, .inl rfl⟩

theorem Took.of_rcv (c : TCPConn) {r : Receiver} (hfin : r.finReceived = c.rx.rcv.finReceived)
    (hseq : r.finSeq = c.rx.rcv.finSeq) : Took c { c with rx.rcv := r } :=
  ⟨{ c with rx.rcv := r }, ⟨rfl, rfl, rfl, rfl, rfl, rfl, rfl, hfin, hseq⟩, .inl rfl⟩

theorem took_deliverOOO (c : TCPConn) : Took c c.deliverOOO := by
  have hfed := Fed.drainOOO c.rx.rcv.ooo c
  refine ⟨_, hfed, ?_⟩
  rw [deliverOOO, deferredFIN, hfed.finReceived, hfed.finSeq]
  split
  · rename_i h
    exact .inr ⟨h.1, h.2, rfl⟩
  · exact .inl rfl

theorem took_acceptData (c : TCPConn) (seq : UInt32) (data : List UInt8) :
    Took c (c.acceptData seq data) := by
  have hfed := Fed.deliver c data
  rw [acceptData]
  split_ifs
  · exact .of_rcv c rfl rfl
  · obtain ⟨c₁, hfed', hcases⟩ := took_deliverOOO (c.deliver data)
    rw [hfed.finReceived, hfed.finSeq] at hcases
    exact ⟨c₁, hfed.trans hfed', hcases⟩
  · exact ⟨_, hfed, .inl rfl⟩
  · rw [Receiver.insertOOO]
    split <;> exact .of_rcv c rfl rfl
  · exact .refl c

theorem took_windowData (c : TCPConn) (seq : UInt32) (data : List UInt8) :
    Took c (c.windowData seq data) := by
  rw [windowData]
  split
  · exact .refl c
  · split
    · exact .refl c
    · exact took_acceptData c seq _

theorem took_handleData (c : TCPConn) (seq : UInt32) (data : List UInt8) :
    Took c (c.handleData seq data) := by
  rw [handleData]
  dsimp only
  split_ifs
  · exact .refl c
  · exact .of_rcv c rfl rfl
  · exact took_windowData ..
  · exact took_windowData ..

theorem handleData_nil (c : TCPConn) (seq : UInt32) : c.handleData seq [] = c := rfl

theorem took_takePayload (c : TCPConn) (seg : Segment) : Took c (c.takePayload seg) := by
  rw [takePayload]
  split
  · exact took_handleData c _ _
  · exact .refl c

/-! ### The handlers -/

/-- The state machine after the payload of `seg`: as before, or in CLOSE_WAIT because the data caught
    up with a deferred FIN. -/
def Caught (c : TCPConn) (seg : Segment) (k : Ctl) : Prop :=
  k = c.ctl ∨ seg.payload ≠ [] ∧ c.rx.rcv.finReceived = true ∧ k = c.ctl.set .closeWait

theorem processFIN_nxt (c : TCPConn) : c.processFIN.rx.rcv.nxt = c.rx.rcv.nxt + 1 := by
  show (if _ then _ else _ : Receiver).nxt = _
  split <;> rfl

theorem processFIN_ctl (c : TCPConn) : c.processFIN.ctl = c.ctl.set .closeWait := rfl

theorem takePayload_ctl (c : TCPConn) (seg : Segment) :
    (c.takePayload seg).ctl = c.ctl ∨ seg.payload ≠ [] ∧ c.rx.rcv.finReceived = true ∧
      (c.takePayload seg).rx.rcv.nxt = c.rx.rcv.finSeq + 1 ∧
      (c.takePayload seg).ctl = c.ctl.set .closeWait := by
  by_cases hnil : seg.payload = []
  · left
    rw [takePayload, hnil, handleData_nil, ite_self]
  · obtain ⟨c₁, hfed, he | ⟨hfin, hnxt, he⟩⟩ := took_takePayload c seg
    · exact .inl (by rw [he]; exact hfed.ctl)
    · refine .inr ⟨hnil, hfin, ?_, ?_⟩
      · rw [he, processFIN_nxt, ← hnxt]
        rfl
      · rw [he, processFIN_ctl, ← hfed.ctl]
        rfl

theorem caught_takePayload (c : TCPConn) (seg : Segment) : Caught c seg (c.takePayload seg).ctl := by
  rcases takePayload_ctl c seg with h | ⟨hp, hf, -, h⟩
  · exact .inl h
  · exact .inr ⟨hp, hf, h⟩

theorem Caught.txOnly {c c' : TCPConn} {seg : Segment} {k : Ctl} (t : TxOnly c c')
    (h : Caught c' seg k) : Caught c seg k := by
  rw [Caught, t.ctl, t.rx] at h
  exact h

theorem scheduleACK_ctl (c : TCPConn) (seg : Segment) : (c.scheduleACK seg).ctl = c.ctl := by
  rw [scheduleACK]
  split_ifs <;> rfl

/-- `seg` is a reset that the connection takes. -/
def Resets (c : TCPConn) (seg : Segment) : Prop :=
  c.ctl.state = .synRcvd ∨ seg.flags.has tcpFlagRST = true ∧ seg.seq = c.ackNum

/-- What a segment leaves in `ctl`. -/
inductive CtlStep (c : TCPConn) (seg : Segment) : Ctl → Prop
  | same : CtlStep c seg c.ctl
  | reset (hr : c.Resets seg) : CtlStep c seg (c.ctl.set .closed).finish
  | opened (hs : c.ctl.state = .synRcvd) :
      CtlStep c seg { c.ctl.set .established with synced := true, handedOver := true }
  | fin (hs : c.ctl.state = .established) : CtlStep c seg (c.ctl.set .closeWait)
  | finTwice (hs : c.ctl.state = .established) (hr : c.rx.rcv.finReceived = true)
      (hf : seg.flags.has tcpFlagFIN = true) (hseq : seg.finSeq = c.rx.rcv.finSeq + 1) :
      CtlStep c seg ((c.ctl.set .closeWait).set .closeWait)
  | caught (hs : c.ctl.state = .finWait1 ∨ c.ctl.state = .finWait2) (hp : seg.payload ≠ [])
      (hr : c.rx.rcv.finReceived = true) : CtlStep c seg (c.ctl.set .closeWait)
  | finWait1 {k : Ctl} {s : TCPState} (hs : c.ctl.state = .finWait1) (hk : Caught c seg k)
      (hto : s = .timeWait ∨ s = .closing ∨ s = .finWait2) : CtlStep c seg (k.set s)
  | finWait2 {k : Ctl} (hs : c.ctl.state = .finWait2) (hk : Caught c seg k) :
      CtlStep c seg (k.set .timeWait)
  | closing (hs : c.ctl.state = .closing) : CtlStep c seg (c.ctl.set .timeWait)
  | lastAck (hs : c.ctl.state = .lastAck) : CtlStep c seg c.ctl.finish

theorem handleEstablished_ctl (c : TCPConn) (seg : Segment) (hs : c.ctl.state = .established) :
    CtlStep c seg (c.handleEstablished seg).ctl := by
  have t : TxOnly c (c.resetKeepalive.establishedACK seg) :=
    (TxOnly.resetKeepalive c).trans (.establishedACK _ seg)
  rw [handleEstablished, establishedFIN]
  split
  · rename_i hf
    split
    · rename_i hnxt
      rcases takePayload_ctl (c.resetKeepalive.establishedACK seg) seg with h | ⟨-, hr, hn, h⟩
      · rw [processFIN_ctl, h, t.ctl]
        exact .fin hs
      · rw [t.rx] at hr hn
        rw [processFIN_ctl, h, t.ctl]
        exact .finTwice hs hr hf.1 (hnxt.symm.trans hn)
    · rw [scheduleACK_ctl]
      show CtlStep c seg (takePayload _ seg).ctl
      rcases takePayload_ctl (c.resetKeepalive.establishedACK seg) seg with h | ⟨-, -, -, h⟩
      · rw [h, t.ctl]; exact .same
      · rw [h, t.ctl]; exact .fin hs
  · rw [scheduleACK_ctl]
    rcases takePayload_ctl (c.resetKeepalive.establishedACK seg) seg with h | ⟨-, -, -, h⟩
    · rw [h, t.ctl]; exact .same
    · rw [h, t.ctl]; exact .fin hs

theorem CtlStep.of_caught {c : TCPConn} {seg : Segment} {k : Ctl}
    (hs : c.ctl.state = .finWait1 ∨ c.ctl.state = .finWait2) (h : Caught c seg k) :
    CtlStep c seg k := by
  rcases h with rfl | ⟨hp, hr, rfl⟩
  · exact .same
  · exact .caught hs hp hr

theorem handleFinWait1_ctl (c : TCPConn) (seg : Segment) (hs : c.ctl.state = .finWait1) :
    CtlStep c seg (c.handleFinWait1 seg).ctl := by
  have hk : Caught c seg ((c.finWait1ACK seg).takePayload seg).ctl :=
    (caught_takePayload _ seg).txOnly (.finWait1ACK c seg)
  rw [handleFinWait1]
  split
  · rw [finWait1FIN]
    split
    · exact .finWait1 hs hk (.inl rfl)
    · exact .finWait1 hs hk (.inr (.inl rfl))
  · have hack : ∀ c : TCPConn, (c.ackPayload seg).ctl = c.ctl := by
      intro c
      rw [ackPayload]
      split <;> rfl
    rw [finWait1End]
    split
    · show CtlStep c seg (Ctl.set (ackPayload _ seg).ctl _)
      rw [hack]
      exact .finWait1 hs hk (.inr (.inr rfl))
    · rw [hack]
      exact .of_caught (.inl hs) hk

theorem handleFinWait2_ctl (c : TCPConn) (seg : Segment) (hs : c.ctl.state = .finWait2) :
    CtlStep c seg (c.handleFinWait2 seg).ctl := by
  have hk : Caught c seg ((c.finWait2ACK seg).finWait2Data seg).ctl := by
    refine Caught.txOnly (.finWait2ACK c seg) ?_
    rw [finWait2Data]
    split
    · exact .inl rfl
    · exact caught_takePayload _ seg
  rw [handleFinWait2]
  split
  · exact .finWait2 hs hk
  · rw [ackPayload]
    split <;> exact .of_caught (.inr hs) hk

theorem handleClosing_ctl (c : TCPConn) (seg : Segment) (hs : c.ctl.state = .closing) :
    CtlStep c seg (c.handleClosing seg).ctl := by
  have hre : ∀ c : TCPConn, (c.reACKFIN seg).ctl = c.ctl := by
    intro c
    rw [reACKFIN]
    split <;> rfl
  rw [handleClosing]
  split_ifs
  · show CtlStep c seg (Ctl.set (c.closingACK seg).ctl _)
    rw [(TxOnly.closingACK c seg).ctl]
    exact .closing hs
  · rw [hre, (TxOnly.closingACK c seg).ctl]
    exact .same
  · rw [hre]
    exact .same

theorem handleLastAck_ctl (c : TCPConn) (seg : Segment) (hs : c.ctl.state = .lastAck) :
    CtlStep c seg (c.handleLastAck seg).ctl := by
  rw [handleLastAck]
  split_ifs
  · rw [closeDone_ctl, (TxOnly.handleACK c _).ctl]
    exact .lastAck hs
  · exact .same
  · exact .same

theorem establish_payload_ctl (c : TCPConn) (seg : Segment) :
    ((c.establish seg).resetKeepalive.synPayload seg).handOver.ctl
      = { c.ctl.set .established with synced := true, handedOver := true } := by
  rw [synPayload]
  split
  · rfl
  · -- a new receiver has no deferred FIN
    obtain ⟨c₁, hfed, he | ⟨hfin, -⟩⟩ :=
      took_handleData (c.establish seg).resetKeepalive seg.seq seg.payload
    · rw [he]
      show { c₁.ctl with handedOver := true } = _
      rw [hfed.ctl]
      rfl
    · cases hfin

theorem handleRST_ctl (c : TCPConn) : c.handleRST.ctl = (c.ctl.set .closed).finish := by
  rw [handleRST, closeDone_ctl]
  rfl

theorem handleSynRcvd_ctl (c : TCPConn) (seg : Segment) (hs : c.ctl.state = .synRcvd) :
    CtlStep c seg (c.handleSynRcvd seg).ctl := by
  rw [handleSynRcvd]
  split_ifs
  · exact .same
  · rw [handleRST_ctl]
    exact .reset (.inl hs)
  · rw [establish_payload_ctl]
    exact .opened hs
  · exact .same
  · exact .same

theorem dispatch_ctl (c : TCPConn) (seg : Segment) : CtlStep c seg (c.dispatch seg).ctl := by
  rw [dispatch]
  cases hs : c.ctl.state with
  | synRcvd => exact handleSynRcvd_ctl c seg hs
  | established => exact handleEstablished_ctl c seg hs
  | finWait1 => exact handleFinWait1_ctl c seg hs
  | finWait2 => exact handleFinWait2_ctl c seg hs
  | closeWait =>
    show CtlStep c seg (c.handleCloseWait seg).ctl
    rw [(TxOnly.handleCloseWait c seg).ctl]
    exact .same
  | closing => exact handleClosing_ctl c seg hs
  | lastAck => exact handleLastAck_ctl c seg hs
  | timeWait =>
    show CtlStep c seg (c.handleTimeWait seg).ctl
    rw [handleTimeWait]
    split <;> exact .same
  | closed => exact .same

theorem CtlStep.txOnly {c c' : TCPConn} {seg : Segment} {k : Ctl} (t : TxOnly c c')
    (h : CtlStep c' seg k) : CtlStep c seg k := by
  have hctl := t.ctl
  cases h with
  | same => rw [hctl]; exact .same
  | reset hr =>
    rw [Resets, ackNum, hctl, t.rx, t.env] at hr
    rw [hctl]
    exact .reset hr
  | opened hs => rw [hctl] at hs ⊢; exact .opened hs
  | fin hs => rw [hctl] at hs ⊢; exact .fin hs
  | finTwice hs hr hf hseq => rw [hctl] at hs ⊢; rw [t.rx] at hr hseq; exact .finTwice hs hr hf hseq
  | caught hs hp hr => rw [hctl] at hs ⊢; rw [t.rx] at hr; exact .caught hs hp hr
  | finWait1 hs hk hto => rw [hctl] at hs; exact .finWait1 hs (hk.txOnly t) hto
  | finWait2 hs hk => rw [hctl] at hs; exact .finWait2 hs (hk.txOnly t)
  | closing hs => rw [hctl] at hs ⊢; exact .closing hs
  | lastAck hs => rw [hctl] at hs ⊢; exact .lastAck hs

/-- The outcomes of a segment. -/
theorem handleSegment_ctl (c : TCPConn) (seg : Segment) : CtlStep c seg (c.handleSegment seg).ctl := by
  rw [handleSegment]
  split_ifs
  · exact .same
  · rename_i hrst
    rw [handleRSTSegment]
    split_ifs with htw hseq
    · exact .same
    · rw [handleRST_ctl]
      exact .reset (.inr ⟨hrst, hseq⟩)
    · exact .same
    · exact .same
  · exact .same
  · exact (dispatch_ctl _ seg).txOnly (.updateTSRecent c seg)

/-! ### After the segment -/

theorem finalizeFIN_ctl (c : TCPConn) : c.finalizeFIN.ctl = c.ctl.finalize := by
  rw [finalizeFIN, Ctl.finalize]
  cases c.ctl.state <;> rfl

theorem manageRTO_ctl (c : TCPConn) : c.manageRTO.ctl = c.ctl := by
  rw [manageRTO, armRTO]
  split_ifs <;> rfl

theorem armRTO_ctl (c : TCPConn) : c.armRTO.ctl = c.ctl := by
  rw [armRTO]
  split <;> rfl

theorem finIfDrained_ctl (c : TCPConn) :
    c.finIfDrained.ctl = c.ctl ∨ c.finIfDrained.ctl = c.ctl.finalize := by
  rw [finIfDrained]
  split
  · exact .inr (finalizeFIN_ctl c)
  · exact .inl rfl

theorem drainForFIN_ctl (c : TCPConn) : c.drainForFIN.ctl = c.ctl ∨
    c.ctl.finPending = true ∧ c.drainForFIN.ctl = c.ctl.finalize := by
  rw [drainForFIN]
  split
  · rename_i hp
    rw [← (TxOnly.sendPending c).ctl]
    rcases finIfDrained_ctl c.sendPending with h | h
    · exact .inl h
    · refine .inr ⟨?_, h⟩
      rw [(TxOnly.sendPending c).ctl]
      exact hp.1
  · exact .inl rfl

/-! ### The other events -/

/-- What an event other than a segment leaves in `ctl`. -/
inductive QuietCtl (c : TCPConn) : Ctl → Prop
  | same : QuietCtl c c.ctl
  | finish : QuietCtl c c.ctl.finish
  | exit : QuietCtl c { c.ctl.finish with running := false }
  | defer (hs : c.ctl.state = .established ∨ c.ctl.state = .closeWait)
      (ht : c.app.closeCh = true) : QuietCtl c { c.ctl with finPending := true }
  | finalize (hp : c.ctl.finPending = true ∨ c.app.closeCh = true) : QuietCtl c c.ctl.finalize

theorem exitRun_ctl (c : TCPConn) : c.exitRun.ctl = { c.ctl.finish with running := false } := by
  rw [← closeDone_ctl]
  rfl

theorem handleRTO_ctl (c : TCPConn) :
    c.handleRTO.ctl = c.ctl ∨ c.handleRTO.ctl = c.ctl.finish := by
  have habort : c.countRetry.abort.ctl = c.ctl.finish := by
    rw [abort, closeDone_ctl]
    split <;> rfl
  rw [handleRTO]
  split_ifs
  · exact .inl rfl
  · exact .inl (TxOnly.backOff c).ctl
  · exact .inr habort
  · exact .inl (TxOnly.backOff _).ctl

theorem onRTO_ctl (c : TCPConn) : QuietCtl c c.onRTO.ctl := by
  have hrto : QuietCtl c c.stopRTO.handleRTO.ctl := by
    rcases handleRTO_ctl c.stopRTO with h | h
    · rw [h]; exact .same
    · rw [h]; exact .finish
  rw [onRTO]
  split
  · rw [rearmRTO]
    split
    · rw [armRTO_ctl]; exact hrto
    · exact hrto
  · exact .same

theorem onZeroWindow_ctl (c : TCPConn) : c.onZeroWindow.ctl = c.ctl := by
  rw [onZeroWindow]
  split
  · exact (TxOnly.sendZeroWindowProbe c.stopZeroWindow).ctl
  · rfl

theorem onKeepalive_ctl (c : TCPConn) : QuietCtl c c.onKeepalive.ctl := by
  rw [onKeepalive]
  split_ifs
  · exact .same
  · rw [exitRun_ctl]; exact .exit
  · exact .same
  · exact .same

theorem onWriteNotifySend_ctl (c : TCPConn) : c.onWriteNotifySend.ctl = c.ctl := by
  have hpiggy : ∀ c : TCPConn, c.piggyback.ctl = c.ctl := by
    intro c
    rw [piggyback]
    split <;> rfl
  rw [onWriteNotifySend, armRTO_ctl, hpiggy, (TxOnly.checkZeroWindow _).ctl]
  exact (TxOnly.sendPending _).ctl

theorem onWriteNotify_ctl (c : TCPConn) : QuietCtl c c.onWriteNotify.ctl := by
  rw [onWriteNotify]
  split_ifs with hs hp
  · rcases finIfDrained_ctl c.onWriteNotifySend with h | h
    · rw [h, onWriteNotifySend_ctl]; exact .same
    · rw [h, onWriteNotifySend_ctl]; exact .finalize (.inl hp)
  · rw [onWriteNotifySend_ctl]; exact .same
  · exact .same

theorem onClose_ctl (c : TCPConn) (ht : c.app.closeCh = true) : QuietCtl c c.onClose.ctl := by
  have hfin : ∀ c₁ : TCPConn, c₁.ctl = c.ctl →
      (c.ctl.state = .established ∨ c.ctl.state = .closeWait) → QuietCtl c c₁.flush.finOrDefer.ctl := by
    intro c₁ he hs
    have hflush : c₁.flush.ctl = c.ctl := (TxOnly.flush c₁).ctl.trans he
    rw [finOrDefer]
    split
    · show QuietCtl c { c₁.flush.ctl with finPending := true }
      rw [hflush]
      exact .defer hs ht
    · rw [finalizeFIN_ctl, hflush]
      exact .finalize (.inr ht)
  have hclose : QuietCtl c { c with app.closeCh := false }.handleClose.ctl := by
    rw [handleClose.eq_def]
    split
    · rename_i hs
      exact hfin { c with app.closeCh := false } rfl (.inl hs)
    · rename_i hs
      exact hfin { c with app.closeCh := false } rfl (.inr hs)
    · exact .same
  rw [onClose]
  dsimp only
  split
  · rw [armRTO_ctl]; exact hclose
  · exact hclose

theorem onForceClose_ctl (c : TCPConn) : QuietCtl c c.onForceClose.ctl := by
  rw [onForceClose]
  split <;> (rw [exitRun_ctl]; exact .exit)

end TCPConn

/-- What a step of the system does to the state machine. -/
theorem Sys.Step.ctl {s s' : Sys} {e : Event} (h : Sys.Step s e s') :
    (∃ seg k, e = .inbound seg ∧ TCPConn.CtlStep s.conn seg k ∧
      (s'.conn.ctl = k ∨ k.finPending = true ∧ s'.conn.ctl = k.finalize)) ∨
    (∀ seg, e ≠ .inbound seg) ∧ TCPConn.QuietCtl s.conn s'.conn.ctl := by
  cases h
  case inbound seg _ =>
    refine .inl ⟨seg, _, rfl, TCPConn.handleSegment_ctl s.conn seg, ?_⟩
    have hdrain := TCPConn.drainForFIN_ctl (s.conn.handleSegment seg).manageRTO
    rw [TCPConn.manageRTO_ctl] at hdrain
    exact hdrain
  all_goals refine .inr ⟨(fun _ he => by cases he), ?_⟩
  case rtoTimer => exact TCPConn.onRTO_ctl _
  case zeroWindowTimer => rw [TCPConn.onZeroWindow_ctl]; exact .same
  case keepaliveTimer => exact TCPConn.onKeepalive_ctl _
  case writeNotify => exact TCPConn.onWriteNotify_ctl _
  case windowNotify =>
    rw [TCPConn.onWindowNotify]
    dsimp only
    split <;> exact .same
  case closeCh _ ht => exact TCPConn.onClose_ctl _ ht
  case forceCloseCh => exact TCPConn.onForceClose_ctl _
  case synRcvdTimer =>
    rw [TCPConn.onSynRcvdTimer]
    dsimp only
    split
    · rw [TCPConn.exitRun_ctl]; exact .exit
    · exact .same
  case finWait2Timer =>
    rw [TCPConn.onFinWait2Timer]
    dsimp only
    split
    · rw [TCPConn.exitRun_ctl]; exact .exit
    · exact .same
  case timeWaitTimer | done => rw [TCPConn.exitRun_ctl]; exact .exit
  case writeCall =>
    show TCPConn.QuietCtl s.conn s.conn.growWriteBuf.ctl
    rw [TCPConn.growWriteBuf]
    split <;> exact .same
  case closeWrite =>
    rw [TCPConn.closeWrite]
    split <;> exact .same
  case closeRead =>
    rw [TCPConn.closeRead]
    split <;> exact .same
  all_goals exact .same

/-! ### The end of a connection -/

/-- `done` is closed only together with the connection. -/
def Ctl.DoneClosed (k : Ctl) : Prop := k.done = true → k.state = .closed

namespace Ctl

variable {k : Ctl}

theorem DoneClosed.open (h : k.DoneClosed) (hs : k.state ≠ .closed) : k.done = false := by
  by_contra hd
  exact hs (h (by simpa using hd))

theorem finish_state (h : k.DoneClosed) : k.finish.state = .closed := by
  rw [Ctl.finish]
  split
  · rename_i hd
    exact h hd
  · rfl

theorem doneClosed_finalize (h : k.DoneClosed) : k.finalize.DoneClosed := by
  rw [Ctl.finalize.eq_def]
  split
  · rename_i hs
    exact fun hd => absurd ((h.open (by rw [hs]; simp)).symm.trans hd) (by simp)
  · rename_i hs
    exact fun hd => absurd ((h.open (by rw [hs]; simp)).symm.trans hd) (by simp)
  · exact h

end Ctl

theorem TCPConn.CtlStep.doneClosed {c : TCPConn} {seg : Segment} {k : Ctl} (h : CtlStep c seg k)
    (hc : c.ctl.DoneClosed) : k.DoneClosed := by
  -- an assignment in a state that is not CLOSED finds `done` open
  have hopen : ∀ {st : TCPState}, c.ctl.state = st → st ≠ .closed → c.ctl.done = true → False := by
    intro st hs hne hd
    exact absurd ((hc.open (by rw [hs]; exact hne)).symm.trans hd) (by simp)
  have hcaught : ∀ {k : Ctl}, Caught c seg k → k.done = c.ctl.done := by
    rintro k (rfl | ⟨-, -, rfl⟩) <;> rfl
  cases h with
  | same => exact hc
  | reset => exact fun _ => Ctl.finish_state fun _ => rfl
  | opened hs | fin hs | finTwice hs | closing hs => exact fun hd => (hopen hs (by simp) hd).elim
  | caught hs => rcases hs with hs | hs <;> exact fun hd => (hopen hs (by simp) hd).elim
  | finWait1 hs hk | finWait2 hs hk =>
    exact fun hd => (hopen hs (by simp) ((hcaught hk).symm.trans hd)).elim
  | lastAck => exact fun _ => Ctl.finish_state hc

theorem TCPConn.QuietCtl.doneClosed {c : TCPConn} {k : Ctl} (h : QuietCtl c k)
    (hc : c.ctl.DoneClosed) : k.DoneClosed := by
  cases h with
  | same | defer => exact hc
  | finish | exit => exact fun _ => Ctl.finish_state hc
  | finalize => exact Ctl.doneClosed_finalize hc

/-- Invariant rule for the state machine. -/
theorem ctl_reach {I : Ctl → Prop} (h0 : I TCPHandler.synCtl)
    (hseg : ∀ {c : TCPConn} {seg : Segment} {k : Ctl}, TCPConn.CtlStep c seg k → I c.ctl → I k)
    (hquiet : ∀ {c : TCPConn} {k : Ctl}, TCPConn.QuietCtl c k → I c.ctl → I k)
    (hfin : ∀ {k : Ctl}, I k → I k.finalize) {ok : Sys → Event → Prop} {s : Sys}
    (hr : Reach Sys.Init Sys.step ok s) : I s.conn.ctl := by
  refine hr.invariant (I := fun s => I s.conn.ctl) (fun s h => ?_) fun s e s' h _ hs => ?_
  · obtain ⟨h, irs, iss, options, hr, hw, -, rfl⟩ := Sys.init_iff.1 h
    exact h0
  · rcases (Sys.step_inv hs).2.ctl with ⟨seg, k, -, hk, he | ⟨-, he⟩⟩ | ⟨-, hk⟩
    · rw [he]
      exact hseg hk h
    · rw [he]
      exact hfin (hseg hk h)
    · exact hquiet hk h

theorem doneClosed_reach {ok : Sys → Event → Prop} {s : Sys} (hr : Reach Sys.Init Sys.step ok s) :
    s.conn.ctl.DoneClosed :=
  ctl_reach (I := Ctl.DoneClosed) (fun hd => by cases hd) (fun h hc => h.doneClosed hc)
    (fun h hc => h.doneClosed hc) Ctl.doneClosed_finalize hr

/-- Between the handshake and the end there are a sender and a receiver. -/
def Ctl.SyncedInside (k : Ctl) : Prop := k.synced = true ∨ k.state = .synRcvd ∨ k.state = .closed

theorem Ctl.SyncedInside.keep {k k' : Ctl} (h : k.SyncedInside) (hs : k'.synced = k.synced)
    (hstate : k'.state = k.state ∨ k'.state = .closed) : k'.SyncedInside := by
  rcases h with h | h | h
  · exact .inl (hs.trans h)
  · rcases hstate with he | he
    · exact .inr (.inl (he.trans h))
    · exact .inr (.inr he)
  · rcases hstate with he | he
    · exact .inr (.inr (he.trans h))
    · exact .inr (.inr he)

theorem Ctl.finish_keep (k : Ctl) : k.finish.synced = k.synced ∧
    (k.finish.state = k.state ∨ k.finish.state = .closed) := by
  rw [Ctl.finish]
  split
  · exact ⟨rfl, .inl rfl⟩
  · exact ⟨rfl, .inr rfl⟩

theorem syncedInside_reach {ok : Sys → Event → Prop} {s : Sys} (hr : Reach Sys.Init Sys.step ok s) :
    s.conn.ctl.SyncedInside := by
  refine ctl_reach (.inr (.inl rfl)) ?_ ?_ ?_ hr
  · intro c seg k h hc
    have hin : ∀ {st : TCPState}, c.ctl.state = st → st ≠ .synRcvd → st ≠ .closed →
        c.ctl.synced = true := by
      intro st hs h1 h2
      exact hc.resolve_right fun h => h.elim (fun h => h1 (hs.symm.trans h)) fun h =>
        h2 (hs.symm.trans h)
    have hcaught : ∀ {k : Ctl}, TCPConn.Caught c seg k → k.synced = c.ctl.synced := by
      rintro k (rfl | ⟨-, -, rfl⟩) <;> rfl
    cases h with
    | same => exact hc
    | reset => exact .inr (.inr (Ctl.finish_state fun _ => rfl))
    | opened => exact .inl rfl
    | fin hs | finTwice hs | closing hs => exact .inl (hin hs (by simp) (by simp))
    | caught hs => rcases hs with hs | hs <;> exact .inl (hin hs (by simp) (by simp))
    | finWait1 hs hk | finWait2 hs hk =>
      exact .inl ((hcaught hk).trans (hin hs (by simp) (by simp)))
    | lastAck => exact hc.keep (Ctl.finish_keep _).1 (Ctl.finish_keep _).2
  · intro c k h hc
    cases h with
    | same | defer => exact hc
    | finish | exit => exact hc.keep (Ctl.finish_keep _).1 (Ctl.finish_keep _).2
    | finalize =>
      rw [Ctl.finalize.eq_def]
      split
      · rename_i hs
        exact .inl (hc.resolve_right (by rw [hs]; simp))
      · rename_i hs
        exact .inl (hc.resolve_right (by rw [hs]; simp))
      · exact hc
  · intro k hk
    rw [Ctl.finalize.eq_def]
    split
    · rename_i hs
      exact .inl (hk.resolve_right (by rw [hs]; simp))
    · rename_i hs
      exact .inl (hk.resolve_right (by rw [hs]; simp))
    · exact hk

end Netstack.Tcp
