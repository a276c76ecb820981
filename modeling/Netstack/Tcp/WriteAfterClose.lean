import Netstack.Lib.Simulation
import Netstack.Tcp.ReAck

/-! `Write` on a connection that is over.

    A connection ends in several ways, and they differ in what they mark: `forceCloseFromRun` closes
    `writeBuf`, a graceful close has closed it long before, but a RST, the retry limit and a failed
    keepalive only close `done`. `ringBuffer.Write` looks at `done` only while it waits for space, so
    after one of those three it goes on accepting bytes that nobody will ever send. Where `writeBuf`
    is closed by the time `done` is, every `Write` call after that fails and stores nothing. -/

namespace Netstack.Tcp
open Netstack.Header Netstack.Trace Netstack.Simulation TCPConn

/-! ### What a `Write` call returns -/

/-- The second result of `Write`: nil, or `errBufferClosed`. -/
inductive WriteError where
  | none
  | bufferClosed
  deriving DecidableEq

/-- What the `Write` call returns, if `e` is the step at which that is decided. -/
def Sys.writeResult (s : Sys) : Event → Option (ℕ × WriteError)
  | .writeCall g _ =>
    if s.writers g = .idle ∧ s.conn.app.writeShutdown then some (0, .bufferClosed) else none
  | .writeCopy g =>
    match s.writers g with
    | .copying rest written =>
      if rest = [] then some (written, .none)
      else if s.conn.tx.writeBuf.closed then some (written, .bufferClosed)
      else none
    | _ => none
  | .writeAbort g =>
    match s.writers g with
    | .waiting _ _ written => some (written, .bufferClosed)
    | _ => none
  | _ => none

/-- The goroutine whose `Write` call makes the step. -/
def Event.writer : Event → Option ℕ
  | .writeCall g _ | .writeCopy g | .writeWake g | .writeAbort g | .writeReturn g => some g
  | _ => none

/-! ### Ways to end -/

/-- The step ends the connection and leaves `writeBuf` as it is: a RST in order, the retry limit, or
    one keepalive probe too many. -/
def TCPConn.endsOpen (c : TCPConn) : Event → Bool
  | .inbound seg => seg.flags.has tcpFlagRST && decide (seg.seq = c.ackNum)
  | .rtoTimer =>
    c.hasUnacked && !c.tx.zeroWindowProbing && decide (c.tx.snd.retries + 1 > c.env.cfg.maxRetries)
  | .keepaliveTimer =>
    decide (c.ctl.state = .established) && !c.hasUnacked &&
      decide (c.timers.keepaliveProbes + 1 > c.env.cfg.keepaliveCount)
  | _ => false

/-- A connection that the application has is not ended under an open `writeBuf`. -/
def KeepsSealed (s : Sys) (e : Event) : Prop :=
  s.conn.ctl.handedOver = true → s.conn.tx.writeBuf.closed = false → s.conn.endsOpen e = false

/-! ### The timer of TIME_WAIT -/

/-- A state in which the connection has sent its FIN. -/
def TCPState.finSent : TCPState → Bool
  | .finWait1 | .finWait2 | .closing | .timeWait | .lastAck => true
  | _ => false

theorem TCPConn.Took.timeWait {c c' : TCPConn} (h : Took c c') :
    c'.timers.timeWaitTimer = c.timers.timeWaitTimer := by
  obtain ⟨c₁, hfed, rfl | ⟨-, -, rfl⟩⟩ := h
  · rw [hfed.timers]
  · show c₁.timers.timeWaitTimer = _
    rw [hfed.timers]

namespace TCPConn

theorem scheduleACK_timeWait (c : TCPConn) (seg : Segment) :
    (c.scheduleACK seg).timers.timeWaitTimer = c.timers.timeWaitTimer := by
  rw [scheduleACK]
  split_ifs <;> rfl

theorem handleEstablished_timeWait (c : TCPConn) (seg : Segment) :
    (c.handleEstablished seg).timers.timeWaitTimer = c.timers.timeWaitTimer := by
  have hpay : ((c.resetKeepalive.establishedACK seg).takePayload seg).timers.timeWaitTimer
      = c.timers.timeWaitTimer :=
    (took_takePayload _ seg).timeWait.trans (TxOnly.establishedACK _ seg).timeWait
  rw [handleEstablished, establishedFIN]
  split_ifs
  · exact hpay
  · rw [scheduleACK_timeWait]
    exact hpay
  · rw [scheduleACK_timeWait]
    exact hpay

theorem closeDone_timeWait (c : TCPConn) :
    c.closeDone.timers.timeWaitTimer = c.timers.timeWaitTimer := by
  rw [closeDone]
  split <;> rfl

theorem handleSynRcvd_timeWait (c : TCPConn) (seg : Segment) :
    (c.handleSynRcvd seg).timers.timeWaitTimer = c.timers.timeWaitTimer := by
  rw [handleSynRcvd]
  split_ifs
  · rfl
  · exact closeDone_timeWait _
  · rw [synPayload]
    split
    · rfl
    · exact (took_handleData (c.establish seg).resetKeepalive seg.seq seg.payload).timeWait
  · rfl
  · rfl

/-- Before the FIN is sent, a segment does not start the timer. -/
theorem dispatch_timeWait (c : TCPConn) (seg : Segment) (hs : c.ctl.state.finSent = false) :
    (c.dispatch seg).timers.timeWaitTimer = c.timers.timeWaitTimer := by
  rw [dispatch]
  cases hst : c.ctl.state with
  | synRcvd => exact handleSynRcvd_timeWait c seg
  | established => exact handleEstablished_timeWait c seg
  | closeWait => exact (TxOnly.handleCloseWait c seg).timeWait
  | closed => rfl
  | finWait1 | finWait2 | closing | timeWait | lastAck => rw [hst] at hs; cases hs

theorem handleSegment_timeWait (c : TCPConn) (seg : Segment) (hs : c.ctl.state.finSent = false) :
    (c.handleSegment seg).timers.timeWaitTimer = c.timers.timeWaitTimer := by
  have t : TxOnly c (c.updateTSRecent seg) := .updateTSRecent c seg
  rw [handleSegment]
  split_ifs
  · rfl
  · rw [handleRSTSegment]
    split_ifs
    · rfl
    · exact closeDone_timeWait _
    · rfl
    · rfl
  · rfl
  · exact (dispatch_timeWait _ seg (by rw [t.ctl]; exact hs)).trans t.timeWait

theorem armRTO_timers (c : TCPConn) : c.armRTO.timers = c.timers := by
  rw [armRTO]
  split <;> rfl

theorem manageRTO_timers (c : TCPConn) : c.manageRTO.timers = c.timers := by
  rw [manageRTO]
  split_ifs
  · rfl
  · exact armRTO_timers c
  · rfl

end TCPConn

/-! ### An open `writeBuf` -/

/-- What is known of a connection whose `writeBuf` is open: it has not sent a FIN, TIME_WAIT is far
    away, and if the application has it, it is not over. -/
structure Unsealed (c : TCPConn) : Prop where
  live : c.ctl.handedOver = true → c.ctl.done = false
  unsent : c.ctl.state.finSent = false
  timer : c.timers.timeWaitTimer.armed = false

def Sealed (c : TCPConn) : Prop := c.tx.writeBuf.closed = false → Unsealed c

namespace Unsealed

variable {c c' : TCPConn}

theorem keep (h : Unsealed c) (hctl : c'.ctl = c.ctl)
    (htimer : c'.timers.timeWaitTimer = c.timers.timeWaitTimer) : Unsealed c' where
  live := by rw [hctl]; exact h.live
  unsent := by rw [hctl]; exact h.unsent
  timer := by rw [htimer]; exact h.timer

theorem txOnly (h : Unsealed c) (t : TxOnly c c') : Unsealed c' := h.keep t.ctl t.timeWait

theorem finish_handedOver (k : Ctl) : k.finish.handedOver = k.handedOver := by
  rw [Ctl.finish]
  split <;> rfl

theorem finish_finSent {k : Ctl} (h : k.state.finSent = false) : k.finish.state.finSent = false := by
  rw [Ctl.finish]
  split
  · exact h
  · rfl

/-- A connection that the application never got may end. -/
theorem exitRun (h : Unsealed c) (hover : c.ctl.handedOver = false) : Unsealed c.exitRun where
  live hho := by
    rw [exitRun_ctl] at hho
    exact absurd (hover.symm.trans ((finish_handedOver c.ctl).symm.trans hho)) (by simp)
  unsent := by
    rw [exitRun_ctl]
    exact finish_finSent h.unsent
  timer := rfl

/-- The state machine after a segment. -/
theorem ctlStep (h : Unsealed c) {seg : Segment} {k : Ctl} (hk : CtlStep c seg k)
    (hdone : c.ctl.DoneClosed) (hopen : c.ctl.state = .synRcvd → c.ctl.handedOver = false)
    (hrst : c.ctl.handedOver = true → c.endsOpen (.inbound seg) = false) :
    k.finPending = c.ctl.finPending ∧ (k.handedOver = true → k.done = false) ∧
      k.state.finSent = false := by
  have hunsent : ∀ {st : TCPState}, c.ctl.state = st → st.finSent = true → False := fun hs hst =>
    absurd (h.unsent.symm.trans ((congrArg _ hs).trans hst)) (by simp)
  cases hk with
  | same => exact ⟨rfl, h.live, h.unsent⟩
  | reset hr =>
    have hover : c.ctl.handedOver = false := by
      rcases hr with hs | hr
      · exact hopen hs
      · by_contra hho
        have hends := hrst (by simpa using hho)
        simp [endsOpen, hr] at hends
    refine ⟨?_, fun hho => ?_, finish_finSent rfl⟩
    · rw [Ctl.finish]
      split <;> rfl
    · rw [finish_handedOver] at hho
      exact absurd (hover.symm.trans hho) (by simp)
  | opened hs => exact ⟨rfl, fun _ => hdone.open (by rw [hs]; simp), rfl⟩
  | fin hs | finTwice hs => exact ⟨rfl, fun _ => hdone.open (by rw [hs]; simp), rfl⟩
  | caught hs => rcases hs with hs | hs <;> exact (hunsent hs rfl).elim
  | finWait1 hs | finWait2 hs | closing hs | lastAck hs => exact (hunsent hs rfl).elim

theorem closeDone (h : Unsealed c) (hover : c.ctl.handedOver = false) : Unsealed c.closeDone where
  live hho := by
    rw [closeDone_ctl, finish_handedOver] at hho
    exact absurd (hover.symm.trans hho) (by simp)
  unsent := by
    rw [closeDone_ctl]
    exact finish_finSent h.unsent
  timer := by rw [closeDone_timeWait]; exact h.timer

theorem handleRTO (h : Unsealed c) (hends : c.ctl.handedOver = true → c.endsOpen .rtoTimer = false) :
    Unsealed c.handleRTO := by
  rw [TCPConn.handleRTO]
  split_ifs with hempty hprobing hlimit
  · exact h
  · exact h.txOnly (.backOff c)
  · have hover : c.ctl.handedOver = false := by
      by_contra hho
      have hopen := hends (by simpa using hho)
      simp [endsOpen, hasUnacked, hempty, hprobing, hlimit] at hopen
    rw [TCPConn.abort]
    split
    · exact closeDone (h.keep rfl rfl) hover
    · exact closeDone (h.keep rfl rfl) hover
  · exact h.txOnly ((TxOnly.countRetry c).trans (.backOff _))

theorem armRTO (h : Unsealed c) : Unsealed c.armRTO :=
  h.keep (armRTO_ctl c) (by rw [armRTO_timers])

theorem onRTO (h : Unsealed c) (hends : c.ctl.handedOver = true → c.endsOpen .rtoTimer = false) :
    Unsealed c.onRTO := by
  have hstop : Unsealed c.stopRTO := h.keep rfl rfl
  have hfired : Unsealed c.stopRTO.handleRTO := hstop.handleRTO hends
  rw [TCPConn.onRTO]
  split
  · rw [TCPConn.rearmRTO]
    split
    · exact hfired.armRTO
    · exact hfired
  · exact h.keep rfl rfl

theorem onKeepalive (h : Unsealed c)
    (hends : c.ctl.handedOver = true → c.endsOpen .keepaliveTimer = false) :
    Unsealed c.onKeepalive := by
  rw [TCPConn.onKeepalive]
  split_ifs with hst hun hlimit
  · exact h.keep rfl rfl
  · refine exitRun (h.keep rfl rfl) ?_
    show c.ctl.handedOver = false
    by_contra hho
    have hopen := hends (by simpa using hho)
    simp [endsOpen, hst.1, hun, hlimit] at hopen
  · exact h.keep rfl rfl
  · exact h.keep rfl rfl

theorem onInbound (h : Unsealed c) {seg : Segment} (hdone : c.ctl.DoneClosed)
    (hopen : c.ctl.state = .synRcvd → c.ctl.handedOver = false) (hpend : c.ctl.finPending = false)
    (hrst : c.ctl.handedOver = true → c.endsOpen (.inbound seg) = false) :
    Unsealed (c.onInbound seg) := by
  obtain ⟨hkeep, hlive, hunsent⟩ := h.ctlStep (handleSegment_ctl c seg) hdone hopen hrst
  rw [TCPConn.onInbound, drainForFIN]
  -- no FIN is deferred, so nothing follows the segment
  rw [if_neg (by rw [manageRTO_ctl, hkeep, hpend]; simp)]
  refine ⟨?_, ?_, ?_⟩
  · rw [manageRTO_ctl]
    exact hlive
  · rw [manageRTO_ctl]
    exact hunsent
  · rw [manageRTO_timers, handleSegment_timeWait c seg h.unsent]
    exact h.timer

theorem piggyback (h : Unsealed c) : Unsealed c.piggyback := by
  rw [TCPConn.piggyback]
  split
  · exact h.keep rfl rfl
  · exact h

theorem onWriteNotify (h : Unsealed c) (hpend : c.ctl.finPending = false) :
    Unsealed c.onWriteNotify := by
  have hsend : Unsealed c.onWriteNotifySend := by
    have htaken : Unsealed { c with app.writeNotify := false } := h.keep rfl rfl
    have hsent := htaken.txOnly
      (((TxOnly.sendPending _).trans (.resetKeepalive _)).trans (.checkZeroWindow _))
    exact hsent.piggyback.armRTO
  rw [TCPConn.onWriteNotify, hpend]
  split
  · exact hsend
  · exact h.keep rfl rfl

end Unsealed

/-- One step keeps it, as long as the connection does not end under an open `writeBuf`. -/
theorem sealed_step {s s' : Sys} {e : Event} (h : Sealed s.conn) (hshut : Shut s.conn)
    (hdone : s.conn.ctl.DoneClosed)
    (hopen : s.conn.ctl.state = .synRcvd → s.conn.ctl.handedOver = false) (hok : KeepsSealed s e)
    (hstep : Sys.Step s e s') : Sealed s'.conn := by
  intro hclosed'
  -- a closed buffer stays closed, so it was open before the step
  have hclosed : s.conn.tx.writeBuf.closed = false := by
    by_contra hc
    rcases hstep.drained with hd | ⟨hc', -⟩
    · exact absurd (hclosed'.symm.trans (hd.closed (by simpa using hc))) (by simp)
    · exact hc hc'
  have hu := h hclosed
  have hends := fun hho => hok hho hclosed
  have hno : ¬(s.conn.app.closeCh = true ∨ s.conn.ctl.finPending = true) := fun ht =>
    absurd (hclosed.symm.trans (hshut.token ht)) (by simp)
  have hpend : s.conn.ctl.finPending = false := by simpa using fun hp => hno (.inr hp)
  cases hstep
  case inbound seg _ => exact hu.onInbound hdone hopen hpend hends
  case rtoTimer => exact hu.onRTO hends
  case delayedACKTimer => exact hu.keep rfl rfl
  case zeroWindowTimer =>
    show Unsealed (TCPConn.onZeroWindow _)
    rw [TCPConn.onZeroWindow]
    split
    · have hstop : Unsealed s.conn.stopZeroWindow := hu.keep rfl rfl
      exact (hstop.txOnly (.sendZeroWindowProbe _)).keep rfl rfl
    · exact hu.keep rfl rfl
  case keepaliveTimer => exact hu.onKeepalive hends
  case writeNotify => exact hu.onWriteNotify hpend
  case windowNotify =>
    show Unsealed (TCPConn.onWindowNotify _)
    rw [TCPConn.onWindowNotify]
    dsimp only
    split <;> exact hu.keep rfl rfl
  case closeCh _ htoken => exact absurd (.inl htoken) hno
  case forceCloseCh =>
    have hexit : ∀ c : TCPConn, c.forceCloseBufs.exitRun.tx.writeBuf.closed = true := by
      intro c
      show c.forceCloseBufs.closeDone.tx.writeBuf.closed = true
      rw [(RxOnly.closeDone _).tx]
      rfl
    have hsealed : s.conn.onForceClose.tx.writeBuf.closed = true := by
      rw [TCPConn.onForceClose]
      split <;> exact hexit _
    exact absurd (hclosed'.symm.trans hsealed) (by simp)
  case synRcvdTimer =>
    show Unsealed (TCPConn.onSynRcvdTimer _)
    rw [TCPConn.onSynRcvdTimer]
    dsimp only
    split
    · rename_i hs
      exact Unsealed.exitRun (hu.keep rfl rfl) (hopen hs)
    · exact hu.keep rfl rfl
  case finWait2Timer =>
    show Unsealed (TCPConn.onFinWait2Timer _)
    rw [TCPConn.onFinWait2Timer]
    dsimp only
    split
    · rename_i hs
      exact absurd (hu.unsent.symm.trans (congrArg _ hs)) (by simp [TCPState.finSent])
    · exact hu.keep rfl rfl
  case timeWaitTimer _ harmed => exact absurd (hu.timer.symm.trans harmed) (by simp)
  case done _ hd =>
    refine hu.exitRun ?_
    by_contra hho
    exact absurd ((hu.live (by simpa using hho)).symm.trans hd) (by simp)
  case writeCall =>
    show Unsealed (TCPConn.growWriteBuf _)
    rw [TCPConn.growWriteBuf]
    split <;> exact hu.keep rfl rfl
  case closeWrite =>
    show Unsealed (TCPConn.closeWrite _)
    rw [TCPConn.closeWrite]
    split <;> exact hu.keep rfl rfl
  case closeRead =>
    show Unsealed (TCPConn.closeRead _)
    rw [TCPConn.closeRead]
    split <;> exact hu.keep rfl rfl
  all_goals exact hu.keep rfl rfl

/-- The application gets the connection when the handshake is over. -/
theorem unhanded_reach {ok : Sys → Event → Prop} {s : Sys} (hr : Reach Sys.Init Sys.step ok s) :
    s.conn.ctl.state = .synRcvd → s.conn.ctl.handedOver = false := by
  have hfinish : ∀ {k : Ctl}, (k.state = .synRcvd → k.handedOver = false) →
      k.finish.state = .synRcvd → k.finish.handedOver = false := by
    intro k hk
    rw [Ctl.finish]
    split
    · exact hk
    · exact fun hs => by cases hs
  refine ctl_reach (I := fun k => k.state = .synRcvd → k.handedOver = false) (fun _ => rfl) ?_ ?_ ?_ hr
  · intro c seg k hk hc
    cases hk with
    | same => exact hc
    | reset => exact hfinish fun hs => by cases hs
    | finWait1 _ _ hto =>
      rcases hto with rfl | rfl | rfl <;> exact fun hs => by cases hs
    | lastAck => exact hfinish hc
    | opened | fin | finTwice | caught | finWait2 | closing => exact fun hs => by cases hs
  · intro c k hk hc
    cases hk with
    | same | defer => exact hc
    | finish | exit => exact hfinish hc
    | finalize =>
      rw [Ctl.finalize.eq_def]
      split
      · exact fun hs => by cases hs
      · exact fun hs => by cases hs
      · exact hc
  · intro k hk
    rw [Ctl.finalize.eq_def]
    split
    · exact fun hs => by cases hs
    · exact fun hs => by cases hs
    · exact hk

theorem sealed_reach {s : Sys} (hr : Reach Sys.Init Sys.step KeepsSealed s) : Sealed s.conn := by
  induction hr with
  | start h =>
    obtain ⟨h, irs, iss, options, hr, hw, -, rfl⟩ := Sys.init_iff.1 h
    exact fun _ => ⟨fun _ => rfl, rfl, rfl⟩
  | next hr hok hs ih =>
    exact sealed_step ih (shut_reach hr) (doneClosed_reach hr) (unhanded_reach hr) hok
      (Sys.step_inv hs).2

/-! ### Calls after the end -/

/-- The connection is over: `done` is closed. -/
def Ctl.Over (k : Ctl) : Prop := k.done = true ∧ k.state = .closed

theorem Ctl.Over.finish {k : Ctl} (h : k.Over) : k.finish = k := if_pos h.1

/-- It stays over, and the application does not get the connection any more. -/
theorem over_step {s s' : Sys} {e : Event} (h : s.conn.ctl.Over) (hstep : Sys.Step s e s') :
    s'.conn.ctl.Over ∧ s'.conn.ctl.handedOver = s.conn.ctl.handedOver := by
  have hs := h.2
  have hfin : ∀ {k : Ctl}, k.Over → k.finalize.Over ∧ k.finalize.handedOver = k.handedOver := by
    intro k hk
    rw [Ctl.finalize.eq_def, hk.2]
    exact ⟨hk, rfl⟩
  rcases hstep.ctl with ⟨seg, k, -, hk, he⟩ | ⟨-, hk⟩
  · have hkeep : k.Over ∧ k.handedOver = s.conn.ctl.handedOver := by
      cases hk with
      | same => exact ⟨h, rfl⟩
      | reset =>
        have hset : (s.conn.ctl.set .closed).Over := ⟨h.1, rfl⟩
        rw [hset.finish]
        exact ⟨hset, rfl⟩
      | caught h => rcases h with h | h <;> rw [hs] at h <;> cases h
      | opened h | fin h | finTwice h | finWait1 h | finWait2 h | closing h | lastAck h =>
        rw [hs] at h
        cases h
    rcases he with he | ⟨-, he⟩
    · rw [he]
      exact hkeep
    · rw [he]
      exact ⟨(hfin hkeep.1).1, (hfin hkeep.1).2.trans hkeep.2⟩
  · generalize s'.conn.ctl = k at hk
    cases hk with
    | same | defer => exact ⟨h, rfl⟩
    | finish | exit => rw [h.finish]; exact ⟨h, rfl⟩
    | finalize => exact hfin h

/-- A `Write` call that has copied nothing and has something to copy, or is over. -/
def Writer.Fresh (w : Writer) : Prop := w = .idle ∨ (∃ b, b ≠ [] ∧ w = .copying b 0) ∨ w = .returning 0

/-- The connection is over, `writeBuf` is closed if the application can reach it, and goroutine `g`
    has no call under way that began before. -/
structure Refusing (g : ℕ) (s : Sys) : Prop where
  ended : s.conn.ctl.Over
  shut : s.conn.ctl.handedOver = true → s.conn.tx.writeBuf.closed = true
  call : (s.writers g).Fresh

theorem Sys.step_handedOver {s s' : Sys} {e : Event} {g : ℕ} (hg : e.writer = some g)
    (h : s.step e = some s') : s.conn.ctl.handedOver = true := by
  cases e <;> simp only [Event.writer, reduceCtorEq] at hg <;> simp only [Sys.step] at h <;>
    split_ifs at h with _ hho <;> exact hho

/-- Only the steps of its own call move a goroutine. -/
theorem Sys.Step.writers_of_ne {s s' : Sys} {e : Event} {g : ℕ} (h : Sys.Step s e s')
    (hg : e.writer ≠ some g) : s'.writers g = s.writers g := by
  cases h
  case writeCall g' _ _ _ _ | writeCopied g' _ _ _ _ | writeBlocked g' _ _ _ _ _ _ |
      writeCopy g' _ _ _ _ _ _ _ | writeWake g' _ _ _ _ _ | writeAbort g' _ _ _ _ _ |
      writeReturn g' _ _ =>
    exact Function.update_of_ne (fun he => hg (congrArg some he.symm)) _ _
  all_goals rfl

/-- The step of a call adds nothing to `writeBuf`; it decides on an error and no bytes, or is the
    entry into a call that the next step decides so, or the return from one. -/
def Refused (g : ℕ) (s : Sys) (e : Event) (s' : Sys) : Prop :=
  s'.conn.tx.writeBuf.contents = s.conn.tx.writeBuf.contents ∧
  s'.conn.tx.accepted = s.conn.tx.accepted ∧
  (s.writeResult e = some (0, .bufferClosed) ∨
    (∃ b, e = .writeCall g b ∧ s'.writeResult (.writeCopy g) = some (0, .bufferClosed)) ∨
    e = .writeReturn g)

theorem Refusing.refused {s s' : Sys} {e : Event} {g : ℕ} (h : Refusing g s)
    (hg : e.writer = some g) (hne : e ≠ .writeCall g []) (hstep : s.step e = some s') :
    Refused g s e s' ∧ (s'.writers g).Fresh := by
  have hclosed := h.shut (Sys.step_handedOver hg hstep)
  have hpc : ∀ {w : Writer}, s.writers g = w → w ≠ .idle → w ≠ .returning 0 →
      ∃ b, b ≠ [] ∧ w = .copying b 0 := by
    rintro w rfl hidle hret
    rcases h.call with hc | hc | hc
    · exact absurd hc hidle
    · exact hc
    · exact absurd hc hret
  cases (Sys.step_inv hstep).2 <;> simp only [Event.writer, reduceCtorEq, Option.some.injEq] at hg
  case writeRefused b hidle hshut =>
    subst hg
    exact ⟨⟨rfl, rfl, .inl (if_pos ⟨hidle, hshut⟩)⟩, h.call⟩
  case writeCall b _ _ _ =>
    subst hg
    have hb : b ≠ [] := fun hb => hne (by rw [hb])
    have hgrow : s.conn.growWriteBuf.tx.writeBuf.closed = true :=
      (Resends.growWriteBuf s.conn).drained.closed hclosed
    refine ⟨⟨?_, ?_, .inr (.inl ⟨b, rfl, ?_⟩)⟩, .inr (.inl ⟨b, hb, Function.update_self ..⟩)⟩
    · exact (Resends.growWriteBuf s.conn).contents
    · exact (Resends.growWriteBuf s.conn).accepted
    · simp [Sys.writeResult, Sys.setWriter, hb, hgrow]
  case writeCopied rest written hw hend =>
    subst hg
    obtain ⟨b, hb, he⟩ := hpc hw (by simp) (by simp)
    obtain ⟨rfl, rfl⟩ := Writer.copying.inj he
    exact ⟨⟨rfl, rfl, .inl (by simp [Sys.writeResult, hw, hb, hclosed])⟩,
      .inr (.inr (Function.update_self ..))⟩
  case writeBlocked hopen _ => exact absurd (hopen.symm.trans hclosed) (by simp)
  case writeCopy hopen _ => exact absurd (hopen.symm.trans hclosed) (by simp)
  case writeWake hw _ =>
    subst hg
    obtain ⟨b, -, he⟩ := hpc hw (by simp) (by simp)
    cases he
  case writeAbort hw _ =>
    subst hg
    obtain ⟨b, -, he⟩ := hpc hw (by simp) (by simp)
    cases he
  case writeReturn hw =>
    subst hg
    exact ⟨⟨rfl, rfl, .inr (.inr rfl)⟩, .inl (Function.update_self ..)⟩

/-- Whatever happens, goroutine `g` has only fresh calls under way. -/
theorem Refusing.step {s s' : Sys} {e : Event} {g : ℕ} (h : Refusing g s)
    (hne : e ≠ .writeCall g []) (hstep : s.step e = some s') : Refusing g s' := by
  have hinv := (Sys.step_inv hstep).2
  obtain ⟨hover, hho⟩ := over_step h.ended hinv
  refine ⟨hover, fun hover => ?_, ?_⟩
  · have hc := h.shut (hho.symm.trans hover)
    rcases hinv.drained with hdr | ⟨hopen, -⟩
    · exact hdr.closed hc
    · exact absurd (hopen.symm.trans hc) (by simp)
  · by_cases hg : e.writer = some g
    · exact (h.refused hg hne hstep).2
    · rw [hinv.writers_of_ne hg]
      exact h.call

/-- SAFE, where no connection ends under an open `writeBuf`: once `done` is closed, in whatever
    follows, every later `Write` call of a goroutine with something to write fails: it adds nothing to
    `writeBuf`, returns `errBufferClosed` with 0 bytes, and does so without waiting. -/
theorem write_after_done {s s₁ s₂ : Sys} {es : List Event} {e : Event} {g : ℕ}
    (hr : Reach Sys.Init Sys.step KeepsSealed s) (hdone : s.conn.ctl.done = true)
    (hidle : s.writers g = .idle)
    (hrun : Run Sys.step (fun _ e => e ≠ .writeCall g []) s es s₁) (hg : e.writer = some g)
    (hne : e ≠ .writeCall g []) (hstep : s₁.step e = some s₂) : Refused g s₁ e s₂ := by
  have hstart : Refusing g s := by
    refine ⟨⟨hdone, doneClosed_reach hr hdone⟩, fun hho => ?_, .inl hidle⟩
    by_contra hopen
    exact absurd ((sealed_reach hr (by simpa using hopen)).live hho ▸ hdone) (by simp)
  have hend : Refusing g s₁ := hrun.invariant (fun _ _ _ h hne hs => h.step hne hs) hstart
  exact (hend.refused hg hne hstep).1

/-- `ForceClose` closes `writeBuf` first, and a `Write` of one byte is refused. -/
theorem write_after_forceClose : ∃ s s₁ s₂ : Sys, Reach Sys.Init Sys.step KeepsSealed s ∧
    s.conn.ctl.done = true ∧
    Run Sys.step (fun _ e => e ≠ .writeCall 0 []) s [.writeCall 0 [1]] s₁ ∧
    s₁.step (.writeCopy 0) = some s₂ ∧ Refused 0 s₁ (.writeCopy 0) s₂ := by
  obtain ⟨s, hr, hdone, hidle, hexec⟩ := Sys.exists_reach Sys.init_sample
    (fun s e => !s.conn.ctl.handedOver || s.conn.tx.writeBuf.closed || !s.conn.endsOpen e)
    (fun s => s.conn.ctl.done = true ∧ s.writers 0 = .idle ∧
      (exec Sys.step (fun _ e => e ≠ .writeCall 0 []) s [.writeCall 0 [1]]).any
        (fun s₁ => (s₁.step (.writeCopy 0)).isSome) = true)
    [Sys.sampleACK, .forceClose, .forceCloseCh] (by decide +kernel)
  have hr' : Reach Sys.Init Sys.step KeepsSealed s := hr.mono fun s e hok hho hopen => by
    simpa [hho, hopen] using hok
  obtain ⟨s₁, hrun, hsome⟩ := exists_run_exec Sys.step (fun _ e => e ≠ .writeCall 0 []) s
    [.writeCall 0 [1]] (fun s₁ => (s₁.step (.writeCopy 0)).isSome) (by simpa using hexec)
  obtain ⟨s₂, hstep⟩ := Option.isSome_iff_exists.1 hsome
  exact ⟨s, s₁, s₂, hr', hdone, hrun, hstep,
    write_after_done hr' hdone hidle hrun rfl (by simp) hstep⟩

/-- A RST closes `done` only. The `Write` call that follows it stores its byte and returns without an
    error. -/
theorem write_after_reset : ∃ s s₁ s₂ : Sys, Reach Sys.Init Sys.step (fun _ _ => True) s ∧
    s.conn.ctl.done = true ∧ s.writers 0 = .idle ∧ s.conn.tx.writeBuf.contents = [] ∧
    Run Sys.step (fun _ _ => True) s [.writeCall 0 [1], .writeCopy 0] s₁ ∧
    s₁.conn.tx.writeBuf.contents = [1] ∧ s₁.writeResult (.writeCopy 0) = some (1, .none) ∧
    s₁.step (.writeCopy 0) = some s₂ := by
  obtain ⟨s, hr, hdone, hidle, hempty, hexec⟩ := Sys.exists_reach Sys.init_sample (fun _ _ => true)
    (fun s => s.conn.ctl.done = true ∧ s.writers 0 = .idle ∧ s.conn.tx.writeBuf.contents = [] ∧
      (exec Sys.step (fun _ _ => True) s [.writeCall 0 [1], .writeCopy 0]).any
        (fun s₁ => s₁.conn.tx.writeBuf.contents = [1] ∧
          s₁.writeResult (.writeCopy 0) = some (1, .none) ∧
          (s₁.step (.writeCopy 0)).isSome) = true)
    [Sys.sampleACK, .inbound (Sys.sampleSegment tcpFlagRST 101 0 0 [])] (by decide +kernel)
  obtain ⟨s₁, hrun, hstored, hresult, hsome⟩ := exists_run_exec Sys.step (fun _ _ => True) s
    [.writeCall 0 [1], .writeCopy 0]
    (fun s₁ => s₁.conn.tx.writeBuf.contents = [1] ∧
      s₁.writeResult (.writeCopy 0) = some (1, .none) ∧ (s₁.step (.writeCopy 0)).isSome) hexec
  obtain ⟨s₂, hstep⟩ := Option.isSome_iff_exists.1 hsome
  exact ⟨s, s₁, s₂, hr.mono fun _ _ _ => trivial, hdone, hidle, hempty, hrun, hstored, hresult, hstep⟩

end Netstack.Tcp
