import Netstack.Tcp.SendStream
import Netstack.Tcp.Control

/-! Delayed acknowledgments.

    Data that has been received is acknowledged at once, or the delayed-ACK timer runs. The write
    notification takes it for granted that `sendPending` has sent a segment, which carries the
    acknowledgment, and cancels the timer also when nothing was sent. -/

namespace Netstack.Tcp
open Netstack.Header Netstack.Trace

/-- The acknowledgment number of the last segment sent that carries one. -/
def lastACK (out : List OutSegment) : Option UInt32 :=
  (out.filter fun p => p.flags.has tcpFlagACK).getLast?.map OutSegment.ack

theorem lastACK_concat (out : List OutSegment) {p : OutSegment} (hp : p.flags.has tcpFlagACK = true) :
    lastACK (out ++ [p]) = some p.ack := by
  rw [lastACK, List.filter_append, List.filter_singleton, hp, cond_true, List.getLast?_concat]
  rfl

/-- Segments that all acknowledge `x` leave it the last one. -/
theorem lastACK_append {out : List OutSegment} {x : UInt32} (h : lastACK out = some x) :
    ∀ {ps : List OutSegment}, (∀ p ∈ ps, p.flags.has tcpFlagACK = true → p.ack = x) →
    lastACK (out ++ ps) = some x := by
  intro ps hps
  rw [lastACK, List.filter_append, List.getLast?_append]
  cases hl : (ps.filter fun p => p.flags.has tcpFlagACK).getLast? with
  | none => exact h
  | some p =>
    obtain ⟨hmem, hack⟩ := List.mem_filter.1 (List.mem_of_getLast? hl)
    exact congrArg some (hps p hmem hack)

namespace TCPConn

variable {c c' : TCPConn}

/-- All that was received has been acknowledged. -/
def Acked (c : TCPConn) : Prop := lastACK c.wire.out = some c.ackNum

/-- An acknowledgment has been sent or is on the delayed-ACK timer. -/
def AckKept (c : TCPConn) : Prop := Acked c ∨ c.timers.delayedACKTimer.armed = true

theorem acked_sendACK (c : TCPConn) : Acked c.sendACK := by
  have hnum : c.sendACK.ackNum = c.ackNum := by
    show (if c.ctl.synced then (if _ then _ else _ : Receiver).nxt else _) = _
    rw [ackNum]
    split
    · split <;> rfl
    · rfl
  rw [Acked, hnum]
  exact lastACK_concat _ (by decide : tcpFlagACK.has tcpFlagACK = true)

theorem Acked.of_view (h : Acked c) (hout : c'.wire.out = c.wire.out) (hnum : c'.ackNum = c.ackNum) :
    Acked c' := by
  rw [Acked, hout, hnum]
  exact h

theorem Acked.quiet (h : Acked c) (hs : c.ctl.synced = true) (q : Quiet c c') : Acked c' := by
  obtain ⟨ps, hout, hack⟩ := q.sent
  have hnum : c'.ackNum = c.ackNum := by rw [ackNum, ackNum, q.synced, q.nxt, q.env]
  rw [Acked, hnum, hout]
  refine lastACK_append h fun p hp hf => ?_
  rw [(hack p hp hs hf).1, ackNum, if_pos hs]

theorem AckKept.quiet (h : AckKept c) (hs : c.ctl.synced = true) (q : Quiet c c')
    (hd : c'.timers.delayedACKTimer = c.timers.delayedACKTimer) : AckKept c' := by
  rcases h with h | h
  · exact .inl (h.quiet hs q)
  · exact .inr (by rw [hd]; exact h)

theorem AckKept.txOnly (h : AckKept c) (hs : c.ctl.synced = true) (t : TxOnly c c') : AckKept c' :=
  h.quiet hs (.of_txOnly t) t.delayed

/-! ### Segments in ESTABLISHED -/

theorem ackKept_scheduleACK {seg : Segment} (hp : seg.payload ≠ []) : AckKept (c.scheduleACK seg) := by
  rw [scheduleACK, if_neg (by simpa using hp)]
  split_ifs
  · exact .inl ((acked_sendACK _).of_view rfl rfl)
  · exact .inl ((acked_sendACK _).of_view rfl rfl)
  · exact .inr rfl

theorem AckKept.handleEstablished (h : AckKept c) (hs : c.ctl.synced = true) (seg : Segment) :
    (c.handleEstablished seg).ctl.state = .established → AckKept (c.handleEstablished seg) := by
  have t : TxOnly c (c.resetKeepalive.establishedACK seg) :=
    (TxOnly.resetKeepalive c).trans (.establishedACK _ seg)
  have h1 : AckKept (c.resetKeepalive.establishedACK seg) := h.txOnly hs t
  rw [TCPConn.handleEstablished, establishedFIN]
  split
  · split
    · intro hst
      cases hst
    · intro _
      by_cases hp : seg.payload = []
      · rw [takePayload, hp, handleData_nil, ite_self, scheduleACK, if_pos (by simp [hp])]
        exact h1.imp_left fun ha => ha.of_view rfl rfl
      · exact ackKept_scheduleACK hp
  · intro _
    by_cases hp : seg.payload = []
    · rw [takePayload, hp, handleData_nil, ite_self, scheduleACK, if_pos (by simp [hp])]
      exact h1
    · exact ackKept_scheduleACK hp

theorem updateTSRecent_view (c : TCPConn) (seg : Segment) :
    (c.updateTSRecent seg).wire.out = c.wire.out ∧ (c.updateTSRecent seg).timers = c.timers := by
  rw [updateTSRecent]
  split
  · split <;> exact ⟨rfl, rfl⟩
  · exact ⟨rfl, rfl⟩

theorem Acked.updateTSRecent (h : Acked c) (seg : Segment) : Acked (c.updateTSRecent seg) := by
  have t := TxOnly.updateTSRecent c seg
  refine h.of_view (updateTSRecent_view c seg).1 ?_
  rw [ackNum, ackNum, t.ctl, t.rx, t.env]

theorem AckKept.handleSegment (h : AckKept c) (hst : c.ctl.state = .established)
    (hs : c.ctl.synced = true) (seg : Segment) :
    (c.handleSegment seg).ctl.state = .established → AckKept (c.handleSegment seg) := by
  rw [TCPConn.handleSegment]
  split_ifs
  · exact fun _ => h
  · rw [handleRSTSegment]
    split_ifs
    · exact fun _ => h
    · rw [handleRST_ctl, Ctl.finish_state fun _ => rfl]
      exact fun he => by cases he
    · exact fun _ => .inl (acked_sendACK c)
    · exact fun _ => h
  · exact fun _ => .inl (acked_sendACK c)
  · have t := TxOnly.updateTSRecent c seg
    have hts : AckKept (c.updateTSRecent seg) := by
      rcases h with h | h
      · exact .inl (h.updateTSRecent seg)
      · exact .inr (by rw [(updateTSRecent_view c seg).2]; exact h)
    have hdisp : (c.updateTSRecent seg).dispatch seg = (c.updateTSRecent seg).handleEstablished seg := by
      rw [dispatch, t.ctl, hst]
    rw [hdisp]
    exact hts.handleEstablished (by rw [t.ctl]; exact hs) seg

/-! ### The handshake -/

/-- Before the handshake ends, all acknowledgments are of the SYN, and one has been sent. -/
structure SynAcked (c : TCPConn) : Prop where
  all : ∀ p ∈ c.wire.out, p.flags.has tcpFlagACK = true → p.ack = c.env.irs + 1
  one : ∃ p ∈ c.wire.out, p.flags.has tcpFlagACK = true

theorem SynAcked.last (h : SynAcked c) : lastACK c.wire.out = some (c.env.irs + 1) := by
  obtain ⟨p, hp, hf⟩ := h.one
  rw [lastACK]
  cases hl : (c.wire.out.filter fun p => p.flags.has tcpFlagACK).getLast? with
  | none =>
    have hnil := List.getLast?_eq_none_iff.1 hl
    exact absurd (List.mem_filter.2 ⟨hp, hf⟩) (by rw [hnil]; simp)
  | some q =>
    obtain ⟨hmem, hack⟩ := List.mem_filter.1 (List.mem_of_getLast? hl)
    exact congrArg some (h.all q hmem hack)

theorem SynAcked.send (h : SynAcked c) {ps : List OutSegment} (henv : c'.env = c.env)
    (hout : c'.wire.out = c.wire.out ++ ps)
    (hps : ∀ p ∈ ps, p.flags.has tcpFlagACK = true → p.ack = c.env.irs + 1) : SynAcked c' where
  all := by
    intro p hp hf
    rw [henv]
    rw [hout] at hp
    exact (List.mem_append.1 hp).elim (fun hp => h.all p hp hf) fun hp => hps p hp hf
  one := by
    obtain ⟨p, hp, hf⟩ := h.one
    exact ⟨p, by rw [hout]; exact List.mem_append_left _ hp, hf⟩

theorem SynAcked.sendACK (h : SynAcked c) (hs : c.ctl.synced = false) : SynAcked c.sendACK := by
  refine h.send rfl rfl fun p hp _ => ?_
  rw [List.mem_singleton.1 hp]
  simp [ackNum, hs]

theorem SynAcked.handleSegment (h : SynAcked c) (hst : c.ctl.state = .synRcvd)
    (hs : c.ctl.synced = false) (seg : Segment) :
    ((c.handleSegment seg).ctl.state = .synRcvd → SynAcked (c.handleSegment seg)) ∧
    ((c.handleSegment seg).ctl.state = .established → AckKept (c.handleSegment seg)) := by
  have hclosed : ∀ c : TCPConn, c.handleRST.ctl.state = .closed := by
    intro c
    rw [handleRST_ctl, Ctl.finish_state fun _ => rfl]
  have hstay : ∀ {c' : TCPConn}, SynAcked c' → c'.ctl.state = .synRcvd →
      (c'.ctl.state = .synRcvd → SynAcked c') ∧ (c'.ctl.state = .established → AckKept c') :=
    fun hc he => ⟨fun _ => hc, fun h => absurd (he.symm.trans h) (by simp)⟩
  have hreset : ∀ {c' : TCPConn}, (c'.handleRST.ctl.state = .synRcvd → SynAcked c'.handleRST) ∧
      (c'.handleRST.ctl.state = .established → AckKept c'.handleRST) := by
    intro c'
    rw [hclosed]
    exact ⟨(fun h => by cases h), (fun h => by cases h)⟩
  rw [TCPConn.handleSegment]
  split_ifs with hpaws hr hsyn
  · exact hstay h hst
  · rw [handleRSTSegment]
    split_ifs
    · exact hstay h hst
    · exact hreset
    · exact hstay (h.sendACK hs) hst
    · exact hstay h hst
  · exact absurd hst hsyn.2
  · have t := TxOnly.updateTSRecent c seg
    have hts : SynAcked (c.updateTSRecent seg) := by
      have hout : (c.updateTSRecent seg).wire.out = c.wire.out ++ [] := by
        rw [(updateTSRecent_view c seg).1, List.append_nil]
      exact h.send t.env hout (by simp)
    have hst' : (c.updateTSRecent seg).ctl.state = .synRcvd := by rw [t.ctl]; exact hst
    have hs' : (c.updateTSRecent seg).ctl.synced = false := by rw [t.ctl]; exact hs
    have hdisp : (c.updateTSRecent seg).dispatch seg = (c.updateTSRecent seg).handleSynRcvd seg := by
      rw [dispatch, hst']
    rw [hdisp, handleSynRcvd]
    split_ifs
    · exact hstay (hts.sendACK hs') hst'
    · exact hreset
    · refine ⟨fun he => ?_, fun _ => .inl ?_⟩
      · exact absurd ((opened_rxOnly c seg).synRcvd he) (by simp [establish, TCPConn.setState])
      · rw [synPayload]
        split
        · exact hts.last
        · exact (acked_sendACK _).of_view rfl rfl
    · refine hstay (hts.send rfl rfl fun p hp _ => ?_) hst'
      rw [List.mem_singleton.1 hp]
    · exact hstay hts hst'

/-! ### The other cases of the select loop -/

/-- What a case of the select loop other than a segment does about the delayed ACK. -/
def DelayKept (c c' : TCPConn) : Prop :=
  c'.timers.delayedACKTimer = c.timers.delayedACKTimer ∨ Acked c' ∨ c'.ctl.state ≠ .established

theorem armRTO_delayed (c : TCPConn) :
    c.armRTO.timers.delayedACKTimer = c.timers.delayedACKTimer := by
  rw [armRTO]
  split <;> rfl

theorem finalizeFIN_delayed (c : TCPConn) :
    c.finalizeFIN.timers.delayedACKTimer = c.timers.delayedACKTimer := by
  rw [finalizeFIN.eq_def]
  split <;> rfl

theorem finIfDrained_delayed (c : TCPConn) :
    c.finIfDrained.timers.delayedACKTimer = c.timers.delayedACKTimer := by
  rw [finIfDrained]
  split
  · exact finalizeFIN_delayed c
  · rfl

theorem manageRTO_delayed (c : TCPConn) :
    c.manageRTO.timers.delayedACKTimer = c.timers.delayedACKTimer := by
  rw [manageRTO]
  split_ifs
  · rfl
  · exact armRTO_delayed c
  · rfl

theorem drainForFIN_delayed (c : TCPConn) :
    c.drainForFIN.timers.delayedACKTimer = c.timers.delayedACKTimer := by
  rw [drainForFIN]
  split
  · exact (finIfDrained_delayed _).trans (TxOnly.sendPending c).delayed
  · rfl

theorem handleRTO_delayed (c : TCPConn) :
    c.handleRTO.timers.delayedACKTimer = c.timers.delayedACKTimer := by
  have habort : ∀ c : TCPConn, c.abort.timers.delayedACKTimer = c.timers.delayedACKTimer := by
    intro c
    rw [abort, closeDone]
    split <;> split <;> rfl
  rw [handleRTO]
  split_ifs
  · rfl
  · exact (TxOnly.backOff c).delayed
  · exact habort _
  · exact ((TxOnly.countRetry c).trans (.backOff _)).delayed

theorem handleClose_delayed (c : TCPConn) :
    c.handleClose.timers.delayedACKTimer = c.timers.delayedACKTimer := by
  have hfin : c.flush.finOrDefer.timers.delayedACKTimer = c.timers.delayedACKTimer := by
    rw [← (TxOnly.flush c).delayed, finOrDefer]
    split
    · rfl
    · exact finalizeFIN_delayed _
  rw [handleClose.eq_def]
  split
  · exact hfin
  · exact hfin
  · rfl

theorem delayKept_exitRun (c : TCPConn) {c' : TCPConn} (hd : c'.ctl.DoneClosed) :
    DelayKept c c'.exitRun := by
  refine .inr (.inr ?_)
  rw [exitRun_ctl]
  show c'.ctl.finish.state ≠ _
  rw [Ctl.finish_state hd]
  simp

theorem delayKept_onRTO (c : TCPConn) : DelayKept c c.onRTO := by
  refine .inl ?_
  rw [onRTO, rearmRTO]
  split_ifs
  · rw [armRTO_delayed]
    exact handleRTO_delayed _
  · exact handleRTO_delayed _
  · rfl

theorem delayKept_onZeroWindow (c : TCPConn) : DelayKept c c.onZeroWindow := by
  refine .inl ?_
  rw [onZeroWindow]
  split
  · exact (TxOnly.sendZeroWindowProbe c.stopZeroWindow).delayed
  · rfl

theorem delayKept_onKeepalive {c : TCPConn} (hd : c.ctl.DoneClosed) : DelayKept c c.onKeepalive := by
  rw [onKeepalive]
  split_ifs
  · exact .inl rfl
  · exact delayKept_exitRun c hd
  · exact .inl rfl
  · exact .inl rfl

theorem delayKept_onWindowNotify (c : TCPConn) : DelayKept c c.onWindowNotify := by
  rw [onWindowNotify]
  split
  · exact .inr (.inl ((acked_sendACK _).of_view rfl rfl))
  · exact .inl rfl

theorem delayKept_onClose (c : TCPConn) : DelayKept c c.onClose := by
  refine .inl ?_
  rw [onClose]
  split
  · rw [armRTO_delayed, handleClose_delayed]
  · rw [handleClose_delayed]

/-! ### The write notification -/

/-- A `sendPending` that does not stop at its first turn sends an acknowledgment. -/
theorem acked_sendPending (hs : c.ctl.synced = true) (hm : c.Sizes) (hgo : ¬c.Held) :
    Acked c.sendPending := by
  have hb := (sendPendingStep_cases hm).resolve_left fun h => hgo h.2
  obtain ⟨p, hout, hflags, hack⟩ := hb.sent
  have t := TxOnly.sendPendingStep c
  have hs' : c.sendPendingStep.1.ctl.synced = true := by rw [t.ctl]; exact hs
  have hfirst : Acked c.sendPendingStep.1 := by
    rw [Acked, hout, lastACK_concat _ (by rw [hflags]; decide), hack, ackNum, if_pos hs', t.rx]
  rw [sendPending, Loop.loop, if_pos hb.again]
  refine hfirst.quiet hs' (.of_txOnly (Loop.loop_rel TxOnly .trans TxOnly.sendPendingStep ?_ _ _))
  exact fun c => .of_silent rfl

/-- The write notification finds no delayed acknowledgment to cancel, or sends a segment. -/
def PiggybackSafe (c : TCPConn) : Prop :=
  c.ctl.state = .established → c.timers.unackedSegs > 0 → lastACK c.wire.out ≠ some c.rx.rcv.nxt →
    1 ≤ c.tx.snd.mss ∧ ¬c.Held

theorem delayKept_onWriteNotify (hst : c.ctl.state = .established) (hs : c.ctl.synced = true)
    (hmss : 1 ≤ c.tx.snd.mss → c.tx.snd.mss ≤ maxPayloadSize) (hw : PiggybackSafe c) : DelayKept c c.onWriteNotify := by
  by_cases ha : Acked c
  · exact .inr (.inl (ha.quiet hs (.onWriteNotify c)))
  have hfin : ∀ c' : TCPConn, Acked c' ∧ c'.ctl.synced = true ∨
      c'.timers.delayedACKTimer = c.timers.delayedACKTimer →
      DelayKept c (if c.ctl.finPending then c'.finIfDrained else c') := by
    intro c' h
    split
    · rcases h with ⟨h, hs'⟩ | h
      · exact .inr (.inl (h.quiet hs' (.finIfDrained c')))
      · exact .inl ((finIfDrained_delayed c').trans h)
    · exact h.elim (fun h => .inr (.inl h.1)) .inl
  have hsent : TxOnly { c with app.writeNotify := false }
      { c with app.writeNotify := false }.sendPending.resetKeepalive.checkZeroWindow :=
    ((TxOnly.sendPending _).trans (.resetKeepalive _)).trans (.checkZeroWindow _)
  rw [onWriteNotify, if_pos hs]
  refine hfin _ ?_
  rw [onWriteNotifySend, armRTO_delayed]
  by_cases hsegs : c.timers.unackedSegs > 0
  · rw [Acked, ackNum, if_pos hs] at ha
    obtain ⟨hpos, hgo⟩ := hw hst hsegs ha
    have hfirst : Acked { c with app.writeNotify := false }.sendPending :=
      acked_sendPending hs ⟨hpos, hmss hpos⟩ hgo
    have hrest : Quiet { c with app.writeNotify := false }.sendPending c.onWriteNotifySend :=
      ((Quiet.of_txOnly ((TxOnly.resetKeepalive _).trans (.checkZeroWindow _))).trans
        (.piggyback _)).trans (.armRTO _)
    have hs' : { c with app.writeNotify := false }.sendPending.ctl.synced = true := by
      rw [(TxOnly.sendPending _).ctl]
      exact hs
    exact .inl ⟨hfirst.quiet hs' hrest, hrest.synced.trans hs'⟩
  · rw [piggyback, if_neg (by rw [hsent.segs]; exact hsegs)]
    exact .inr hsent.delayed

/-! ### Runs -/

/-- The acknowledgments a connection owes. -/
structure AckInv (c : TCPConn) : Prop where
  syn : c.ctl.state = .synRcvd → SynAcked c
  est : c.ctl.state = .established → AckKept c

theorem QuietCtl.established {k : Ctl} (h : QuietCtl c k) (hk : k.state = .established) :
    c.ctl.state = .established := by
  have hfinish : c.ctl.finish.state = .established → c.ctl.state = .established := by
    intro he
    exact c.ctl.finish_keep.2.elim (fun h => h.symm.trans he) fun h => absurd (h.symm.trans he) (by simp)
  cases h with
  | same => exact hk
  | finish => exact hfinish hk
  | exit => exact hfinish hk
  | defer => exact hk
  | finalize =>
    rw [Ctl.finalize.eq_def] at hk
    split at hk
    · assumption
    · cases hk
    · exact hk

theorem CtlStep.established {seg : Segment} {k : Ctl} (h : CtlStep c seg k)
    (hk : k.state = .established) : c.ctl.state = .established ∨ c.ctl.state = .synRcvd := by
  cases h with
  | same => exact .inl hk
  | reset =>
    rw [Ctl.finish_state fun _ => rfl] at hk
    cases hk
  | opened hs => exact .inr hs
  | lastAck hs =>
    exact absurd (c.ctl.finish_keep.2.elim (fun h => (h.symm.trans hk).symm.trans hs)
      fun h => absurd (h.symm.trans hk) (by simp)) (by simp)
  | finWait1 _ _ hto => rcases hto with rfl | rfl | rfl <;> cases hk
  | fin | finTwice | caught | finWait2 | closing => cases hk

theorem CtlStep.synRcvd {seg : Segment} {k : Ctl} (h : CtlStep c seg k)
    (hk : k.state = .synRcvd) : c.ctl.state = .synRcvd ∧ k.synced = c.ctl.synced := by
  cases h with
  | same => exact ⟨hk, rfl⟩
  | reset =>
    rw [Ctl.finish_state fun _ => rfl] at hk
    cases hk
  | lastAck =>
    exact ⟨c.ctl.finish_keep.2.elim (fun h => h.symm.trans hk) fun h => absurd (h.symm.trans hk)
      (by simp), c.ctl.finish_keep.1⟩
  | finWait1 _ _ hto => rcases hto with rfl | rfl | rfl <;> cases hk
  | opened | fin | finTwice | caught | finWait2 | closing => cases hk

end TCPConn

open TCPConn

/-- A write notification that finds an acknowledgment pending sends a segment that carries it. -/
def KeepsDelayedACK (s : Sys) : Event → Prop
  | .writeNotify => s.conn.PiggybackSafe
  | _ => True

theorem Sys.Step.delayKept {s s' : Sys} {e : Event} (h : Sys.Step s e s') (he : Sys.quiet e = true)
    (hd : s.conn.ctl.DoneClosed) (hs : s.conn.ctl.synced = true)
    (hst : s.conn.ctl.state = .established)
    (hmss : 1 ≤ s.conn.tx.snd.mss → s.conn.tx.snd.mss ≤ maxPayloadSize)
    (hok : KeepsDelayedACK s e) : DelayKept s.conn s'.conn := by
  cases h
  case inbound | forceCloseCh | readCall | closeRead => cases he
  case rtoTimer => exact delayKept_onRTO _
  case delayedACKTimer => exact .inr (.inl ((acked_sendACK _).of_view rfl rfl))
  case zeroWindowTimer => exact delayKept_onZeroWindow _
  case keepaliveTimer => exact delayKept_onKeepalive hd
  case writeNotify => exact delayKept_onWriteNotify hst hs hmss hok
  case windowNotify => exact delayKept_onWindowNotify _
  case closeCh => exact delayKept_onClose _
  case synRcvdTimer =>
    rw [onSynRcvdTimer]
    split
    · exact delayKept_exitRun _ hd
    · exact .inl rfl
  case finWait2Timer =>
    rw [onFinWait2Timer]
    split
    · exact delayKept_exitRun _ hd
    · exact .inl rfl
  case timeWaitTimer | done => exact delayKept_exitRun _ hd
  case writeCall =>
    rw [growWriteBuf]
    split <;> exact .inl rfl
  case closeWrite =>
    rw [TCPConn.closeWrite]
    split <;> exact .inl rfl
  all_goals exact .inl rfl

theorem ackInv_inbound {c : TCPConn} {seg : Segment} (h : AckInv c)
    (hs : c.ctl.state = .established → c.ctl.synced = true)
    (hu : c.ctl.state = .synRcvd → c.ctl.synced = false)
    (hs' : (c.onInbound seg).ctl.state = .established → (c.onInbound seg).ctl.synced = true) :
    AckInv (c.onInbound seg) := by
  have q : Quiet (c.handleSegment seg) (c.onInbound seg) :=
    (Quiet.manageRTO _).trans (.drainForFIN _)
  have hctl := handleSegment_ctl c seg
  refine ⟨fun hst => ?_, fun hst => ?_⟩
  · obtain ⟨hst', hsync⟩ := hctl.synRcvd (q.synRcvd hst)
    have hkeep : c.onInbound seg = c.handleSegment seg := by
      simp [onInbound, manageRTO, drainForFIN, hsync, hu hst']
    rw [hkeep] at hst ⊢
    exact ((h.syn hst').handleSegment hst' (hu hst') seg).1 hst
  · have hst' : (c.handleSegment seg).ctl.state = .established := by
      rw [← manageRTO_ctl]
      rcases drainForFIN_ctl (c.handleSegment seg).manageRTO with he | ⟨hp, he⟩
      · rw [← he]
        exact hst
      · refine QuietCtl.established (.finalize (.inl hp)) ?_
        rw [← he]
        exact hst
    have hkept : AckKept (c.handleSegment seg) := by
      rcases hctl.established hst' with hc | hc
      · exact (h.est hc).handleSegment hc (hs hc) seg hst'
      · exact ((h.syn hc).handleSegment hc (hu hc) seg).2 hst'
    exact hkept.quiet (q.synced.symm.trans (hs' hst)) q (by
      rw [onInbound, drainForFIN_delayed, manageRTO_delayed])

theorem ackInv_init {s : Sys} (h : s.Init) : AckInv s.conn := by
  obtain ⟨h, irs, iss, options, hr, hw, -, rfl⟩ := Sys.init_iff.1 h
  refine ⟨fun _ => ⟨?_, ?_⟩, (fun he => by cases he)⟩
  · intro p hp _
    rw [List.mem_singleton.1 (show p ∈ [_] from hp)]
    rfl
  · exact ⟨_, List.mem_singleton.2 rfl, (by decide : (tcpFlagSYN ||| tcpFlagACK).has tcpFlagACK = true)⟩

theorem established_synced {ok : Sys → Event → Prop} {s : Sys}
    (hr : Reach Sys.Init Sys.step ok s) (hst : s.conn.ctl.state = .established) :
    s.conn.ctl.synced = true :=
  (syncedInside_reach hr).resolve_right (by rw [hst]; simp)

theorem synAcked_quiet {s s' : Sys} {e : Event} (h : SynAcked s.conn) (hstep : Sys.Step s e s')
    (hq : Sys.quiet e = true) (hst : s.conn.ctl.state = .synRcvd)
    (hs : s.conn.ctl.synced = false) : SynAcked s'.conn := by
  have q := hstep.quiet hq
  obtain ⟨ps, hout, -⟩ := q.sent
  refine h.send q.env hout fun p hp hf => ?_
  rcases (hstep.unsynced hq hs (.inl hst)).1 p (by rw [hout]; exact List.mem_append_right _ hp) with
    hold | hack
  · exact h.all p hold hf
  · exact hack

theorem ackInv_step {s s' : Sys} {e : Event} (hr : Reach Sys.Init Sys.step KeepsDelayedACK s)
    (hr' : Reach Sys.Init Sys.step KeepsDelayedACK s') (h : AckInv s.conn)
    (hok : KeepsDelayedACK s e) (hstep : Sys.Step s e s') : AckInv s'.conn := by
  have hd := doneClosed_reach hr
  by_cases hq : Sys.quiet e = true
  · have q := hstep.quiet hq
    refine ⟨fun hst => ?_, fun hst => ?_⟩
    · have hst' := q.synRcvd hst
      exact synAcked_quiet (h.syn hst') hstep hq hst' (unsynced_reach hr hst')
    · have hst' : s.conn.ctl.state = .established := by
        rcases hstep.ctl with ⟨seg, k, rfl, -, -⟩ | ⟨-, hk⟩
        · cases hq
        · exact hk.established hst
      have hs := established_synced hr hst'
      have hmss : 1 ≤ s.conn.tx.snd.mss → s.conn.tx.snd.mss ≤ maxPayloadSize := fun hm =>
        (sendInv_reach (reach_positiveMSS hr fun _ => hm)).mss_le hs
      rcases hstep.delayKept hq hd hs hst' hmss hok with hsame | ha | hne
      · exact (h.est hst').quiet hs q hsame
      · exact .inl ha
      · exact absurd hst hne
  · cases hstep
    case inbound seg _ =>
      exact ackInv_inbound h (established_synced hr) (unsynced_reach hr) (established_synced hr')
    case forceCloseCh =>
      have hclosed : s.conn.onForceClose.ctl.state = .closed := by
        rw [onForceClose]
        split <;> (rw [exitRun_ctl]; exact Ctl.finish_state hd)
      exact ⟨fun he => absurd (hclosed.symm.trans he) (by simp), fun he =>
        absurd (hclosed.symm.trans he) (by simp)⟩
    case readCall => exact ⟨fun hst => ⟨(h.syn hst).all, (h.syn hst).one⟩, h.est⟩
    case closeRead =>
      rw [TCPConn.closeRead]
      split
      · exact h
      · exact ⟨fun hst => ⟨(h.syn hst).all, (h.syn hst).one⟩, h.est⟩
    all_goals exact absurd rfl hq

theorem ackInv_reach {s : Sys} (hr : Reach Sys.Init Sys.step KeepsDelayedACK s) :
    AckInv s.conn := by
  induction hr with
  | start h => exact ackInv_init h
  | next hr hok he ih => exact ackInv_step hr (.next hr hok he) ih hok (Sys.step_inv he).2

/-- SAFE: in every run whose write notifications keep to `PiggybackSafe`, an established connection
    that has received more than it has acknowledged has its delayed-ACK timer armed. -/
theorem delayed_ack_armed {s : Sys} (hr : Reach Sys.Init Sys.step KeepsDelayedACK s)
    (hst : s.conn.ctl.state = .established)
    (howed : lastACK s.conn.wire.out ≠ some s.conn.rx.rcv.nxt) :
    s.conn.timers.delayedACKTimer.armed = true := by
  refine ((ackInv_reach hr).est hst).resolve_left ?_
  rw [Acked, ackNum, if_pos (established_synced hr hst)]
  exact howed

/-- Executable form of `KeepsDelayedACK`. -/
def keepsDelayedACK (s : Sys) : Event → Bool
  | .writeNotify => s.conn.timers.unackedSegs == 0
  | _ => true

theorem keepsDelayedACK_sound {s : Sys} {e : Event} (h : keepsDelayedACK s e = true) :
    KeepsDelayedACK s e := by
  cases e
  case writeNotify =>
    intro _ hsegs
    exact absurd (beq_iff_eq.1 h) (by omega)
  all_goals exact trivial

/-- A byte comes in, and its acknowledgment is on the timer. -/
theorem delayed_ack_armed_byte : ∃ s, Reach Sys.Init Sys.step KeepsDelayedACK s ∧
    s.conn.ctl.state = .established ∧ lastACK s.conn.wire.out ≠ some s.conn.rx.rcv.nxt ∧
    s.conn.timers.delayedACKTimer.armed = true := by
  obtain ⟨s, hr, hst, howed⟩ := Sys.exists_reach Sys.init_sample keepsDelayedACK
    (fun s => s.conn.ctl.state = .established ∧
      lastACK s.conn.wire.out ≠ some s.conn.rx.rcv.nxt)
    [Sys.sampleACK, .inbound (Sys.sampleSegment tcpFlagACK 101 201 1000 [7])] (by decide +kernel)
  have hr' := hr.mono fun s e hok => keepsDelayedACK_sound hok
  exact ⟨s, hr', hst, howed, delayed_ack_armed hr' hst howed⟩

/-- A byte comes in on a segment that closes the peer's window, and a byte is written: the write
    notification sends nothing and cancels the acknowledgment. -/
theorem delayed_ack_lost : ∃ s, Reach Sys.Init Sys.step (fun _ _ => True) s ∧
    s.conn.ctl.state = .established ∧ lastACK s.conn.wire.out ≠ some s.conn.rx.rcv.nxt ∧
    s.conn.timers.delayedACKTimer.armed = false := by
  obtain ⟨s, hr, hs⟩ := Sys.exists_reach Sys.init_sample (fun _ _ => true)
    (fun s => s.conn.ctl.state = .established ∧
      lastACK s.conn.wire.out ≠ some s.conn.rx.rcv.nxt ∧
      s.conn.timers.delayedACKTimer.armed = false)
    [Sys.sampleACK, .inbound (Sys.sampleSegment tcpFlagACK 101 201 0 [7]), .writeCall 0 [1],
      .writeCopy 0, .writeCopy 0, .writeReturn 0, .writeNotify] (by decide +kernel)
  exact ⟨s, hr.mono fun _ _ _ => trivial, hs⟩

end Netstack.Tcp
