import Netstack.Tcp.AckOnce

/-! The retransmission timer.

    Each case of the select loop that can send arms the timer in its own copy of the code. Two do it
    too early or not at all: the persist timer sends a probe and leaves the RTO timer as it was, and
    after an inbound segment the deferred FIN is sent when the timer has already been stopped. -/

namespace Netstack.Tcp
open Netstack.Header Netstack.Trace

namespace TCPConn

variable {c c' c'' : TCPConn} {ack : UInt32}

/-! ### What is left outstanding by an acknowledgment -/

theorem dropAcked_congr (ack : UInt32) : ∀ {l l' : List UnackedSegment},
    l.map UnackedSegment.sent = l'.map UnackedSegment.sent →
    (dropAcked ack l).map UnackedSegment.sent = (dropAcked ack l').map UnackedSegment.sent
  | [], [], _ => rfl
  | [], _ :: _, h => by cases h
  | _ :: _, [], h => by cases h
  | e :: l, e' :: l', h => by
      rw [List.map_cons, List.map_cons, List.cons.injEq] at h
      obtain ⟨hhead, htail⟩ := h
      have hsent := hhead
      simp only [UnackedSegment.sent, Prod.mk.injEq] at hsent
      have hend : e.segEnd = e'.segEnd := by
        rw [UnackedSegment.segEnd, UnackedSegment.segEnd, hsent.1, hsent.2.1, hsent.2.2]
      rw [dropAcked, dropAcked, hend, hsent.1]
      split_ifs
      · rw [List.map_cons, List.map_cons, hhead, htail]
      · exact dropAcked_congr ack htail
      · rw [List.map_cons, List.map_cons, hhead, htail]

theorem dropAcked_append_ne_nil (ack : UInt32) (m : List UnackedSegment) :
    ∀ {l : List UnackedSegment}, dropAcked ack l ≠ [] → dropAcked ack (l ++ m) ≠ []
  | [], h => absurd rfl h
  | e :: l, h => by
      rw [dropAcked] at h
      rw [List.cons_append, dropAcked]
      split_ifs at h ⊢
      · simp
      · exact dropAcked_append_ne_nil ack m h
      · simp

theorem dropAcked_idem (ack : UInt32) : ∀ l : List UnackedSegment,
    dropAcked ack (dropAcked ack l) = dropAcked ack l
  | [] => rfl
  | e :: l => by
      rw [dropAcked]
      split_ifs with hnew hend
      · rw [dropAcked, if_pos hnew]
      · exact dropAcked_idem ack l
      · rw [dropAcked, if_neg hnew, if_neg hend]

/-- Something in the queue is not covered by `ack`. -/
def Outstanding (ack : UInt32) (c : TCPConn) : Prop := dropAcked ack c.tx.snd.unacked ≠ []

theorem Outstanding.hasUnacked (h : Outstanding ack c) : c.hasUnacked = true := by
  rw [TCPConn.hasUnacked]
  cases hq : c.tx.snd.unacked with
  | nil => rw [Outstanding, hq] at h; exact absurd rfl h
  | cons => rfl

theorem Outstanding.grows (h : Outstanding ack c) (hg : Grows c c') : Outstanding ack c' := by
  obtain ⟨m, hm⟩ := hg
  -- split the new queue at the length of the old one
  have hsplit := List.take_append_drop c.tx.snd.unacked.length c'.tx.snd.unacked
  have htake : (c'.tx.snd.unacked.take c.tx.snd.unacked.length).map UnackedSegment.sent
      = c.tx.snd.unacked.map UnackedSegment.sent := by
    rw [List.map_take, ← hm, List.take_left' (List.length_map _)]
  rw [Outstanding, ← hsplit]
  refine dropAcked_append_ne_nil ack _ fun hnil => h ?_
  have hcongr := dropAcked_congr ack htake
  rw [hnil, List.map_nil] at hcongr
  exact List.map_eq_nil_iff.1 hcongr.symm

theorem Outstanding.resends (h : Outstanding ack c) (hr : Resends c c') : Outstanding ack c' :=
  h.grows (.of_resends hr)

theorem Outstanding.handleACK (h : Outstanding ack c) : Outstanding ack (c.handleACK ack) := by
  rw [TCPConn.handleACK]
  split_ifs
  · exact h.grows (.handleDupACK c)
  · exact h
  · obtain ⟨s, t, ⟨_, _, _, rfl⟩, he⟩ := removeAcked_eq (c.advanceUna ack) ack
    have hacked : Outstanding ack ((c.advanceUna ack).removeAcked ack) := by
      rw [he]
      show dropAcked ack (dropAcked ack c.tx.snd.unacked) ≠ []
      rw [dropAcked_idem]
      exact h
    exact (hacked.resends (.updateCwnd _ _ _)).grows (.sendPending _)

theorem Outstanding.handleSegment {seg : Segment} (h : Outstanding seg.ack c)
    (hs : c.ctl.state ≠ .synRcvd) : Outstanding seg.ack (c.handleSegment seg) := by
  obtain ⟨c₁, c₂, h₁, hack, h₂⟩ := AcksOnce.handleSegment c seg hs
  have hmid : Outstanding seg.ack c₂ := by
    rcases hack with rfl | rfl
    · exact h.resends h₁.resends
    · exact (h.resends h₁.resends).handleACK
  exact hmid.grows h₂.grows

/-! ### The timer -/

/-- What is outstanding will be sent again, and a deferred FIN has data before it. -/
structure RTOInv (c : TCPConn) : Prop where
  armed : c.ctl.state ≠ .closed → c.hasUnacked = true → c.tx.rtoTimer.armed = true
  deferred : c.ctl.finPending = true → c.hasUnacked = true ∨ c.tx.writeBuf.len ≠ 0

theorem armRTO_armed (h : c.hasUnacked = true) : c.armRTO.tx.rtoTimer.armed = true := by
  rw [armRTO, if_pos h]
  rfl

theorem manageRTO_armed (hs : c.ctl.synced = true) (h : c.manageRTO.hasUnacked = true) :
    c.manageRTO.tx.rtoTimer.armed = true := by
  rw [hasUnacked_resends (.manageRTO c)] at h
  rw [manageRTO, if_neg (by simp [hs]), if_pos h]
  exact armRTO_armed h

theorem finalizeFIN_rtoTimer (c : TCPConn) : c.finalizeFIN.tx.rtoTimer = c.tx.rtoTimer := by
  rw [finalizeFIN.eq_def]
  split <;> rfl

theorem finIfDrained_rtoTimer (c : TCPConn) : c.finIfDrained.tx.rtoTimer = c.tx.rtoTimer := by
  rw [finIfDrained]
  split
  · exact finalizeFIN_rtoTimer c
  · rfl

theorem finalizeFIN_finPending (c : TCPConn) : c.finalizeFIN.ctl.finPending = false := by
  rw [finalizeFIN.eq_def]
  split <;> rfl

/-- A FIN that is still deferred waits for data in `writeBuf`. -/
theorem finIfDrained_deferred : c.finIfDrained.ctl.finPending = true →
    c.finIfDrained.tx.writeBuf.len ≠ 0 := by
  rw [finIfDrained]
  split
  · rw [finalizeFIN_finPending]
    exact fun h => by cases h
  · exact fun _ => ‹_›

/-- Sending again changes nothing a deferred FIN waits for. -/
theorem RTOInv.deferred_resends (h : RTOInv c) (hr : Resends c c') (hp : c'.ctl.finPending = true) :
    c'.hasUnacked = true ∨ c'.tx.writeBuf.len ≠ 0 := by
  rw [hasUnacked_resends hr, ← RingBuffer.length_contents, hr.contents, RingBuffer.length_contents]
  refine h.deferred ?_
  rw [← (Transmits.of_resends hr).finPending]
  exact hp

theorem RTOInv.resends (h : RTOInv c) (hr : Resends c c')
    (hsame : c'.ctl.state = .closed ∨ c'.ctl.state = c.ctl.state ∧ c'.tx.rtoTimer = c.tx.rtoTimer) :
    RTOInv c' where
  armed hs hu := by
    obtain ⟨hstate, htimer⟩ := hsame.resolve_left hs
    rw [htimer]
    refine h.armed (by rw [← hstate]; exact hs) ?_
    rw [← hasUnacked_resends hr]
    exact hu
  deferred := h.deferred_resends hr

theorem RTOInv.exitRun (h : RTOInv c) (hd : c.ctl.DoneClosed) : RTOInv c.exitRun := by
  refine h.resends (.exitRun c) (.inl ?_)
  rw [exitRun_ctl]
  exact Ctl.finish_state hd

/-- A connection whose last step was to arm the timer. -/
theorem RTOInv.armRTO (hdef : c.ctl.finPending = true → c.hasUnacked = true ∨ c.tx.writeBuf.len ≠ 0) :
    RTOInv c.armRTO := by
  refine ⟨fun _ hu => ?_, fun hp => ?_⟩
  · rw [hasUnacked_resends (.armRTO c)] at hu
    exact armRTO_armed hu
  · rw [armRTO_ctl] at hp
    rw [hasUnacked_resends (.armRTO c), ← RingBuffer.length_contents, (Resends.armRTO c).contents,
      RingBuffer.length_contents]
    exact hdef hp

theorem rtoInv_onInbound (hfresh : c.ctl.synced = false → Fresh c)
    (hsyn : Unsynced c) {seg : Segment} (hok : c.ctl.finPending = true → Outstanding seg.ack c) :
    RTOInv (c.onInbound seg) := by
  have hpend : (c.handleSegment seg).manageRTO.ctl.finPending = c.ctl.finPending := by
    rw [manageRTO_ctl]
    rcases handleSegment_cases c seg with ht | ⟨-, he⟩
    · exact ht.finPending
    · rw [he, opened_finPending]
  have harmed : (c.handleSegment seg).manageRTO.hasUnacked = true →
      (c.handleSegment seg).manageRTO.tx.rtoTimer.armed = true := by
    intro hu
    refine manageRTO_armed ?_ hu
    rw [hasUnacked_resends (.manageRTO _)] at hu
    -- before the handshake ends nothing is queued
    rcases handleSegment_cases c seg with ht | ⟨-, he⟩
    · rw [ht.synced]
      by_contra hs
      have hq := ((hfresh (by simpa using hs)).transmits ht).queue
      rw [hasUnacked, hq] at hu
      cases hu
    · rw [he]
      exact (opened_rxOnly c seg).synced
  rw [TCPConn.onInbound, drainForFIN]
  split
  · rename_i hp
    rw [hpend] at hp
    have hne : c.ctl.state ≠ .synRcvd := by
      intro hs
      rw [(hfresh (hsyn hs)).finPending] at hp
      exact absurd hp.1 (by simp)
    have hout := ((hok hp.1).handleSegment hne).resends (.manageRTO _)
    refine ⟨fun _ _ => ?_, fun hd => .inr (finIfDrained_deferred hd)⟩
    rw [finIfDrained_rtoTimer, (TxOnly.sendPending _).rtoTimer]
    exact harmed hout.hasUnacked
  · rename_i hp
    refine ⟨fun _ hu => harmed hu, fun hd => ?_⟩
    rw [hpend] at hd
    have hsync : c.ctl.synced = true := by
      by_contra hs
      rw [(hfresh (by simpa using hs)).finPending] at hd
      cases hd
    exact absurd ⟨hpend.trans hd, by
      rw [manageRTO_ctl]
      rcases handleSegment_cases c seg with ht | ⟨-, he⟩
      · rw [ht.synced, hsync]
      · rw [he]; exact (opened_rxOnly c seg).synced⟩ hp

theorem RTOInv.onRTO (h : RTOInv c) (hfresh : c.ctl.synced = false → Fresh c) : RTOInv c.onRTO := by
  refine ⟨?_, h.deferred_resends (.onRTO c)⟩
  rw [TCPConn.onRTO]
  split
  · rw [rearmRTO]
    split
    · intro _ hu
      rw [hasUnacked_resends (.armRTO _)] at hu
      exact armRTO_armed hu
    · rename_i hs
      exact fun hne => absurd hne hs
  · rename_i hs
    intro _ hu
    have hq := (hfresh (by simpa using hs)).queue
    rw [show c.stopRTO.hasUnacked = c.hasUnacked from rfl, hasUnacked, hq] at hu
    cases hu

theorem RTOInv.onZeroWindow (h : RTOInv c)
    (hok : c.tx.zeroWindowProbing = true → c.hasUnacked = true ∨ c.tx.writeBuf.len = 0) :
    RTOInv c.onZeroWindow := by
  have hstop : RTOInv c.stopZeroWindow := ⟨h.armed, h.deferred⟩
  have t : TxOnly c.stopZeroWindow c.stopZeroWindow.sendZeroWindowProbe := .sendZeroWindowProbe _
  rw [TCPConn.onZeroWindow]
  split
  · rename_i hp
    rcases sendZeroWindowProbe_cases (c := c.stopZeroWindow) hp.1 with ⟨-, he⟩ | ⟨hlen, -, hu⟩
    · rw [he]
      have hend := hstop.resends (.cancelZeroWindowProbe _)
        (.inr ⟨by rw [(TxOnly.cancelZeroWindowProbe _).ctl],
          (TxOnly.cancelZeroWindowProbe _).rtoTimer⟩)
      exact ⟨hend.armed, hend.deferred⟩
    · -- with something outstanding already, the timer has been armed
      have hbefore := (hok hp.2).resolve_right hlen
      refine ⟨fun hs _ => ?_, fun _ => .inl hu⟩
      show c.stopZeroWindow.sendZeroWindowProbe.tx.rtoTimer.armed = true
      rw [t.rtoTimer]
      refine hstop.armed (fun hc => hs ?_) hbefore
      show c.stopZeroWindow.sendZeroWindowProbe.ctl.state = _
      rw [t.ctl]
      exact hc
  · exact ⟨h.armed, h.deferred⟩

theorem RTOInv.onKeepalive (h : RTOInv c) (hd : c.ctl.DoneClosed) : RTOInv c.onKeepalive := by
  refine h.resends (.onKeepalive c) ?_
  rw [TCPConn.onKeepalive]
  split_ifs
  · exact .inr ⟨rfl, rfl⟩
  · left
    rw [exitRun_ctl]
    exact Ctl.finish_state hd
  · exact .inr ⟨rfl, rfl⟩
  · exact .inr ⟨rfl, rfl⟩

theorem onWriteNotifySend_resends (c : TCPConn) :
    Resends { c with app.writeNotify := false }.sendPending c.onWriteNotifySend := by
  have hkeep : Resends { c with app.writeNotify := false }.sendPending
      { c with app.writeNotify := false }.sendPending.resetKeepalive := .of_silent rfl
  exact ((hkeep.trans (.checkZeroWindow _)).trans (.of_rxOnly (.piggyback _))).trans (.armRTO _)

/-- With a segment size, a write notification leaves a deferred FIN something to wait for. -/
theorem RTOInv.onWriteNotifySend_deferred (h : RTOInv c) (hm : c.Sizes)
    (hp : c.ctl.finPending = true) :
    c.onWriteNotifySend.hasUnacked = true ∨ c.onWriteNotifySend.tx.writeBuf.len ≠ 0 := by
  have hr := onWriteNotifySend_resends c
  rw [hasUnacked_resends hr, ← RingBuffer.length_contents, hr.contents, RingBuffer.length_contents]
  rcases sendPending_cases (c := { c with app.writeNotify := false }) hm with ⟨he, -⟩ | hu
  · rw [he]
    exact h.deferred hp
  · exact .inl hu

theorem onWriteNotifySend_armed (h : c.onWriteNotifySend.hasUnacked = true) :
    c.onWriteNotifySend.tx.rtoTimer.armed = true := by
  rw [onWriteNotifySend] at h ⊢
  rw [hasUnacked_resends (.armRTO _)] at h
  exact armRTO_armed h

theorem RTOInv.onWriteNotify (h : RTOInv c) (hm : c.ctl.finPending = true → c.Sizes) :
    RTOInv c.onWriteNotify := by
  rw [TCPConn.onWriteNotify]
  split_ifs with hs hp
  · have hdef := h.onWriteNotifySend_deferred (hm hp) hp
    refine ⟨fun _ hu => ?_, fun hd => .inr (finIfDrained_deferred hd)⟩
    rw [finIfDrained_rtoTimer]
    rcases hdef with hu' | hlen
    · exact onWriteNotifySend_armed hu'
    · rw [finIfDrained, if_neg hlen] at hu
      exact onWriteNotifySend_armed hu
  · refine ⟨fun _ => onWriteNotifySend_armed, fun hd => ?_⟩
    rw [onWriteNotifySend_ctl] at hd
    exact absurd hd hp
  · exact ⟨h.armed, h.deferred⟩

theorem RTOInv.onClose (h : RTOInv c) (hs : c.ctl.synced = true) : RTOInv c.onClose := by
  rw [TCPConn.onClose]
  dsimp only
  rw [if_pos hs]
  refine RTOInv.armRTO ?_
  have hfin : { c with app.closeCh := false }.flush.finOrDefer.ctl.finPending = true →
      { c with app.closeCh := false }.flush.finOrDefer.hasUnacked = true ∨
      { c with app.closeCh := false }.flush.finOrDefer.tx.writeBuf.len ≠ 0 := by
    rw [finOrDefer]
    split
    · rename_i hlen
      exact fun _ => .inr (Nat.pos_iff_ne_zero.1 hlen.2)
    · rw [finalizeFIN_finPending]
      exact fun hp => by cases hp
  rw [handleClose.eq_def]
  split
  iterate 2 exact hfin
  exact h.deferred

/-- The send side and the run loop are not involved. -/
theorem RTOInv.of_eq (h : RTOInv c) (hctl : c'.ctl = c.ctl) (hq : c'.tx.snd = c.tx.snd)
    (htimer : c'.tx.rtoTimer = c.tx.rtoTimer) (hlen : c.tx.writeBuf.len ≠ 0 → c'.tx.writeBuf.len ≠ 0) :
    RTOInv c' := by
  have hu : c'.hasUnacked = c.hasUnacked := by rw [hasUnacked, hasUnacked, hq]
  refine ⟨?_, ?_⟩
  · rw [hctl, hu, htimer]
    exact h.armed
  · rw [hctl, hu]
    exact fun hp => (h.deferred hp).imp_right hlen

end TCPConn

/-! ### Runs -/

open TCPConn

/-- The persist timer fires only with something outstanding (or nothing left to probe with), a
    segment that finds a deferred FIN leaves something outstanding, and a write notification that
    finds one has a segment size. -/
def KeepsRTOArmed (s : Sys) : Event → Prop
  | .inbound seg => s.conn.ctl.finPending = true → Outstanding seg.ack s.conn
  | .zeroWindowTimer => s.conn.tx.zeroWindowProbing = true →
      s.conn.hasUnacked = true ∨ s.conn.tx.writeBuf.len = 0
  | .writeNotify => s.conn.ctl.finPending = true → 1 ≤ s.conn.tx.snd.mss
  | _ => True

theorem rtoInv_step {s s' : Sys} {e : Event} (hr : Reach Sys.Init Sys.step KeepsRTOArmed s)
    (h : RTOInv s.conn) (hok : KeepsRTOArmed s e) (hstep : Sys.Step s e s') : RTOInv s'.conn := by
  have hfresh := fresh_reach hr
  have hdone := doneClosed_reach hr
  cases hstep
  case inbound seg _ => exact rtoInv_onInbound hfresh (unsynced_reach hr) hok
  case rtoTimer => exact h.onRTO hfresh
  case delayedACKTimer => exact h.resends (.onDelayedACK _) (.inr ⟨rfl, rfl⟩)
  case zeroWindowTimer => exact h.onZeroWindow hok
  case keepaliveTimer => exact h.onKeepalive hdone
  case writeNotify =>
    refine h.onWriteNotify fun hp => ⟨hok hp, ?_⟩
    have hsync : s.conn.ctl.synced = true := by
      by_contra hs
      rw [(hfresh (by simpa using hs)).finPending] at hp
      cases hp
    exact (sendInv_reach (reach_positiveMSS hr fun _ => hok hp)).mss_le hsync
  case windowNotify =>
    refine h.resends (.onWindowNotify _) (.inr ?_)
    rw [onWindowNotify]
    split <;> exact ⟨rfl, rfl⟩
  case closeCh _ htoken =>
    refine h.onClose (by_contra fun hs => ?_)
    have htok := congrArg (fun t => t.2.2.2.1) (hfresh (by simpa using hs)).tokens
    exact absurd (htoken.symm.trans htok) (by simp)
  case forceCloseCh =>
    rw [TCPConn.onForceClose]
    split
    · refine RTOInv.exitRun (c := forceCloseBufs _) ?_ hdone
      exact h.resends ((Resends.of_rxOnly (.sendRSTSegment _ _)).trans (.forceCloseBufs _))
        (.inr ⟨rfl, rfl⟩)
    · exact RTOInv.exitRun (h.resends (.forceCloseBufs _) (.inr ⟨rfl, rfl⟩)) hdone
  case synRcvdTimer =>
    have hfired : RTOInv { s.conn with timers.synRcvdTimer := Timer.stopped } := ⟨h.armed, h.deferred⟩
    rw [TCPConn.onSynRcvdTimer]
    dsimp only
    split
    · exact hfired.exitRun hdone
    · exact hfired
  case finWait2Timer =>
    have hfired : RTOInv { s.conn with timers.finWait2Timer := Timer.stopped } := ⟨h.armed, h.deferred⟩
    rw [TCPConn.onFinWait2Timer]
    dsimp only
    split
    · exact hfired.exitRun hdone
    · exact hfired
  case timeWaitTimer | done => exact h.exitRun hdone
  case writeCall =>
    refine h.resends (.growWriteBuf _) (.inr ?_)
    rw [TCPConn.growWriteBuf]
    split <;> exact ⟨rfl, rfl⟩
  case writeCopy =>
    rename_i rest written hho hpc hmore hopen hroom
    refine h.of_eq rfl rfl rfl fun hlen => ?_
    have hadd : (s.conn.copyChunk rest).tx.writeBuf.contents
        = s.conn.tx.writeBuf.contents ++ rest.take (s.conn.tx.writeBuf.writeNoBlock rest).2 :=
      RingBuffer.contents_writeNoBlock _ hmore
    rw [← RingBuffer.length_contents] at hlen
    show (s.conn.copyChunk rest).tx.writeBuf.len ≠ 0
    rw [← RingBuffer.length_contents, hadd, List.length_append]
    omega
  case closeWrite =>
    rw [TCPConn.closeWrite]
    split <;> exact ⟨h.armed, h.deferred⟩
  case closeRead =>
    rw [TCPConn.closeRead]
    split <;> exact ⟨h.armed, h.deferred⟩
  all_goals exact ⟨h.armed, h.deferred⟩

theorem rtoInv_reach {s : Sys} (hr : Reach Sys.Init Sys.step KeepsRTOArmed s) : RTOInv s.conn := by
  induction hr with
  | start h =>
    obtain ⟨h, irs, iss, options, hr, hw, -, rfl⟩ := Sys.init_iff.1 h
    exact ⟨(fun _ hu => by cases hu), (fun hp => by cases hp)⟩
  | next hr hok he ih => exact rtoInv_step hr ih hok (Sys.step_inv he).2

/-- SAFE: in every run whose steps keep to `KeepsRTOArmed`, a connection that is not closed and has
    unacknowledged segments has its retransmission timer armed. -/
theorem rto_timer_armed {s : Sys} (hr : Reach Sys.Init Sys.step KeepsRTOArmed s)
    (hs : s.conn.ctl.state ≠ .closed) (hu : s.conn.tx.snd.unacked ≠ []) :
    s.conn.tx.rtoTimer.armed = true := by
  refine (rtoInv_reach hr).armed hs ?_
  rw [hasUnacked]
  simpa using hu

/-- Executable form of `KeepsRTOArmed`. -/
def keepsRTOArmed (s : Sys) : Event → Bool
  | .inbound seg => !s.conn.ctl.finPending || !(dropAcked seg.ack s.conn.tx.snd.unacked).isEmpty
  | .zeroWindowTimer =>
      !s.conn.tx.zeroWindowProbing || s.conn.hasUnacked || s.conn.tx.writeBuf.len == 0
  | .writeNotify => !s.conn.ctl.finPending || decide (1 ≤ s.conn.tx.snd.mss)
  | _ => true

theorem keepsRTOArmed_sound {s : Sys} {e : Event} (h : keepsRTOArmed s e = true) :
    KeepsRTOArmed s e := by
  cases e
  case inbound seg =>
    intro hp
    simpa [keepsRTOArmed, hp, Outstanding] using h
  case zeroWindowTimer =>
    intro hp
    simpa [keepsRTOArmed, hp] using h
  case writeNotify =>
    intro hp
    simpa [keepsRTOArmed, hp] using h
  all_goals exact trivial

/-- A write is sent, half of it is acknowledged, and the timer runs for the rest. -/
theorem rto_timer_armed_write : ∃ s, Reach Sys.Init Sys.step KeepsRTOArmed s ∧
    s.conn.ctl.state ≠ .closed ∧ s.conn.tx.snd.unacked ≠ [] ∧ s.conn.tx.rtoTimer.armed = true := by
  obtain ⟨s, hr, hs, hu⟩ := Sys.exists_reach Sys.init_sample keepsRTOArmed
    (fun s => s.conn.ctl.state ≠ .closed ∧ s.conn.tx.snd.unacked ≠ [])
    [Sys.sampleACK, .writeCall 0 [1, 2], .writeCopy 0, .writeCopy 0, .writeReturn 0, .writeNotify,
      .inbound (Sys.sampleSegment tcpFlagACK 101 202 1000 [])] (by decide +kernel)
  have hr' := hr.mono fun s e hok => keepsRTOArmed_sound hok
  exact ⟨s, hr', hs, hu, rto_timer_armed hr' hs hu⟩

/-- The peer closes its window, a byte is written, and the persist timer sends it as a probe: it is
    outstanding, and no retransmission timer runs. -/
theorem rto_timer_stopped_after_probe : ∃ s, Reach Sys.Init Sys.step (fun _ _ => True) s ∧
    s.conn.ctl.state = .established ∧ s.conn.tx.snd.unacked ≠ [] ∧
    s.conn.tx.rtoTimer.armed = false := by
  obtain ⟨s, hr, hs⟩ := Sys.exists_reach Sys.init_sample (fun _ _ => true)
    (fun s => s.conn.ctl.state = .established ∧ s.conn.tx.snd.unacked ≠ [] ∧
      s.conn.tx.rtoTimer.armed = false)
    [Sys.sampleACK, .inbound (Sys.sampleSegment tcpFlagACK 101 201 0 []), .writeCall 0 [1],
      .writeCopy 0, .writeCopy 0, .writeReturn 0, .writeNotify, .zeroWindowTimer] (by decide +kernel)
  exact ⟨s, hr.mono fun _ _ _ => trivial, hs⟩

end Netstack.Tcp
