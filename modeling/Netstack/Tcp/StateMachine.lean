import Netstack.Tcp.Control

/-! The TCP state diagram.

    Every assignment to `c.state` is recorded, so that following the diagram is a property of the
    states of a run. One function can leave it: `processFIN` assigns CLOSE_WAIT wherever it is called,
    and `deliverOOO` calls it in every state that still takes data, once the data has caught up with a
    FIN that was deferred in ESTABLISHED. -/

namespace Netstack.Tcp
open Netstack.Header Netstack.Trace

/-- The edges of the server side of the diagram. -/
def TCPState.edge : TCPState → TCPState → Bool
  | _, .closed => true
  | .synRcvd, .established => true
  | .established, .finWait1 | .established, .closeWait => true
  | .finWait1, .finWait2 | .finWait1, .closing | .finWait1, .timeWait => true
  | .finWait2, .timeWait | .closing, .timeWait => true
  | .closeWait, .lastAck => true
  | _, _ => false

/-- The states in which our FIN has not been sent. -/
def TCPState.beforeFIN : TCPState → Bool
  | .synRcvd | .established | .closeWait => true
  | _ => false

/-- Every assignment so far followed an edge. -/
def Ctl.Conforms (k : Ctl) : Prop := ∀ a ∈ k.assigns, a.1.edge a.2 = true

namespace Ctl

variable {k : Ctl}

theorem Conforms.set (h : k.Conforms) {st : TCPState} (he : k.state.edge st = true) :
    (k.set st).Conforms := by
  intro a ha
  rcases List.mem_append.1 ha with ha | ha
  · exact h a ha
  · rw [List.mem_singleton.1 ha]
    exact he

theorem edge_closed (st : TCPState) : st.edge .closed = true := by
  cases st <;> rfl

theorem Conforms.finish (h : k.Conforms) : k.finish.Conforms := by
  rw [Ctl.finish]
  split
  · exact h
  · exact h.set (edge_closed _)

theorem Conforms.finalize (h : k.Conforms) : k.finalize.Conforms := by
  rw [Ctl.finalize.eq_def]
  split
  · rename_i hs
    exact Conforms.set (k := k.unpend) h (show k.state.edge .finWait1 = true by rw [hs]; rfl)
  · rename_i hs
    exact Conforms.set (k := k.unpend) h (show k.state.edge .lastAck = true by rw [hs]; rfl)
  · exact h

theorem finish_beforeFIN (h : k.finish.state.beforeFIN = true) : k.state.beforeFIN = true := by
  rw [Ctl.finish] at h
  split at h
  · exact h
  · cases h

theorem finalize_beforeFIN (h : k.finalize.state.beforeFIN = true) : k.state.beforeFIN = true := by
  rw [Ctl.finalize.eq_def] at h
  split at h
  · cases h
  · cases h
  · exact h

end Ctl

namespace TCPConn

variable {c c' : TCPConn} {seg : Segment} {k : Ctl}

/-- No data arrives for a deferred FIN once our own FIN has been sent, and no second FIN right after
    a deferred one. -/
structure FinInTurn (c : TCPConn) (seg : Segment) : Prop where
  data : c.ctl.state = .finWait1 ∨ c.ctl.state = .finWait2 → seg.payload ≠ [] →
    c.rx.rcv.finReceived = false
  fin : c.ctl.state = .established → c.rx.rcv.finReceived = true →
    seg.flags.has tcpFlagFIN = true → seg.finSeq ≠ c.rx.rcv.finSeq + 1

theorem FinInTurn.caught (h : FinInTurn c seg) (hs : c.ctl.state = .finWait1 ∨ c.ctl.state = .finWait2)
    (hk : Caught c seg k) : k = c.ctl := by
  rcases hk with rfl | ⟨hp, hr, -⟩
  · rfl
  · exact absurd ((h.data hs hp).symm.trans hr) (by simp)

theorem CtlStep.conforms (h : CtlStep c seg k) (hok : FinInTurn c seg) (hc : c.ctl.Conforms) :
    k.Conforms := by
  cases h with
  | same => exact hc
  | reset => exact (hc.set (Ctl.edge_closed _)).finish
  | opened hs =>
    have hset : (c.ctl.set .established).Conforms := hc.set (by rw [hs]; rfl)
    exact hset
  | fin hs => exact hc.set (by rw [hs]; rfl)
  | finTwice hs hr hf hseq => exact absurd hseq (hok.fin hs hr hf)
  | caught hs hp hr => exact absurd ((hok.data hs hp).symm.trans hr) (by simp)
  | finWait1 hs hk hto =>
    rw [hok.caught (.inl hs) hk]
    refine hc.set ?_
    rw [hs]
    rcases hto with rfl | rfl | rfl <;> rfl
  | finWait2 hs hk =>
    rw [hok.caught (.inr hs) hk]
    exact hc.set (by rw [hs]; rfl)
  | closing hs => exact hc.set (by rw [hs]; rfl)
  | lastAck => exact hc.finish

theorem QuietCtl.conforms (h : QuietCtl c k) (hc : c.ctl.Conforms) : k.Conforms := by
  cases h with
  | same => exact hc
  | finish => exact hc.finish
  | exit => exact hc.finish
  | defer => exact hc
  | finalize => exact hc.finalize

/-- No step leads back to before our FIN. -/
theorem CtlStep.beforeFIN (h : CtlStep c seg k) (hok : FinInTurn c seg)
    (hk : k.state.beforeFIN = true) : c.ctl.state.beforeFIN = true := by
  cases h with
  | same => exact hk
  | reset => cases Ctl.finish_beforeFIN hk
  | opened hs | fin hs | finTwice hs => rw [hs]; rfl
  | caught hs hp hr => exact absurd ((hok.data hs hp).symm.trans hr) (by simp)
  | finWait1 _ _ hto => rcases hto with rfl | rfl | rfl <;> cases hk
  | finWait2 | closing => cases hk
  | lastAck => exact Ctl.finish_beforeFIN hk

theorem QuietCtl.beforeFIN (h : QuietCtl c k) (hk : k.state.beforeFIN = true) :
    c.ctl.state.beforeFIN = true := by
  cases h with
  | same | defer => exact hk
  | finish | exit => exact Ctl.finish_beforeFIN hk
  | finalize => exact Ctl.finalize_beforeFIN hk

/-! ### The FIN on the wire -/

/-- Our FIN has been sent. -/
def FinSent (c : TCPConn) : Prop := ∃ p ∈ c.wire.out, p.flags.has tcpFlagFIN = true

/-- No FIN is on the wire, and none is queued to be sent again. -/
structure Unfinished (c : TCPConn) : Prop where
  queue : ∀ e ∈ c.tx.snd.unacked, e.fin = false
  out : ∀ p ∈ c.wire.out, p.flags.has tcpFlagFIN = false

theorem gsoSegments_fin (mss : ℕ) (t : ℤ) : ∀ (fuel : ℕ) (seq : UInt32) (data : List UInt8),
    ∀ e ∈ gsoSegments mss t fuel seq data, e.fin = false
  | 0, _, _ => by simp [gsoSegments]
  | _ + 1, _, [] => by simp [gsoSegments]
  | fuel + 1, seq, b :: data => by
      intro e he
      rw [gsoSegments] at he
      rcases List.mem_cons.1 he with rfl | he
      · rfl
      · exact gsoSegments_fin mss t fuel _ _ e he

/-- Nothing queued is a FIN, and no segment sent on the way was one. -/
def SendsNoFin (c c' : TCPConn) : Prop := (∀ e ∈ c'.tx.snd.unacked, e.fin = false) ∧
  ∃ ps, c'.wire.out = c.wire.out ++ ps ∧ ∀ p ∈ ps, p.flags.has tcpFlagFIN = false

/-- New data adds no FIN. -/
theorem SendsNoFin.push (h : SendsNoFin c c') {c'' : TCPConn} {l : List UnackedSegment}
    {p : OutSegment} (hq : c''.tx.snd.unacked = c'.tx.snd.unacked ++ l)
    (hout : c''.wire.out = c'.wire.out ++ [p]) (hl : ∀ e ∈ l, e.fin = false)
    (hp : p.flags = tcpFlagACK) : SendsNoFin c c'' := by
  obtain ⟨hnone, ps, hps, hfin⟩ := h
  refine ⟨fun e he => ?_, ps ++ [p], by rw [hout, hps, List.append_assoc], fun q hmem => ?_⟩
  · rw [hq] at he
    exact (List.mem_append.1 he).elim (hnone e) (hl e)
  · rcases List.mem_append.1 hmem with hmem | hmem
    · exact hfin q hmem
    · rw [List.mem_singleton.1 hmem, hp]
      rfl

/-- What is sent again comes from the queue. -/
theorem SendsNoFin.resends (h : SendsNoFin c c') {c'' : TCPConn} (r : Resends c' c'') :
    SendsNoFin c c'' := by
  obtain ⟨hnone, ps, hps, hfin⟩ := h
  obtain ⟨ps', hps', hsent⟩ := r.out
  refine ⟨fun e he => ?_, ps ++ ps', by rw [hps', hps, List.append_assoc], fun p hmem => ?_⟩
  · obtain ⟨e', he', hs⟩ := mem_of_sent r.queue he
    simp only [UnackedSegment.sent, Prod.mk.injEq] at hs
    exact hs.2.2 ▸ hnone e' he'
  · rcases List.mem_append.1 hmem with hmem | hmem
    · exact hfin p hmem
    · by_contra hf
      obtain ⟨e, he, hf', -⟩ := (hsent p hmem).2 (by simpa using hf)
      exact absurd ((hnone e he).symm.trans hf') (by simp)

theorem Transmits.sendsNoFin (ht : Transmits c c') (hq : ∀ e ∈ c.tx.snd.unacked, e.fin = false) :
    SendsNoFin c c' := by
  induction ht with
  | refl => exact ⟨hq, [], (List.append_nil _).symm, by simp⟩
  | resends _ r ih => exact ih.resends r
  | @acked c₁ ack _ _ _ ih =>
    obtain ⟨s, t, ⟨_, _, _, rfl⟩, he⟩ := removeAcked_eq (c₁.advanceUna ack) ack
    rw [he]
    exact ⟨fun e hmem => ih.1 e (dropAcked_subset _ _ hmem), ih.2⟩
  | new _ _ ih =>
    rw [TCPConn.sendNew]
    split
    · exact ⟨ih.1, ih.2⟩
    · exact ih.push rfl rfl (by simp) rfl
  | gso _ _ ih =>
    rw [TCPConn.sendGSO]
    split_ifs
    · exact ⟨ih.1, ih.2⟩
    · exact ⟨ih.1, ih.2⟩
    · exact ih.push rfl rfl (gsoSegments_fin _ _ _ _ _) rfl
  | fault _ _ ih => exact ⟨ih.1, ih.2⟩

theorem Unfinished.transmits (h : Unfinished c) (ht : Transmits c c') : Unfinished c' := by
  obtain ⟨hnone, ps, hps, hfin⟩ := ht.sendsNoFin h.queue
  refine ⟨hnone, fun p hp => ?_⟩
  rw [hps] at hp
  exact (List.mem_append.1 hp).elim (h.out p) (hfin p)

theorem Unfinished.resends (h : Unfinished c) (r : Resends c c') : Unfinished c' :=
  h.transmits (.of_resends r)

theorem Unfinished.opened (h : Unfinished c) (seg : Segment) : Unfinished (c.opened seg) := by
  have hts := h.resends (.of_rxOnly (.updateTSRecent c seg))
  obtain ⟨m, hm⟩ := (c.updateTSRecent seg).setState .established |>.handshakeSender_eq seg
  have hest : Unfinished ((c.updateTSRecent seg).establish seg) := by
    refine ⟨?_, hts.out⟩
    show ∀ e ∈ (TCPConn.handshakeSender _ seg).unacked, e.fin = false
    rw [hm]
    exact fun e he => by cases he
  have hend := hest.resends (.of_rxOnly (opened_rxOnly c seg))
  exact ⟨hend.queue, hend.out⟩

/-- A FIN leaves the states before it. -/
theorem Unfinished.finalizeFIN (h : Unfinished c) :
    c.finalizeFIN.ctl.state.beforeFIN = true → Unfinished c.finalizeFIN := by
  rw [TCPConn.finalizeFIN.eq_def]
  split
  · intro hs
    cases hs
  · intro hs
    cases hs
  · exact fun _ => ⟨h.queue, h.out⟩

theorem Unfinished.finIfDrained (h : Unfinished c) :
    c.finIfDrained.ctl.state.beforeFIN = true → Unfinished c.finIfDrained := by
  rw [TCPConn.finIfDrained]
  split
  · exact h.finalizeFIN
  · exact fun _ => h

theorem Unfinished.onInbound (h : Unfinished c) (seg : Segment) :
    (c.onInbound seg).ctl.state.beforeFIN = true → Unfinished (c.onInbound seg) := by
  have hseg : Unfinished (c.handleSegment seg) := by
    rcases handleSegment_cases c seg with ht | ⟨-, he⟩
    · exact h.transmits ht
    · rw [he]
      exact h.opened seg
  have hrto := hseg.resends (.manageRTO _)
  rw [TCPConn.onInbound, drainForFIN]
  split
  · exact (hrto.transmits (.sendPending _)).finIfDrained
  · exact fun _ => hrto

theorem Unfinished.onWriteNotify (h : Unfinished c) :
    c.onWriteNotify.ctl.state.beforeFIN = true → Unfinished c.onWriteNotify := by
  have hsend := h.transmits (.onWriteNotifySend c)
  rw [TCPConn.onWriteNotify]
  split_ifs
  · exact hsend.finIfDrained
  · exact fun _ => hsend
  · exact fun _ => ⟨h.queue, h.out⟩

theorem Unfinished.onClose (h : Unfinished c) :
    c.onClose.ctl.state.beforeFIN = true → Unfinished c.onClose := by
  have htoken : Unfinished { c with app.closeCh := false } := ⟨h.queue, h.out⟩
  have hflush := htoken.transmits (.flush _)
  have hclose : { c with app.closeCh := false }.handleClose.ctl.state.beforeFIN = true →
      Unfinished { c with app.closeCh := false }.handleClose := by
    have hfin : { c with app.closeCh := false }.flush.finOrDefer.ctl.state.beforeFIN = true →
        Unfinished { c with app.closeCh := false }.flush.finOrDefer := by
      rw [finOrDefer]
      split
      · exact fun _ => ⟨hflush.queue, hflush.out⟩
      · exact hflush.finalizeFIN
    rw [handleClose.eq_def]
    split
    iterate 2 exact hfin
    exact fun _ => htoken
  rw [TCPConn.onClose]
  dsimp only
  split
  · rw [armRTO_ctl]
    exact fun hs => (hclose hs).resends (.armRTO _)
  · exact hclose

end TCPConn

/-! ### Runs -/

open TCPConn

/-- Segments keep to `FinInTurn`. -/
def FinsInTurn (s : Sys) : Event → Prop
  | .inbound seg => FinInTurn s.conn seg
  | _ => True

/-- The invariant: the diagram has been followed, and before our FIN there is none on the wire. -/
structure Diagram (c : TCPConn) : Prop where
  conforms : c.ctl.Conforms
  unfinished : c.ctl.state.beforeFIN = true → Unfinished c

theorem diagram_init {s : Sys} (h : s.Init) : Diagram s.conn := by
  obtain ⟨h, irs, iss, options, hr, hw, -, rfl⟩ := Sys.init_iff.1 h
  refine ⟨(fun a ha => by cases ha), fun _ => ⟨(fun e he => by cases he), fun p hp => ?_⟩⟩
  rw [List.mem_singleton.1 (show p ∈ [_] from hp)]
  exact (by decide : (tcpFlagSYN ||| tcpFlagACK).has tcpFlagFIN = false)

theorem unfinished_step {s s' : Sys} {e : Event} (h : Unfinished s.conn) (hstep : Sys.Step s e s')
    (hs : s'.conn.ctl.state.beforeFIN = true) : Unfinished s'.conn := by
  by_cases he : Sys.resending e = true
  · exact h.resends (hstep.resends he)
  cases hstep
  case inbound seg _ => exact h.onInbound seg hs
  case zeroWindowTimer => exact h.transmits (.onZeroWindow _)
  case writeNotify => exact h.onWriteNotify hs
  case closeCh => exact h.onClose hs
  case closeWrite =>
    rw [TCPConn.closeWrite]
    split <;> exact ⟨h.queue, h.out⟩
  case writeCopy | writeCopied | writeBlocked => exact ⟨h.queue, h.out⟩
  all_goals exact absurd rfl he

theorem diagram_step {s s' : Sys} {e : Event} (h : Diagram s.conn) (hok : FinsInTurn s e)
    (hstep : Sys.Step s e s') : Diagram s'.conn := by
  have hback : s'.conn.ctl.Conforms ∧
      (s'.conn.ctl.state.beforeFIN = true → s.conn.ctl.state.beforeFIN = true) := by
    rcases hstep.ctl with ⟨seg, k, rfl, hk, he | ⟨-, he⟩⟩ | ⟨-, hk⟩
    · rw [he]
      exact ⟨hk.conforms hok h.conforms, hk.beforeFIN hok⟩
    · rw [he]
      exact ⟨(hk.conforms hok h.conforms).finalize,
        fun hs => hk.beforeFIN hok (Ctl.finalize_beforeFIN hs)⟩
    · exact ⟨hk.conforms h.conforms, hk.beforeFIN⟩
  exact ⟨hback.1, fun hs => unfinished_step (h.unfinished (hback.2 hs)) hstep hs⟩

/-- CORRECT: in every run in which no data comes in for a deferred FIN after our own, every assignment
    to the state follows an edge of the diagram, and once our FIN has been sent the connection is
    never in CLOSE_WAIT. -/
theorem state_machine_conformance {s : Sys} (hr : Reach Sys.Init Sys.step FinsInTurn s) :
    s.conn.ctl.Conforms ∧ (FinSent s.conn → s.conn.ctl.state ≠ .closeWait) := by
  have hinv : Diagram s.conn := hr.invariant (I := fun s => Diagram s.conn)
    (fun _ h => diagram_init h) fun _ _ _ h hok hs => diagram_step h hok (Sys.step_inv hs).2
  refine ⟨hinv.conforms, ?_⟩
  rintro ⟨p, hp, hfin⟩ hs
  have hopen := hinv.unfinished (by rw [hs]; rfl)
  exact absurd ((hopen.out p hp).symm.trans hfin) (by simp)

instance (c : TCPConn) (seg : Segment) : Decidable (FinInTurn c seg) :=
  decidable_of_iff ((c.ctl.state = .finWait1 ∨ c.ctl.state = .finWait2 → seg.payload ≠ [] →
      c.rx.rcv.finReceived = false) ∧ (c.ctl.state = .established → c.rx.rcv.finReceived = true →
      seg.flags.has tcpFlagFIN = true → seg.finSeq ≠ c.rx.rcv.finSeq + 1))
    ⟨fun h => ⟨h.1, h.2⟩, fun h => ⟨h.data, h.fin⟩⟩

/-- Executable form of `FinsInTurn`. -/
def finsInTurn (s : Sys) : Event → Bool
  | .inbound seg => decide (FinInTurn s.conn seg)
  | _ => true

theorem finsInTurn_sound {s : Sys} {e : Event} (h : finsInTurn s e = true) : FinsInTurn s e := by
  cases e
  case inbound seg =>
    show FinInTurn s.conn seg
    exact of_decide_eq_true h
  all_goals exact trivial

/-- The peer closes first: CLOSE_WAIT, then our FIN, then CLOSED. -/
theorem state_machine_conformance_passive : ∃ s, Reach Sys.Init Sys.step FinsInTurn s ∧
    s.conn.ctl.assigns = [(.synRcvd, .established), (.established, .closeWait),
      (.closeWait, .lastAck), (.lastAck, .closed)] ∧
    s.conn.ctl.Conforms ∧ (FinSent s.conn → s.conn.ctl.state ≠ .closeWait) := by
  obtain ⟨s, hr, hs⟩ := Sys.exists_reach Sys.init_sample finsInTurn
    (fun s => s.conn.ctl.assigns = [(.synRcvd, .established), (.established, .closeWait),
      (.closeWait, .lastAck), (.lastAck, .closed)])
    [Sys.sampleACK, .inbound (Sys.sampleSegment (tcpFlagFIN ||| tcpFlagACK) 101 201 1000 []),
      .closeWrite, .closeCh, .inbound (Sys.sampleSegment tcpFlagACK 102 202 1000 [])]
    (by decide +kernel)
  have hr' := hr.mono fun s e hok => finsInTurn_sound hok
  exact ⟨s, hr', hs, state_machine_conformance hr'⟩

/-- A FIN overtakes its data, the application closes, and then the data arrives: FIN_WAIT_1 goes to
    CLOSE_WAIT, after our FIN. -/
theorem finWait1_to_closeWait : ∃ s, Reach Sys.Init Sys.step (fun _ _ => True) s ∧
    (TCPState.finWait1, TCPState.closeWait) ∈ s.conn.ctl.assigns ∧ ¬s.conn.ctl.Conforms ∧
    FinSent s.conn ∧ s.conn.ctl.state = .closeWait := by
  obtain ⟨s, hr, hmem, hsent, hs⟩ := Sys.exists_reach Sys.init_sample (fun _ _ => true)
    (fun s => (TCPState.finWait1, TCPState.closeWait) ∈ s.conn.ctl.assigns ∧
      (∃ p ∈ s.conn.wire.out, p.flags.has tcpFlagFIN = true) ∧ s.conn.ctl.state = .closeWait)
    [Sys.sampleACK, .inbound (Sys.sampleSegment (tcpFlagFIN ||| tcpFlagACK) 102 201 1000 []),
      .closeWrite, .closeCh, .inbound (Sys.sampleSegment tcpFlagACK 101 201 1000 [1])]
    (by decide +kernel)
  exact ⟨s, hr.mono fun _ _ _ => trivial, hmem, fun h => absurd (h _ hmem) (by decide), hsent, hs⟩

end Netstack.Tcp
