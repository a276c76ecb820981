import Netstack.Tcp.OutOfWindow
import Netstack.Tcp.IdleSender

/-! Who answers a segment that lies before `rcv.nxt`.

    The answer is decided state by state: ESTABLISHED acknowledges such a segment if it has payload,
    FIN_WAIT_1 and FIN_WAIT_2 if it has payload and no FIN, CLOSING and TIME_WAIT if it has a FIN,
    CLOSE_WAIT and LAST_ACK never. To see that nothing else sends an ACK of its own, every packet of
    the send side is shown to carry data or a FIN (`Loaded`); for a retransmission that takes the
    invariant that no queue entry is empty (`Solid`). -/

namespace Netstack.Tcp
open Netstack.Header Netstack.Serial Netstack.Trace Netstack.Loop

namespace TCPConn

variable {c c' c'' : TCPConn} {seg : Segment}

/-! ### No queue entry is empty -/

/-- Every entry of the queue has data or is the FIN. -/
def Solid (c : TCPConn) : Prop := ∀ e ∈ c.tx.snd.unacked, e.fin = true ∨ e.data ≠ []

theorem Solid.resends (h : Solid c) (hr : Resends c c') : Solid c' := by
  intro e he
  obtain ⟨e', he', hs⟩ := mem_of_sent hr.queue he
  simp only [UnackedSegment.sent, Prod.mk.injEq] at hs
  rw [← hs.2.1, ← hs.2.2]
  exact h e' he'

theorem Solid.append (h : Solid c) {l : List UnackedSegment}
    (hq : c'.tx.snd.unacked = c.tx.snd.unacked ++ l) (hl : ∀ e ∈ l, e.fin = true ∨ e.data ≠ []) :
    Solid c' := by
  intro e he
  rw [hq] at he
  exact (List.mem_append.1 he).elim (h e) (hl e)

theorem mem_dropAcked {ack : UInt32} {e : UnackedSegment} : ∀ {l : List UnackedSegment},
    e ∈ dropAcked ack l → e ∈ l
  | [], h => h
  | a :: l, h => by
      rw [dropAcked] at h
      split_ifs at h
      · exact h
      · exact List.mem_cons_of_mem a (mem_dropAcked h)
      · exact h

theorem Solid.removeAcked (h : Solid c) (ack : UInt32) : Solid (c.removeAcked ack) := by
  obtain ⟨s, n, ⟨_, _, _, rfl⟩, he⟩ := removeAcked_eq c ack
  intro e hmem
  rw [he] at hmem
  exact h e (mem_dropAcked hmem)

/-- The chunks of a batch are not empty, if a chunk takes a byte at all. -/
theorem gsoSegments_solid {mss : ℕ} (hm : 0 < mss) (t : ℤ) : ∀ (fuel : ℕ) (seq : UInt32)
    (data : List UInt8), ∀ e ∈ gsoSegments mss t fuel seq data, e.data ≠ []
  | 0, _, _, _, h => by cases h
  | _ + 1, _, [], _, h => by cases h
  | fuel + 1, seq, b :: data, e, h => by
      rw [gsoSegments] at h
      rcases List.mem_cons.1 h with rfl | h
      · obtain ⟨m, rfl⟩ := Nat.exists_eq_add_of_le' hm
        simp
      · exact gsoSegments_solid hm t fuel _ _ e h

/-- As long as the program has not panicked. -/
def SolidRun (c : TCPConn) : Prop := c.fault = none → Solid c

theorem SolidRun.sendGSO (h : SolidRun c) (k : ℤ) : SolidRun (c.sendGSO k).1 := by
  rw [TCPConn.sendGSO]
  split_ifs with hneg hempty
  · intro hf
    simp [raise] at hf
  · exact h
  · intro hf
    have hf' : (c.fault <|> recordSentGSOFault c.tx.snd.mss
        (c.tx.writeBuf.readNoBlock k.toNat).2.length) = none := hf
    rw [Option.orElse_eq_none] at hf'
    have hlen : (c.tx.writeBuf.readNoBlock k.toNat).2.length ≠ 0 := by simpa using hempty
    have hmss : 0 < c.tx.snd.mss.toNat := by
      have hfault := hf'.2
      rw [recordSentGSOFault, if_neg hlen] at hfault
      split_ifs at hfault
      omega
    exact (h hf'.1).append rfl fun e he => .inr (gsoSegments_solid hmss _ _ _ _ e he)

theorem SolidRun.sendNew (h : SolidRun c) (k : ℕ) : SolidRun (c.sendNew k).1 := by
  rw [TCPConn.sendNew]
  split
  · exact h
  · rename_i hdata
    refine fun hf => (h hf).append rfl fun e he => ?_
    rw [List.mem_singleton.1 he]
    exact .inr hdata

theorem SolidRun.resends (h : SolidRun c) (hr : Resends c c') : SolidRun c' := by
  refine fun hf => (h ?_).resends hr
  by_contra hne
  exact hr.faulted hne hf

theorem SolidRun.transmits (h : SolidRun c) (ht : Transmits c c') : SolidRun c' := by
  induction ht with
  | refl => exact h
  | resends _ hr ih => exact ih.resends hr
  | @acked c₁ ack _ _ _ ih =>
    intro hf
    have hsame : ((c₁.advanceUna ack).removeAcked ack).fault = c₁.fault := rfl
    have hsolid : Solid (c₁.advanceUna ack) := ih (hsame.symm.trans hf)
    exact hsolid.removeAcked ack
  | new _ _ ih => exact ih.sendNew _
  | gso _ _ ih => exact ih.sendGSO _
  | fault _ _ ih =>
    intro hf
    simp [raise] at hf

theorem SolidRun.sends (h : SolidRun c) (hs : Sends c c') : SolidRun c' := by
  induction hs with
  | refl => exact h
  | transmits _ ht ih => exact ih.transmits ht
  | silent _ he ih =>
    simp only [sendCore, Prod.mk.injEq] at he
    obtain ⟨-, -, -, hsnd, -, -, -, -, -, hfault⟩ := he
    rw [SolidRun, Solid, hfault, hsnd]
    exact ih
  | @opened c₁ seg _ _ _ =>
    intro _ e he
    have htx : (c₁.opened seg).tx = ((c₁.updateTSRecent seg).establish seg).tx :=
      (opened_rxOnly c₁ seg).tx
    obtain ⟨m, hm⟩ := handshakeSender_eq ((c₁.updateTSRecent seg).setState .established) seg
    have hsnd : ((c₁.updateTSRecent seg).establish seg).tx.snd
        = ((c₁.updateTSRecent seg).setState .established).handshakeSender seg := rfl
    rw [htx, hsnd, hm] at he
    cases he
  | fin _ _ ih =>
    refine fun hf => (ih hf).append rfl fun e he => ?_
    rw [List.mem_singleton.1 he]
    exact .inl rfl
  | copy _ _ ih => exact ih

/-! ### Every packet of the send side carries data or a FIN -/

/-- Every packet sent on the way from `c` to `c'` carries data or a FIN. -/
def Loaded (c c' : TCPConn) : Prop :=
  ∃ ps, c'.wire.out = c.wire.out ++ ps ∧ ∀ p ∈ ps, p.payload ≠ [] ∨ p.flags.has tcpFlagFIN = true

namespace Loaded

theorem of_silent (h : c'.wire.out = c.wire.out) : Loaded c c' :=
  ⟨[], by rw [h, List.append_nil], by simp⟩

theorem refl (c : TCPConn) : Loaded c c := of_silent rfl

theorem trans (h : Loaded c c') (h' : Loaded c' c'') : Loaded c c'' := by
  obtain ⟨ps, hps, hp⟩ := h
  obtain ⟨ps', hps', hp'⟩ := h'
  refine ⟨ps ++ ps', by rw [hps', hps, List.append_assoc], fun p hmem => ?_⟩
  exact (List.mem_append.1 hmem).elim (hp p) (hp' p)

/-- A silent change, and then more. -/
theorem after (h : Loaded c' c'') (h' : c'.wire.out = c.wire.out) : Loaded c c'' :=
  (of_silent h').trans h

theorem of_data (h : ∃ p, c'.wire.out = c.wire.out ++ [p] ∧ p.payload ≠ []) : Loaded c c' := by
  obtain ⟨p, hout, hp⟩ := h
  refine ⟨[p], hout, fun q hq => ?_⟩
  rw [List.mem_singleton.1 hq]
  exact .inl hp

theorem sendNew (c : TCPConn) (k : ℕ) : Loaded c (c.sendNew k).1 := by
  rw [TCPConn.sendNew]
  split
  · exact of_silent rfl
  · rename_i hdata
    exact of_data ⟨_, rfl, hdata⟩

theorem sendSegment (c : TCPConn) (k : ℤ) : Loaded c (c.sendSegment k).1 := by
  rw [TCPConn.sendSegment]
  split
  · exact of_silent rfl
  · exact sendNew c _

theorem sendGSO (c : TCPConn) (k : ℤ) : Loaded c (c.sendGSO k).1 := by
  rw [TCPConn.sendGSO]
  split_ifs with hneg hdata
  · exact of_silent rfl
  · exact of_silent rfl
  · exact of_data ⟨_, rfl, hdata⟩

theorem sendBatch (c : TCPConn) (w a : ℤ) : Loaded c (c.sendBatch w a).1 := by
  rw [sendBatch.eq_def]
  split
  · split
    · exact sendGSO c _
    · exact sendSegment c _
  · exact sendSegment c _

theorem sendPendingStep (c : TCPConn) : Loaded c c.sendPendingStep.1 := by
  rw [TCPConn.sendPendingStep]
  split_ifs
  iterate 4 exact refl c
  exact sendBatch c _ _

theorem sendPending (c : TCPConn) : Loaded c c.sendPending := by
  refine loop_rel Loaded trans sendPendingStep ?_ _ c
  exact fun _ => of_silent rfl

theorem limitedTransmit (c : TCPConn) : Loaded c c.limitedTransmit := by
  rw [TCPConn.limitedTransmit]
  dsimp only
  split_ifs
  iterate 3 exact refl c
  exact sendSegment c _

theorem retransmit {e : UnackedSegment} (he : e.fin = true ∨ e.data ≠ []) :
    Loaded c (c.retransmit e) := by
  rw [TCPConn.retransmit]
  split
  · refine ⟨[_], rfl, fun p hp => ?_⟩
    rw [List.mem_singleton.1 hp]
    exact .inr (show (tcpFlagFIN ||| tcpFlagACK).has tcpFlagFIN = true by decide)
  · rename_i hfin
    exact of_data ⟨_, rfl, he.resolve_left hfin⟩

theorem retransmitFirstUnSACKed (h : Solid c) : Loaded c c.retransmitFirstUnSACKed := by
  rw [TCPConn.retransmitFirstUnSACKed.eq_def]
  split
  · exact refl c
  · rename_i e rest hq
    have hmem : e ∈ c.tx.snd.unacked :=
      (List.dropWhile_sublist _).subset (by rw [hq]; exact List.mem_cons_self ..)
    exact (retransmit (h e hmem)).after rfl

theorem sackLossLoop : ∀ (l : List UnackedSegment) (c : TCPConn),
    (∀ e ∈ l, e.fin = true ∨ e.data ≠ []) → Loaded c (sackLossLoop l c).2
  | [], c, _ => refl c
  | e :: rest, c, h => by
      have hrest := fun c' => sackLossLoop rest c' fun e' he' => h e' (List.mem_cons_of_mem e he')
      rw [TCPConn.sackLossLoop]
      split_ifs
      · exact hrest c
      · exact (hrest _).after rfl
      · exact (retransmit (h e (List.mem_cons_self ..))).trans (hrest _)
      · exact hrest c

theorem handleSACK (h : Solid c) (seg : Segment) : Loaded c (c.handleSACK seg) := by
  rw [TCPConn.handleSACK]
  dsimp only
  split
  · have hsolid : ∀ e ∈ (c.tx.snd.processSACKBlocks (parseSegmentOptions seg.options).sackBlocks
        seg.ack).unacked, e.fin = true ∨ e.data ≠ [] := by
      rw [Sender.processSACKBlocks_marks]
      intro e he
      obtain ⟨e', he', rfl⟩ := List.mem_map.1 he
      rw [Sender.markSACKed]
      split <;> exact h e' he'
    exact (sackLossLoop _ _ hsolid).after rfl
  · exact refl c

theorem handleDupACK (h : Solid c) : Loaded c c.handleDupACK := by
  rw [TCPConn.handleDupACK]
  split_ifs
  · exact (sendPending _).after rfl
  · exact (limitedTransmit _).after rfl
  · exact (retransmitFirstUnSACKed (c := c.countDup.enterRecovery) h).after rfl
  · exact of_silent rfl

theorem updateCwnd (h : Solid c) (ack acked : UInt32) : Loaded c (c.updateCwnd ack acked) := by
  rw [TCPConn.updateCwnd]
  split
  · rw [TCPConn.recoveryACK]
    split
    · exact (retransmitFirstUnSACKed h).trans (of_silent rfl)
    · exact of_silent rfl
  · rw [TCPConn.growCwnd]
    dsimp only
    split_ifs <;> exact of_silent rfl

theorem handleACK (h : Solid c) (ack : UInt32) : Loaded c (c.handleACK ack) := by
  rcases handleACK_cases c ack with he | he | ⟨-, -, he⟩
  · rw [he]
    exact handleDupACK h
  · rw [he]
    exact refl c
  · have hsolid : Solid (c.advanceUna ack) := h
    have hcwnd := updateCwnd (hsolid.removeAcked ack) ack (ack - c.tx.snd.una)
    rw [he]
    exact (hcwnd.after rfl).trans (sendPending _)

theorem sendOnUpdate (c : TCPConn) (seg : Segment) (w : UInt32) : Loaded c (c.sendOnUpdate seg w) := by
  rw [TCPConn.sendOnUpdate]
  split
  · exact sendPending c
  · exact refl c

theorem manageZeroWindow (c : TCPConn) : Loaded c c.manageZeroWindow := by
  rw [TCPConn.manageZeroWindow]
  split_ifs
  · refine (sendPending _).after ?_
    rw [cancelZeroWindowProbe]
    split <;> rfl
  · rw [checkZeroWindow]
    split_ifs <;> exact of_silent rfl
  · exact refl c

theorem establishedACK (h : Solid c) (seg : Segment) : Loaded c (c.establishedACK seg) := by
  have hrtt : Solid ((c.setWnd seg).noteMaxWnd.measureRTTM seg) :=
    h.resends (((Resends.setWnd c seg).trans (.noteMaxWnd _)).trans (.measureRTTM _ seg))
  have hpart : Loaded c (c.processACK seg) := by
    have hsack := handleSACK hrtt seg
    have hack := handleACK (hrtt.resends (.handleSACK _ seg)) seg.ack
    refine (hsack.after ?_).trans hack
    obtain ⟨s, n, -, he⟩ := measureRTTM_eq (c.setWnd seg).noteMaxWnd seg
    rw [he]
    rfl
  rw [TCPConn.establishedACK]
  split
  · exact (hpart.trans (sendOnUpdate _ seg c.tx.snd.wnd)).trans (manageZeroWindow _)
  · exact refl c

/-- The part of a handler that reads the acknowledgment sends nothing but data and FINs. -/
theorem ackPart (h : Solid c) (seg : Segment) : Loaded c (c.ackPart seg) := by
  have hmeas : ∀ c : TCPConn, (c.measureRTTM seg).wire.out = c.wire.out := by
    intro c
    obtain ⟨s, n, -, he⟩ := measureRTTM_eq c seg
    rw [he]
  rw [TCPConn.ackPart.eq_def]
  split
  · exact (establishedACK (c := c.resetKeepalive) h seg).after rfl
  · rw [finWait1ACK]
    split
    · refine (handleACK (h.resends ((Resends.setWnd c seg).trans (.measureRTTM _ seg))) _).after ?_
      exact hmeas (c.setWnd seg)
    · exact refl c
  · rw [finWait2ACK]
    split <;> exact of_silent rfl
  · rw [handleCloseWait]
    split
    · refine (handleACK (h.resends (((Resends.setWnd c seg).trans (.noteMaxWnd _)).trans
        (.measureRTTM _ seg))) _).after ?_
      exact hmeas (c.setWnd seg).noteMaxWnd
    · exact refl c
  · split
    · exact (handleACK (h.resends (.measureRTTM c seg)) _).after (hmeas c)
    · exact refl c
  · exact refl c

end Loaded

/-! ### Segments before `rcv.nxt` -/

/-- All sequence numbers of the segment lie before `rcv.nxt`: its own, those of its payload and that
    of its FIN. -/
structure Stale (c : TCPConn) (seg : Segment) : Prop where
  seq : seqLessThan seg.seq c.rx.rcv.nxt = true
  payload : ∀ i < seg.payload.length, seqLessThan (seg.seq + UInt32.ofNat i) c.rx.rcv.nxt = true
  fin : seg.flags.has tcpFlagFIN = true → seqLessThan seg.finSeq c.rx.rcv.nxt = true

theorem seqLessThan_irrefl (a : UInt32) : seqLessThan a a = false := by simp [seqLessThan]

theorem takePayload_stale (h : c.Stale seg) : ∃ b has, c.takePayload seg
    = { c with rx.rcv := { c.rx.rcv with dsackBlock := b, hasDSACKBlock := has } } := by
  refine takePayload_old h.seq fun i hi he => ?_
  have hless := h.payload i hi
  rw [he, seqLessThan_irrefl] at hless
  cases hless

theorem Stale.of_rx (h : c.Stale seg) (hrx : c'.rx = c.rx) : c'.Stale seg :=
  ⟨by rw [hrx]; exact h.seq, by rw [hrx]; exact h.payload, by rw [hrx]; exact h.fin⟩

theorem Stale.not_greater (h : c.Stale seg) : seqGreaterThan seg.seq c.rx.rcv.nxt = false := by
  have hless := h.seq
  rw [seqLessThan, decide_eq_true_iff] at hless
  rw [seqGreaterThan, decide_eq_false_iff_not]
  exact fun hgt => Int32.lt_irrefl (Int32.lt_trans hgt hless)

theorem Stale.nxt_ne (h : c.Stale seg) (hf : seg.flags.has tcpFlagFIN = true) :
    c.rx.rcv.nxt ≠ seg.finSeq := by
  intro he
  have hless := h.fin hf
  rw [← he, seqLessThan_irrefl] at hless
  cases hless

/-- An ACK of its own, without data, that carries `rcv.nxt` as it was in `c`. -/
def Reply (c : TCPConn) (p : OutSegment) : Prop :=
  p.flags = tcpFlagACK ∧ p.payload = [] ∧ p.ack = c.rx.rcv.nxt

/-- Such an ACK was sent on the way from `c` to `c'`. -/
def EmitsACK (c c' : TCPConn) : Prop := ∃ ps, c'.wire.out = c.wire.out ++ ps ∧ ∃ p ∈ ps, c.Reply p

/-- The segment that took `c` to `c'` has been acknowledged, or will be when the delayed-ACK timer
    fires. -/
def ReAcked (c c' : TCPConn) : Prop := EmitsACK c c' ∨ c'.timers.delayedACKTimer.armed = true

/-- What the send side sends is no answer. -/
theorem emitsACK_iff {d : TCPConn} {qs : List OutSegment} (hl : Loaded c d)
    (hout : c'.wire.out = d.wire.out ++ qs) : EmitsACK c c' ↔ ∃ p ∈ qs, c.Reply p := by
  obtain ⟨ps, hps, hload⟩ := hl
  have hall : c'.wire.out = c.wire.out ++ (ps ++ qs) := by rw [hout, hps, List.append_assoc]
  constructor
  · rintro ⟨rs, hrs, p, hp, hreply⟩
    rw [hall] at hrs
    rw [← List.append_cancel_left hrs] at hp
    rcases List.mem_append.1 hp with hp | hp
    · rcases hload p hp with hne | hfin
      · exact absurd hreply.2.1 hne
      · rw [hreply.1] at hfin
        exact absurd hfin (by decide)
    · exact ⟨p, hp, hreply⟩
  · rintro ⟨p, hp, hreply⟩
    exact ⟨ps ++ qs, hall, p, List.mem_append_right _ hp, hreply⟩

/-- The packets of the handler's last part are `qs`, and the delayed-ACK timer is as it was. -/
theorem reAcked_iff {d : TCPConn} {qs : List OutSegment} (hl : Loaded c d)
    (hout : c'.wire.out = d.wire.out ++ qs)
    (ht : c'.timers.delayedACKTimer = c.timers.delayedACKTimer) :
    ReAcked c c' ↔ (∃ p ∈ qs, c.Reply p) ∨ c.timers.delayedACKTimer.armed = true := by
  rw [ReAcked, emitsACK_iff hl hout, ht]

/-- `sendACK` sends one packet. -/
theorem sendACK_out (c c' : TCPConn) (hs : c'.ctl.synced = true) :
    ∃ p, c'.sendACK.wire.out = c'.wire.out ++ [p] ∧
      (c.Reply p ↔ c'.rx.rcv.nxt = c.rx.rcv.nxt) := by
  refine ⟨_, rfl, ?_⟩
  simp [Reply, ackNum, hs]

/-- What the acknowledgment leaves of the connection: it is the send side's work. -/
structure Acknowledged (c d : TCPConn) : Prop where
  loaded : Loaded c d
  rx : d.rx = c.rx
  ctl : d.ctl = c.ctl
  delayed : d.timers.delayedACKTimer = c.timers.delayedACKTimer

theorem acknowledged_ackPart (h : Solid c) (seg : Segment) : Acknowledged c (c.ackPart seg) := by
  have t : TxOnly c (c.ackPart seg) := by
    rw [ackPart.eq_def]
    split
    · exact (TxOnly.resetKeepalive c).trans (.establishedACK _ seg)
    · exact .finWait1ACK c seg
    · rw [finWait2ACK]
      split
      · exact .setWnd c seg
      · exact .refl c
    · exact .handleCloseWait c seg
    · split
      · exact (TxOnly.measureRTTM c seg).trans (.handleACK _ _)
      · exact .refl c
    · exact .refl c
  exact ⟨.ackPart h seg, t.rx, t.ctl, t.delayed⟩

/-! ### The handlers -/

/-- The same, after a payload that left nothing but a DSACK block. -/
theorem Acknowledged.takePayload {d : TCPConn} (h : Acknowledged c d) (hold : c.Stale seg) :
    Loaded c (d.takePayload seg) ∧ (d.takePayload seg).ctl = c.ctl ∧
    (d.takePayload seg).rx.rcv.nxt = c.rx.rcv.nxt ∧
    (d.takePayload seg).timers.delayedACKTimer = c.timers.delayedACKTimer := by
  obtain ⟨b, has, he⟩ := takePayload_stale (hold.of_rx h.rx)
  rw [he]
  exact ⟨h.loaded.trans (.of_silent rfl), h.ctl, congrArg (fun r => r.rcv.nxt) h.rx, h.delayed⟩

theorem reAcked_established {d : TCPConn} (h : Acknowledged c d) (hs : c.ctl.synced = true)
    (hold : c.Stale seg) : ReAcked c ((d.takePayload seg).establishedFIN seg) ↔
      seg.payload ≠ [] ∨ c.timers.delayedACKTimer.armed = true := by
  obtain ⟨hload, hctl, hnxt, htimer⟩ := h.takePayload hold
  generalize d.takePayload seg = e at hload hctl hnxt htimer
  -- with or without a FIN, `scheduleACK` has the last word
  have hsched : ∀ e' : TCPConn, e'.wire.out = e.wire.out → e'.ctl = c.ctl →
      e'.rx.rcv.nxt = c.rx.rcv.nxt → e'.timers.delayedACKTimer = c.timers.delayedACKTimer →
      (ReAcked c (e'.scheduleACK seg) ↔
        seg.payload ≠ [] ∨ c.timers.delayedACKTimer.armed = true) := by
    intro e' hout hctl' hnxt' htimer'
    have hs' : e'.ctl.synced = true := by rw [hctl', hs]
    rw [scheduleACK, hnxt', hold.not_greater]
    by_cases hp : seg.payload = []
    · rw [if_pos (by rw [hp]; rfl), reAcked_iff hload (hout.trans (List.append_nil _).symm) htimer']
      simp [hp]
    · rw [if_neg (by simpa using hp), if_neg (by simp)]
      refine ⟨fun _ => .inl hp, fun _ => ?_⟩
      split
      · left
        obtain ⟨p, hp, hreply⟩ := sendACK_out c e'.countSegment.cancelDelayedACK hs'
        have hout' : e'.countSegment.ackNow.wire.out = e.wire.out ++ [p] := hp.trans (by rw [← hout]; rfl)
        exact (emitsACK_iff hload hout').2 ⟨p, List.mem_singleton_self p, hreply.2 hnxt'⟩
      · exact .inr rfl
  rw [establishedFIN, hctl, hnxt]
  split_ifs with hf heq
  · exact absurd heq (hold.nxt_ne hf.1)
  · exact hsched _ rfl hctl hnxt htimer
  · exact hsched _ rfl hctl hnxt htimer

/-- An ACK for the payload, if there is one. -/
theorem ackPayload_out (seg : Segment) (hs : c'.ctl.synced = true) (hnxt : c'.rx.rcv.nxt = c.rx.rcv.nxt) :
    ∃ qs, (c'.ackPayload seg).wire.out = c'.wire.out ++ qs ∧
      ((∃ p ∈ qs, c.Reply p) ↔ seg.payload ≠ []) := by
  rw [ackPayload]
  split
  · rename_i hp
    exact ⟨[], (List.append_nil _).symm, by simpa using hp⟩
  · rename_i hp
    obtain ⟨p, hout, hreply⟩ := sendACK_out c _ hs
    exact ⟨[p], hout, by simpa [hreply, hnxt] using hp⟩

/-- The ACK of a FIN that has been counted carries the next number. -/
theorem countFIN_out (hs : c'.ctl.synced = true) (hnxt : c'.rx.rcv.nxt = c.rx.rcv.nxt) :
    ∃ qs, c'.countFIN.sendACK.wire.out = c'.wire.out ++ qs ∧ ¬∃ p ∈ qs, c.Reply p := by
  obtain ⟨p, hout, hreply⟩ := sendACK_out c c'.countFIN hs
  refine ⟨[p], hout, ?_⟩
  rintro ⟨q, hq, hr⟩
  rw [List.mem_singleton.1 hq] at hr
  have hmoved : c'.rx.rcv.nxt + 1 = c.rx.rcv.nxt := hreply.1 hr
  rw [hnxt] at hmoved
  simp at hmoved

theorem ackPayload_delayed (c : TCPConn) (seg : Segment) :
    (c.ackPayload seg).timers.delayedACKTimer = c.timers.delayedACKTimer := by
  rw [ackPayload]
  split <;> rfl

theorem reAcked_finWait1 {d : TCPConn} (h : Acknowledged c d) (hs : c.ctl.synced = true)
    (hold : c.Stale seg) (acked : Bool) :
    ReAcked c (if seg.flags.has tcpFlagFIN = true ∧ c.ctl.synced = true
        then (d.takePayload seg).finWait1FIN acked
        else (d.takePayload seg).finWait1End seg acked) ↔
      (seg.payload ≠ [] ∧ seg.flags.has tcpFlagFIN = false) ∨
        c.timers.delayedACKTimer.armed = true := by
  obtain ⟨hload, hctl, hnxt, htimer⟩ := h.takePayload hold
  generalize d.takePayload seg = e at hload hctl hnxt htimer
  have hs' : e.ctl.synced = true := by rw [hctl, hs]
  by_cases hf : seg.flags.has tcpFlagFIN = true
  · obtain ⟨qs, hout, hno⟩ := countFIN_out hs' hnxt
    rw [if_pos ⟨hf, hs⟩, finWait1FIN]
    split
    all_goals
      refine Iff.trans (reAcked_iff hload hout htimer) ?_
      simp [hno, hf]
  · obtain ⟨qs, hout, hreply⟩ := ackPayload_out seg hs' hnxt
    have htimer' := (ackPayload_delayed e seg).trans htimer
    rw [if_neg (fun h => hf h.1), finWait1End]
    split
    all_goals
      refine Iff.trans (reAcked_iff hload hout htimer') ?_
      simp [hreply, hf]

theorem reAcked_finWait2 {d : TCPConn} (h : Acknowledged c d) (hs : c.ctl.synced = true)
    (hold : c.Stale seg) :
    ReAcked c (if seg.flags.has tcpFlagFIN = true ∧ c.ctl.synced = true
        then (d.finWait2Data seg).countFIN.sendACK.enterTimeWait
        else (d.finWait2Data seg).ackPayload seg) ↔
      (seg.payload ≠ [] ∧ seg.flags.has tcpFlagFIN = false) ∨
        c.timers.delayedACKTimer.armed = true := by
  have hdata : Loaded c (d.finWait2Data seg) ∧ (d.finWait2Data seg).ctl = c.ctl ∧
      (d.finWait2Data seg).rx.rcv.nxt = c.rx.rcv.nxt ∧
      (d.finWait2Data seg).timers.delayedACKTimer = c.timers.delayedACKTimer := by
    rw [finWait2Data]
    split
    · exact ⟨h.loaded, h.ctl, congrArg (fun r => r.rcv.nxt) h.rx, h.delayed⟩
    · obtain ⟨hload, hctl, hnxt, htimer⟩ := h.takePayload hold
      exact ⟨hload.trans (.of_silent rfl), hctl, hnxt, htimer⟩
  obtain ⟨hload, hctl, hnxt, htimer⟩ := hdata
  generalize d.finWait2Data seg = e at hload hctl hnxt htimer
  have hs' : e.ctl.synced = true := by rw [hctl, hs]
  by_cases hf : seg.flags.has tcpFlagFIN = true
  · obtain ⟨qs, hout, hno⟩ := countFIN_out hs' hnxt
    rw [if_pos ⟨hf, hs⟩]
    refine Iff.trans (reAcked_iff hload hout htimer) ?_
    simp [hno, hf]
  · obtain ⟨qs, hout, hreply⟩ := ackPayload_out seg hs' hnxt
    rw [if_neg (fun h => hf h.1), reAcked_iff hload hout ((ackPayload_delayed e seg).trans htimer),
      hreply]
    simp [hf]

/-- A FIN is acknowledged again, and nothing else is. -/
theorem reAcked_reACKFIN {d : TCPConn} (h : Acknowledged c d) (hs : c.ctl.synced = true) :
    ReAcked c (d.reACKFIN seg) ↔
      seg.flags.has tcpFlagFIN = true ∨ c.timers.delayedACKTimer.armed = true := by
  rw [reACKFIN]
  split
  · rename_i hf
    obtain ⟨p, hout, hreply⟩ := sendACK_out c d (by rw [h.ctl, hs])
    rw [reAcked_iff h.loaded hout h.delayed]
    simp [hreply, h.rx, hf]
  · rename_i hf
    rw [reAcked_iff h.loaded (List.append_nil _).symm h.delayed]
    simp [hf]

/-- A handler that ends with the acknowledgment does not answer. -/
theorem reAcked_silent {d : TCPConn} (h : Acknowledged c d) (hout : c'.wire.out = d.wire.out)
    (ht : c'.timers.delayedACKTimer = d.timers.delayedACKTimer) :
    ReAcked c c' ↔ c.timers.delayedACKTimer.armed = true := by
  rw [reAcked_iff h.loaded (hout.trans (List.append_nil _).symm) (ht.trans h.delayed)]
  simp

/-! ### What is left of the queue in CLOSING -/

/-- Something stays outstanding after the acknowledgment `ack`, with nothing more to send. -/
def remains (c : TCPConn) (ack : UInt32) : Bool :=
  if seqGreaterThan ack c.tx.snd.una && !seqGreaterThan ack c.tx.snd.nxt then
    !(dropAcked ack c.tx.snd.unacked).isEmpty
  else c.hasUnacked

theorem handleDupACK_hasUnacked (hlen : c.tx.writeBuf.len = 0) :
    c.handleDupACK.hasUnacked = c.hasUnacked := by
  rw [handleDupACK]
  split_ifs
  · rw [sendPending_of_empty (c := c.countDup.inflate) hlen]
    rfl
  · have hnone : c.countDup.limitedTransmit = c.countDup := by
      rw [limitedTransmit]
      exact if_pos (by simp [countDup, hlen])
    rw [hnone]
    rfl
  · exact hasUnacked_resends ((Resends.retransmitFirstUnSACKed c.countDup.enterRecovery).after rfl)
  · rfl

theorem handleACK_hasUnacked (hlen : c.tx.writeBuf.len = 0) (ack : UInt32) :
    (c.handleACK ack).hasUnacked = c.remains ack := by
  rw [handleACK]
  by_cases hdup : ack = c.tx.snd.una
  · rw [if_pos hdup, handleDupACK_hasUnacked hlen, remains, if_neg]
    simp [hdup, seqGreaterThan]
  · rw [if_neg hdup, remains]
    cases hnew : seqGreaterThan ack c.tx.snd.una with
    | false => rfl
    | true =>
      cases hbeyond : seqGreaterThan ack c.tx.snd.nxt with
      | true => rfl
      | false =>
        have hqueue := congrArg List.isEmpty (handleNewACK_of_empty hlen ack).2.2.2
        rw [List.isEmpty_map, List.isEmpty_map] at hqueue
        show (c.handleNewACK ack).hasUnacked = _
        rw [hasUnacked, hqueue]
        rfl

theorem closingACK_hasUnacked (hlen : c.tx.writeBuf.len = 0) (seg : Segment) :
    (c.closingACK seg).hasUnacked = c.remains seg.ack := by
  obtain ⟨s, n, ⟨_, _, _, rfl⟩, he⟩ := measureRTTM_eq c seg
  have hlen' : (c.measureRTTM seg).tx.writeBuf.len = 0 := by rw [he]; exact hlen
  have hsame : (c.measureRTTM seg).remains seg.ack = c.remains seg.ack := by rw [he]; rfl
  exact (handleACK_hasUnacked hlen' seg.ack).trans hsame

/-- A FIN is sent, or waited for, only with `writeBuf` closed, and once it has been sent and not yet
    acknowledged nothing is left to send. -/
structure Shut (c : TCPConn) : Prop where
  token : c.app.closeCh = true ∨ c.ctl.finPending = true → c.tx.writeBuf.closed = true
  sent : c.ctl.state = .finWait1 ∨ c.ctl.state = .closing → Finished c

theorem Shut.transmits (h : Shut c) (ht : Transmits c c')
    (hcl : c'.ctl.state = .closing → c.ctl.state = .finWait1 ∨ c.ctl.state = .closing) : Shut c' := by
  have htok := ht.tokens
  simp only [TCPConn.tokens, Prod.mk.injEq] at htok
  obtain ⟨-, -, hpend, hclose, -⟩ := htok
  refine ⟨?_, fun hs => ?_⟩
  · rw [hclose, hpend]
    exact fun htoken => ht.drained.closed (h.token htoken)
  · have hf : Finished c := by
      rcases hs with hs | hs
      · exact h.sent (.inl ((ht.early (by rw [hs]; rfl)).trans hs))
      · exact h.sent (hcl hs)
    exact ⟨ht.drained.closed hf.1, Nat.le_zero.1 (ht.drained.len_le.trans hf.2.le)⟩

theorem shut_finalizeFIN (hclosed : c.tx.writeBuf.closed = true) (hlen : c.tx.writeBuf.len = 0) :
    Shut c.finalizeFIN := by
  refine ⟨fun _ => by rw [finalizeFIN_writeBuf]; exact hclosed, fun _ => ?_⟩
  rw [Finished, finalizeFIN_writeBuf]
  exact ⟨hclosed, hlen⟩

theorem Shut.finIfDrained (h : Shut c) (hp : c.ctl.finPending = true) : Shut c.finIfDrained := by
  rw [TCPConn.finIfDrained]
  split
  · rename_i hlen
    exact shut_finalizeFIN (h.token (.inr hp)) hlen
  · exact h

/-- No segment brings a connection into the states before our FIN is acknowledged. -/
theorem CtlStep.unacked {k : Ctl} (h : CtlStep c seg k)
    (hs : k.state = .finWait1 ∨ k.state = .closing) :
    c.ctl.state = .finWait1 ∨ c.ctl.state = .closing := by
  cases h with
  | same => exact hs
  | finWait1 hfrom => exact .inl hfrom
  | reset =>
    rw [Ctl.finish_state fun _ => rfl] at hs
    rcases hs with hs | hs <;> cases hs
  | lastAck =>
    rcases c.ctl.finish_keep.2 with hk | hk
    · rwa [hk] at hs
    · rw [hk] at hs
      rcases hs with hs | hs <;> cases hs
  | _ => rcases hs with hs | hs <;> cases hs

theorem Shut.onInbound (h : Shut c) (seg : Segment) : Shut (c.onInbound seg) := by
  have hback := fun hs => (handleSegment_ctl c seg).unacked hs
  have hseg : Shut (c.handleSegment seg) := by
    rcases handleSegment_cases c seg with ht | ⟨hsyn, he⟩
    · exact h.transmits ht fun hs => hback (.inr hs)
    · rw [hsyn] at hback
      refine ⟨?_, fun hs => (hback hs).elim (fun h => by cases h) (fun h => by cases h)⟩
      have happ : (c.opened seg).app = c.app :=
        (opened_rxOnly c seg).app.trans (RxOnly.updateTSRecent c seg).app
      have htx : (c.opened seg).tx.writeBuf = c.tx.writeBuf := by
        have hopen := congrArg Tx.writeBuf (opened_rxOnly c seg).tx
        have hts := congrArg Tx.writeBuf (RxOnly.updateTSRecent c seg).tx
        exact hopen.trans hts
      rw [he, happ, opened_finPending, htx]
      exact h.token
  have hrto : Shut (c.handleSegment seg).manageRTO :=
    hseg.transmits (.of_resends (.manageRTO _)) fun hs => by
      rw [manageRTO_ctl] at hs
      exact .inr hs
  rw [TCPConn.onInbound, drainForFIN]
  split
  · rename_i hp
    have hsend := hrto.transmits (.sendPending _) fun hs => by
      rw [(TxOnly.sendPending _).ctl] at hs
      exact .inr hs
    exact hsend.finIfDrained (by rw [(TxOnly.sendPending _).ctl]; exact hp.1)
  · exact hrto

theorem Shut.onWriteNotify (h : Shut c) : Shut c.onWriteNotify := by
  have hsend := h.transmits (.onWriteNotifySend c) fun hs => by
    rw [onWriteNotifySend_ctl] at hs
    exact .inr hs
  rw [TCPConn.onWriteNotify]
  split_ifs with hsync hp
  · exact hsend.finIfDrained (by rw [onWriteNotifySend_ctl]; exact hp)
  · exact hsend
  · exact ⟨h.token, h.sent⟩

theorem Shut.onClose (h : Shut c) (hin : c.ctl.SyncedInside) (htoken : c.app.closeCh = true) :
    Shut c.onClose := by
  have hclosed := h.token (.inl htoken)
  have htaken : Shut { c with app.closeCh := false } := ⟨fun _ => hclosed, h.sent⟩
  have hflush : Shut { c with app.closeCh := false }.flush :=
    htaken.transmits (.flush _) fun hs => by
      rw [(TxOnly.flush _).ctl] at hs
      exact .inr hs
  have hbuf : { c with app.closeCh := false }.flush.tx.writeBuf.closed = true :=
    (TxOnly.flush _).closed.trans hclosed
  have hfin : c.ctl.synced = true → Shut { c with app.closeCh := false }.flush.finOrDefer := by
    intro hs
    rw [finOrDefer]
    split
    · exact ⟨fun _ => hbuf, hflush.sent⟩
    · rename_i hlen
      rw [(TxOnly.flush _).ctl] at hlen
      exact shut_finalizeFIN hbuf (by simpa [hs] using hlen)
  have hclose : Shut { c with app.closeCh := false }.handleClose := by
    rw [handleClose.eq_def]
    split
    · rename_i hst
      exact hfin (hin.resolve_right fun h => h.elim (fun h => by cases hst.symm.trans h)
        (fun h => by cases hst.symm.trans h))
    · rename_i hst
      exact hfin (hin.resolve_right fun h => h.elim (fun h => by cases hst.symm.trans h)
        (fun h => by cases hst.symm.trans h))
    · exact htaken
  rw [TCPConn.onClose]
  dsimp only
  split
  · exact hclose.transmits (.of_resends (.armRTO _)) fun hs => by
      rw [armRTO_ctl] at hs
      exact .inr hs
  · exact hclose

/-- The handler of the state answers a segment before `rcv.nxt`. -/
def Answers (c : TCPConn) (seg : Segment) : Prop :=
  match c.ctl.state with
  | .established => seg.payload ≠ []
  | .finWait1 | .finWait2 => seg.payload ≠ [] ∧ seg.flags.has tcpFlagFIN = false
  | .closing => seg.flags.has tcpFlagFIN = true ∧
      (seg.flags.has tcpFlagACK = true → c.remains seg.ack = true)
  | .timeWait => seg.flags.has tcpFlagFIN = true
  | _ => False

theorem reAcked_dispatch (hs : c.ctl.synced = true) (hsolid : Solid c)
    (hclosing : c.ctl.state = .closing → c.tx.writeBuf.len = 0) (hsyn : c.ctl.state ≠ .synRcvd)
    (hclosed : c.ctl.state ≠ .closed) (hold : c.Stale seg) :
    ReAcked c (c.dispatch seg) ↔ c.Answers seg ∨ c.timers.delayedACKTimer.armed = true := by
  have hack := acknowledged_ackPart hsolid seg
  have hself : Acknowledged c c := ⟨.refl c, rfl, rfl, rfl⟩
  rw [ackPart.eq_def] at hack
  rw [dispatch.eq_def, Answers]
  cases hst : c.ctl.state <;> rw [hst] at hsyn hclosed hclosing hack <;> dsimp only at hack ⊢
  case synRcvd => exact absurd rfl hsyn
  case closed => exact absurd rfl hclosed
  case established => exact reAcked_established hack hs hold
  case finWait1 => exact reAcked_finWait1 hack hs hold _
  case finWait2 => exact reAcked_finWait2 hack hs hold
  case closeWait => simpa using reAcked_silent hack rfl rfl
  case closing =>
    rw [handleClosing]
    by_cases hf : seg.flags.has tcpFlagACK = true
    · rw [if_pos ⟨hf, hs⟩] at hack ⊢
      rw [closingACK_hasUnacked (hclosing rfl)]
      cases hrem : c.remains seg.ack with
      | true =>
        rw [if_neg (by simp), reAcked_reACKFIN hack hs]
        simp
      | false =>
        rw [if_pos (by rfl)]
        refine Iff.trans (reAcked_silent hack rfl rfl) ?_
        simp [hf]
    · rw [if_neg (fun h => hf h.1), reAcked_reACKFIN hself hs]
      simp [hf]
  case lastAck =>
    rw [false_or, handleLastAck]
    split_ifs
    · have hlast : Acknowledged c (c.handleACK seg.ack) :=
        ⟨.handleACK hsolid _, (TxOnly.handleACK c _).rx, (TxOnly.handleACK c _).ctl,
          (TxOnly.handleACK c _).delayed⟩
      refine reAcked_silent hlast ?_ ?_ <;> rw [closeDone] <;> split <;> rfl
    · exact reAcked_silent hself rfl rfl
    · exact reAcked_silent hself rfl rfl
  case timeWait =>
    rw [handleTimeWait]
    split_ifs with hf
    · obtain ⟨p, hout, hreply⟩ := sendACK_out c _ hs
      refine Iff.trans (reAcked_iff (.refl c) hout rfl) ?_
      simp [hreply, hf]
    · rw [reAcked_silent hself rfl rfl]
      simp [hf]

end TCPConn

open TCPConn

theorem shut_step {s s' : Sys} {e : Event} (h : Shut s.conn) (hin : s.conn.ctl.SyncedInside)
    (hstep : Sys.Step s e s') : Shut s'.conn := by
  -- the steps other than segments do not lead to CLOSING
  have hback : (∀ seg, e ≠ .inbound seg) → s'.conn.ctl.state = .closing →
      s.conn.ctl.state = .finWait1 ∨ s.conn.ctl.state = .closing := by
    intro hne hs
    rcases hstep.ctl with ⟨seg, k, he, -⟩ | ⟨-, hk⟩
    · exact absurd he (hne seg)
    · generalize s'.conn.ctl = k at hk hs
      have hkeep := s.conn.ctl.finish_keep.2
      cases hk with
      | same | defer => exact .inr hs
      | finish | exit => exact .inr (hkeep.elim (fun h => h.symm.trans hs)
          (fun h => by cases h.symm.trans hs))
      | finalize =>
        rw [Ctl.finalize.eq_def] at hs
        split at hs
        · cases hs
        · cases hs
        · exact .inr hs
  by_cases he : Sys.resending e = true
  · refine h.transmits (.of_resends (hstep.resends he)) (hback fun seg hin => ?_)
    rw [hin] at he
    cases he
  cases hstep
  case inbound seg _ => exact h.onInbound seg
  case zeroWindowTimer => exact h.transmits (.onZeroWindow _) (hback fun _ he => by cases he)
  case writeNotify => exact h.onWriteNotify
  case closeCh _ htoken => exact h.onClose hin htoken
  case closeWrite =>
    rw [TCPConn.closeWrite]
    split
    · exact h
    · exact ⟨fun _ => rfl, fun hs => ⟨rfl, (h.sent hs).2⟩⟩
  case writeCopy hopen _ =>
    have hclosed : ¬s.conn.tx.writeBuf.closed = true := by simp [hopen]
    exact ⟨fun ht => absurd (h.token ht) hclosed, fun hs => absurd (h.sent hs).1 hclosed⟩
  case writeCopied | writeBlocked => exact ⟨h.token, h.sent⟩
  all_goals exact absurd rfl he

theorem shut_reach {ok : Sys → Event → Prop} {s : Sys} (hr : Reach Sys.Init Sys.step ok s) :
    Shut s.conn := by
  induction hr with
  | start h =>
    obtain ⟨h, irs, iss, options, hr, hw, -, rfl⟩ := Sys.init_iff.1 h
    exact ⟨fun h => h.elim (fun h => by cases h) (fun h => by cases h),
      fun h => h.elim (fun h => by cases h) (fun h => by cases h)⟩
  | next hr _ hs ih => exact shut_step ih (syncedInside_reach hr) (Sys.step_inv hs).2

theorem solid_reach {ok : Sys → Event → Prop} {s : Sys} (hr : Reach Sys.Init Sys.step ok s) :
    SolidRun s.conn := by
  refine hr.invariant (I := fun s => SolidRun s.conn) (fun s h => ?_) fun s e s' h _ hs => ?_
  · obtain ⟨h, irs, iss, options, hr, hw, -, rfl⟩ := Sys.init_iff.1 h
    exact fun _ _ he => by cases he
  · exact h.sends (Sys.step_inv hs).2.sends

/-- CORRECT, with the condition it needs: a segment before `rcv.nxt` that reaches the handler of the
    state is answered with an ACK of `rcv.nxt`, or leaves the delayed-ACK timer armed, exactly if the
    handler answers it (`Answers`) or the timer was armed already. -/
theorem re_ack_iff {s : Sys} (hr : Reach Sys.Init Sys.step (fun _ _ => True) s) (seg : Segment)
    (hlive : s.conn.fault = none) (hsyn : s.conn.ctl.state ≠ .synRcvd)
    (hclosed : s.conn.ctl.state ≠ .closed) (hrst : seg.flags.has tcpFlagRST = false)
    (hsynf : seg.flags.has tcpFlagSYN = false) (hpaws : s.conn.pawsDrop seg = false)
    (hold : s.conn.Stale seg) : ReAcked s.conn (s.conn.handleSegment seg) ↔
      s.conn.Answers seg ∨ s.conn.timers.delayedACKTimer.armed = true := by
  have hs : s.conn.ctl.synced = true :=
    (syncedInside_reach hr).resolve_right fun h => h.elim hsyn hclosed
  have hsolid := solid_reach hr hlive
  have hempty : s.conn.ctl.state = .closing → s.conn.tx.writeBuf.len = 0 :=
    fun h => ((shut_reach hr).sent (.inr h)).2
  obtain ⟨v, hv⟩ := updateTSRecent_eq s.conn seg
  rw [handleSegment, hpaws, hrst, hsynf, if_neg (by simp), if_neg (by simp), if_neg (by simp), hv]
  exact reAcked_dispatch (c := { s.conn with wire.tsRecent := v }) hs hsolid hempty hsyn hclosed
    (hold.of_rx rfl)

/-- A byte sent again after it has been delivered. -/
theorem re_ack_byte : ∃ s : Sys, s.conn.rx.rcv.nxt = 102 ∧
    ReAcked s.conn (s.conn.handleSegment (Sys.sampleSegment tcpFlagACK 101 201 1000 [7])) := by
  obtain ⟨s, hr, hst, hnxt, hlive, hts⟩ := Sys.exists_reach Sys.init_sample (fun _ _ => true)
    (fun s => s.conn.ctl.state = .established ∧ s.conn.rx.rcv.nxt = 102 ∧ s.conn.fault = none ∧
      s.conn.env.tsEnabled = false)
    [Sys.sampleACK, .inbound (Sys.sampleSegment tcpFlagACK 101 201 1000 [7])] (by decide +kernel)
  refine ⟨s, hnxt, (re_ack_iff (hr.mono fun _ _ _ => trivial)
    (Sys.sampleSegment tcpFlagACK 101 201 1000 [7]) hlive (by rw [hst]; simp) (by rw [hst]; simp)
    (by decide) (by decide) ?_ ⟨?_, ?_, fun h => absurd h (by decide)⟩).2 (.inl ?_)⟩
  · rw [pawsDrop, Segment.timestamp_of_off _ hts]
  · rw [hnxt]
    exact (by decide : seqLessThan 101 102 = true)
  · intro i hi
    obtain rfl : i = 0 := Nat.lt_one_iff.1 hi
    rw [hnxt]
    exact (by decide : seqLessThan (101 + UInt32.ofNat 0) 102 = true)
  · rw [Answers, hst]
    exact List.cons_ne_nil _ _

/-- An empty keepalive probe at `rcv.nxt - 1` in ESTABLISHED: no packet, no timer. -/
theorem keepalive_probe_unanswered : ∃ s : Sys, Reach Sys.Init Sys.step (fun _ _ => True) s ∧
    s.conn.ctl.state = .established ∧ s.conn.fault = none ∧ s.conn.rx.rcv.nxt = 101 ∧
    s.conn.pawsDrop (Sys.sampleSegment tcpFlagACK 100 201 1000 []) = false ∧
    (s.conn.handleSegment (Sys.sampleSegment tcpFlagACK 100 201 1000 [])).wire.out = s.conn.wire.out ∧
    (s.conn.handleSegment (Sys.sampleSegment tcpFlagACK 100 201 1000 [])).timers.delayedACKTimer.armed
      = false := by
  obtain ⟨s, hr, hs⟩ := Sys.exists_reach Sys.init_sample (fun _ _ => true)
    (fun s => s.conn.ctl.state = .established ∧ s.conn.fault = none ∧ s.conn.rx.rcv.nxt = 101 ∧
      s.conn.pawsDrop (Sys.sampleSegment tcpFlagACK 100 201 1000 []) = false ∧
      (s.conn.handleSegment (Sys.sampleSegment tcpFlagACK 100 201 1000 [])).wire.out
        = s.conn.wire.out ∧
      (s.conn.handleSegment
        (Sys.sampleSegment tcpFlagACK 100 201 1000 [])).timers.delayedACKTimer.armed = false)
    [Sys.sampleACK] (by decide +kernel)
  exact ⟨s, hr.mono fun _ _ _ => trivial, hs⟩

end Netstack.Tcp
