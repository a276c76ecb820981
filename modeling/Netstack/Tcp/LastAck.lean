import Netstack.Tcp.Control
import Netstack.Tcp.SendStream

/-! How a connection leaves LAST_ACK.

    `handleLastAck` closes the connection on every acknowledgment that compares as newer than
    `snd.una`, before `handleACK` has looked at it. The invariant behind the result is that a
    connection in LAST_ACK still has its FIN in the queue: only an acknowledgment takes entries out,
    and one that does closes the connection. -/

namespace Netstack.Tcp
open Netstack.Header Netstack.Serial Netstack.Trace Netstack.Loop

namespace TCPConn

variable {c c' c'' : TCPConn}

/-- Our FIN is in the queue. -/
def FinQueued (c : TCPConn) : Prop := ∃ e ∈ c.tx.snd.unacked, e.fin = true

theorem FinQueued.grows (h : FinQueued c) (hg : Grows c c') : FinQueued c' := by
  obtain ⟨e, he, hfin⟩ := h
  obtain ⟨e', he', hs⟩ := List.mem_map.1 (hg.subset (List.mem_map_of_mem he))
  simp only [UnackedSegment.sent, Prod.mk.injEq] at hs
  exact ⟨e', he', hs.2.2.trans hfin⟩

theorem finQueued_sendFIN (c : TCPConn) : FinQueued c.sendFIN := ⟨_, List.mem_concat_self, rfl⟩

/-- A FIN that has just been sent is queued. -/
theorem finQueued_finalizeFIN (hs : c.ctl.state ≠ .lastAck) :
    c.finalizeFIN.ctl.state = .lastAck → FinQueued c.finalizeFIN := by
  rw [TCPConn.finalizeFIN.eq_def]
  split
  · exact fun _ => finQueued_sendFIN _
  · exact fun _ => finQueued_sendFIN _
  · exact fun h => absurd h hs

theorem finQueued_finIfDrained (hs : c.ctl.state ≠ .lastAck) :
    c.finIfDrained.ctl.state = .lastAck → FinQueued c.finIfDrained := by
  rw [TCPConn.finIfDrained]
  split
  · exact finQueued_finalizeFIN hs
  · exact fun h => absurd h hs

/-! ### Segments in LAST_ACK -/

/-- A segment that `handleSegment` does not hand to the state's handler. -/
def Dropped (c : TCPConn) (seg : Segment) : Prop :=
  c.pawsDrop seg = true ∨ seg.flags.has tcpFlagSYN = true

theorem sendPending_of_empty (h : c.tx.writeBuf.len = 0) : c.sendPending = c := by
  have hstep : c.sendPendingStep = (c, false) := by
    rw [sendPendingStep]
    split_ifs <;> first | rfl | omega
  rw [TCPConn.sendPending, loop, hstep]
  rfl

/-- With nothing left to send, a new acknowledgment moves `snd.una`, takes what it covers out of the
    queue, and does nothing else to the sequence numbers. -/
theorem handleNewACK_of_empty (hlen : c.tx.writeBuf.len = 0) (ack : UInt32) :
    (c.handleNewACK ack).tx.writeBuf.len = 0 ∧ (c.handleNewACK ack).tx.snd.una = ack ∧
    (c.handleNewACK ack).tx.snd.nxt = c.tx.snd.nxt ∧
    (c.handleNewACK ack).tx.snd.unacked.map UnackedSegment.sent
      = (dropAcked ack c.tx.snd.unacked).map UnackedSegment.sent := by
  obtain ⟨s, n, ⟨_, _, _, rfl⟩, he⟩ := removeAcked_eq (c.advanceUna ack) ack
  have hr := Resends.updateCwnd ((c.advanceUna ack).removeAcked ack) ack (ack - c.tx.snd.una)
  have hempty : (((c.advanceUna ack).removeAcked ack).updateCwnd ack
      (ack - c.tx.snd.una)).tx.writeBuf.len = 0 := by
    rw [← RingBuffer.contents_eq_nil_iff, hr.contents, he, RingBuffer.contents_eq_nil_iff]
    exact hlen
  rw [handleNewACK, sendPending_of_empty hempty]
  refine ⟨hempty, hr.una.trans ?_, hr.nxt.trans ?_, hr.queue.trans ?_⟩ <;> rw [he] <;> rfl

/-- `handleLastAck` closes the connection, or does nothing. -/
theorem handleSegment_lastAck (hs : c.ctl.state = .lastAck) (seg : Segment) :
    RxOnly c (c.handleSegment seg) ∧
      (seg.flags.has tcpFlagRST = false → (c.handleSegment seg).ctl = c.ctl ∧
        (seg.flags.has tcpFlagACK = true → c.ctl.synced = true →
          Dropped c seg ∨ (!c.hasUnacked || seqGreaterThan seg.ack c.tx.snd.una) = false)) ∨
    (¬Dropped c seg ∧ (!c.hasUnacked || seqGreaterThan seg.ack c.tx.snd.una) = true) ∧
      c.handleSegment seg = ((c.updateTSRecent seg).handleACK seg.ack).closeDone := by
  rw [handleSegment]
  split_ifs with hpaws hr hsyn
  · exact .inl ⟨.refl c, fun _ => ⟨rfl, fun _ _ => .inl (.inl hpaws)⟩⟩
  · exact .inl ⟨.handleRSTSegment c seg, fun hrst => absurd (hrst.symm.trans hr) (by simp)⟩
  · exact .inl ⟨.sendACK c, fun _ => ⟨rfl, fun _ _ => .inl (.inr hsyn.1)⟩⟩
  · have t := TxOnly.updateTSRecent c seg
    have r := RxOnly.updateTSRecent c seg
    have hdisp : (c.updateTSRecent seg).dispatch seg = (c.updateTSRecent seg).handleLastAck seg := by
      rw [dispatch, t.ctl, hs]
    have hview : (c.updateTSRecent seg).hasUnacked = c.hasUnacked := by
      rw [hasUnacked, hasUnacked, r.tx]
    rw [hdisp, handleLastAck, hview, r.tx, r.synced]
    split_ifs with hack hnew
    · refine .inr ⟨⟨?_, hnew⟩, rfl⟩
      rintro (h | h)
      · exact hpaws h
      · exact hsyn ⟨h, by rw [hs]; simp⟩
    · exact .inl ⟨r, fun _ => ⟨t.ctl, fun _ _ => .inr (by simpa using hnew)⟩⟩
    · exact .inl ⟨r, fun _ => ⟨t.ctl, fun h h' => absurd ⟨h, h'⟩ hack⟩⟩

theorem CtlStep.from_lastAck {seg : Segment} {k : Ctl} (h : CtlStep c seg k)
    (hk : k.state = .lastAck) : c.ctl.state = .lastAck := by
  cases h with
  | same => exact hk
  | reset => exact absurd ((Ctl.finish_state fun _ => rfl).symm.trans hk) (by simp)
  | finWait1 _ _ hto => rcases hto with rfl | rfl | rfl <;> cases hk
  | lastAck hs => exact hs
  | _ => cases hk

/-- A connection in LAST_ACK has its FIN in the queue. -/
def AwaitsACK (c : TCPConn) : Prop := c.ctl.state = .lastAck → FinQueued c

theorem AwaitsACK.onInbound (h : AwaitsACK c) (hd : c.ctl.DoneClosed) (seg : Segment) :
    AwaitsACK (c.onInbound seg) := by
  -- in LAST_ACK a segment that takes entries out of the queue closes the connection
  have hseg : AwaitsACK (c.handleSegment seg) := by
    intro hs
    have hfrom := (handleSegment_ctl c seg).from_lastAck hs
    rcases handleSegment_lastAck hfrom seg with ⟨hr, -⟩ | ⟨-, he⟩
    · exact (h hfrom).grows (.of_resends (.of_rxOnly hr))
    · rw [he, closeDone_ctl, (TxOnly.handleACK _ _).ctl, (TxOnly.updateTSRecent c seg).ctl,
        Ctl.finish_state hd] at hs
      cases hs
  rw [TCPConn.onInbound, drainForFIN]
  have hrto : AwaitsACK (c.handleSegment seg).manageRTO := by
    intro hs
    rw [manageRTO_ctl] at hs
    exact (hseg hs).grows (.of_resends (.manageRTO _))
  split
  · intro hs
    by_cases hlast : (c.handleSegment seg).manageRTO.ctl.state = .lastAck
    · exact (hrto hlast).grows ((Grows.sendPending _).trans (.finIfDrained _))
    · refine finQueued_finIfDrained ?_ hs
      rw [(TxOnly.sendPending _).ctl]
      exact hlast
  · exact hrto

theorem AwaitsACK.onWriteNotify (h : AwaitsACK c) : AwaitsACK c.onWriteNotify := by
  intro hs
  by_cases hlast : c.ctl.state = .lastAck
  · exact (h hlast).grows (.onWriteNotify c)
  · rw [TCPConn.onWriteNotify] at hs ⊢
    split_ifs at hs ⊢
    · exact finQueued_finIfDrained (by rw [onWriteNotifySend_ctl]; exact hlast) hs
    · rw [onWriteNotifySend_ctl] at hs
      exact absurd hs hlast
    · exact absurd hs hlast

theorem AwaitsACK.onClose (h : AwaitsACK c) : AwaitsACK c.onClose := by
  intro hs
  by_cases hlast : c.ctl.state = .lastAck
  · exact (h hlast).grows (.onClose c)
  · have hclose : AwaitsACK { c with app.closeCh := false }.handleClose := by
      have hfin : AwaitsACK { c with app.closeCh := false }.flush.finOrDefer := by
        have hflush : { c with app.closeCh := false }.flush.ctl.state ≠ .lastAck := by
          rw [(TxOnly.flush _).ctl]
          exact hlast
        rw [finOrDefer]
        split
        · exact fun h => absurd h hflush
        · exact finQueued_finalizeFIN hflush
      rw [handleClose.eq_def]
      split
      iterate 2 exact hfin
      exact fun h => absurd h hlast
    rw [TCPConn.onClose] at hs ⊢
    dsimp only at hs ⊢
    split_ifs at hs ⊢
    · rw [armRTO_ctl] at hs
      exact (hclose hs).grows (.of_resends (.armRTO _))
    · exact hclose hs

theorem AwaitsACK.transmits (h : AwaitsACK c) (ht : Transmits c c') (hg : Grows c c') :
    AwaitsACK c' :=
  fun hs => (h ((ht.early (by rw [hs]; rfl)).trans hs)).grows hg

theorem AwaitsACK.resends (h : AwaitsACK c) (hr : Resends c c') : AwaitsACK c' :=
  h.transmits (.of_resends hr) (.of_resends hr)

end TCPConn

open TCPConn

theorem awaitsACK_step {s s' : Sys} {e : Event} (h : AwaitsACK s.conn) (hd : s.conn.ctl.DoneClosed)
    (hstep : Sys.Step s e s') : AwaitsACK s'.conn := by
  by_cases he : Sys.resending e = true
  · exact h.resends (hstep.resends he)
  cases hstep
  case inbound seg _ => exact h.onInbound hd seg
  case zeroWindowTimer => exact h.transmits (.onZeroWindow _) (.onZeroWindow _)
  case writeNotify => exact h.onWriteNotify
  case closeCh => exact h.onClose
  case closeWrite =>
    rw [TCPConn.closeWrite]
    split <;> exact h
  case writeCopy | writeCopied | writeBlocked => exact h
  all_goals exact absurd rfl he

theorem awaitsACK_reach {ok : Sys → Event → Prop} {s : Sys} (hr : Reach Sys.Init Sys.step ok s) :
    AwaitsACK s.conn := by
  induction hr with
  | start h =>
    obtain ⟨h, irs, iss, options, hr, hw, -, rfl⟩ := Sys.init_iff.1 h
    exact fun hs => by cases hs
  | next hr _ hs ih => exact awaitsACK_step ih (doneClosed_reach hr) (Sys.step_inv hs).2

/-! ### The close -/

/-- The acknowledgment lies in the window of what is outstanding: `una ≤ ack ≤ nxt`. -/
def ValidACK (c : TCPConn) (ack : UInt32) : Prop :=
  (ack - c.tx.snd.una).toNat ≤ (c.tx.snd.nxt - c.tx.snd.una).toNat

/-- `c'` comes from `c` in LAST_ACK by a segment that acknowledges `ack`: the connection is closed
    only by a valid acknowledgment of everything, our FIN included, and by any other one it is left
    as it is, with all that is not acknowledged still queued. -/
structure ClosesInFull (c c' : TCPConn) (ack : UInt32) : Prop where
  closed : c'.ctl.state = .closed →
    ValidACK c ack ∧ c'.tx.snd.una = c'.tx.snd.nxt ∧ c'.tx.snd.unacked = []
  kept : ack ≠ c.tx.snd.nxt → c'.ctl.state = .lastAck ∧ ∀ e ∈ c.tx.snd.unacked,
    ¬ValidACK c ack ∨ seqGreaterThan e.segEnd ack = true → ∃ e' ∈ c'.tx.snd.unacked, e'.sent = e.sent

/-- An acknowledgment of all of a short enough queue empties it. -/
theorem dropAcked_all {b : UInt32} {n : ℕ} : ∀ {l : List UnackedSegment} {x : ℕ}, Chain b x l n →
    n < x + 2 ^ 31 → dropAcked (seqAt b n) l = []
  | [], _, _, _ => rfl
  | e :: l, x, h, hlt => by
      have hx := h.lt
      obtain ⟨hseq, hpos, hw, -, hrest⟩ := h
      have hle := hrest.le
      have hend : (seqLessThan e.segEnd (seqAt b n) || e.segEnd == seqAt b n) = true := by
        rw [segEnd_eq hseq, seqLessThan_seqAt b (by omega) (by omega), Bool.or_eq_true, beq_iff_eq,
          seqAt_inj b (by omega) (by omega), decide_eq_true_iff]
        omega
      rw [dropAcked, hseq, seqGreaterThan_seqAt b (by omega) (by omega), if_neg (by simp; omega),
        if_pos hend]
      exact dropAcked_all hrest (by omega)

theorem TCPConn.drainForFIN_of_not {c : TCPConn} (h : c.ctl.finPending = false) :
    c.drainForFIN = c := by
  rw [drainForFIN, if_neg (by simp [h])]

/-- What LAST_ACK means for the send side. -/
structure Awaiting (c : TCPConn) (x n : ℕ) : Prop where
  sending : Sending c x n true
  synced : c.ctl.synced = true
  queued : c.hasUnacked = true
  pending : c.ctl.finPending = false

theorem awaiting_of_lastAck {ok : Sys → Event → Prop} {s : Sys} (hr : Reach Sys.Init Sys.step ok s)
    (hs : s.conn.ctl.state = .lastAck) (hm : 1 ≤ s.conn.tx.snd.mss) :
    ∃ x n, Awaiting s.conn x n := by
  have hinv := sendInv_reach (reach_positiveMSS hr fun _ => hm)
  obtain ⟨e, he, hfin⟩ := awaitsACK_reach hr hs
  have hsync : s.conn.ctl.synced = true := by
    by_contra hu
    rw [(hinv.fresh (by simpa using hu)).queue] at he
    cases he
  obtain ⟨f, ⟨x, n, hsend⟩, hclose⟩ := hinv.sends hsync
  cases f with
  | false => exact absurd (((hsend.data rfl).2 e he).symm.trans hfin) (by simp)
  | true =>
    refine ⟨x, n, hsend, hsync, ?_, ?_⟩
    · rw [hasUnacked]
      cases hq : s.conn.tx.snd.unacked with
      | nil => rw [hq] at he; cases he
      | cons => rfl
    · by_contra hp
      exact absurd (hclose.pending (by simpa using hp)).1 (by simp)

/-- A new acknowledgment moves `snd.una` and, as nothing is left to send, nothing else of the
    sequence numbers. -/
theorem TCPConn.handleACK_awaiting {c : TCPConn} (ack : UInt32) (hlen : c.tx.writeBuf.len = 0)
    (hnew : seqGreaterThan ack c.tx.snd.una = true) :
    (c.handleACK ack).tx.snd.nxt = c.tx.snd.nxt ∧
    (seqGreaterThan ack c.tx.snd.nxt = true ∧ (c.handleACK ack).tx.snd.una = c.tx.snd.una ∨
      seqGreaterThan ack c.tx.snd.nxt = false ∧ (c.handleACK ack).tx.snd.una = ack ∧
      (c.handleACK ack).tx.snd.unacked.map UnackedSegment.sent
        = (dropAcked ack c.tx.snd.unacked).map UnackedSegment.sent) := by
  have hne : ack ≠ c.tx.snd.una := by
    rintro rfl
    simp [seqGreaterThan] at hnew
  rw [handleACK, if_neg hne, hnew]
  cases hbeyond : seqGreaterThan ack c.tx.snd.nxt with
  | true => exact ⟨rfl, .inl ⟨rfl, rfl⟩⟩
  | false =>
    obtain ⟨-, huna, hnxt, hqueue⟩ := handleNewACK_of_empty hlen ack
    exact ⟨hnxt, .inr ⟨rfl, huna, hqueue⟩⟩

/-- SAFE, with the condition it needs: in LAST_ACK an acknowledgment closes the connection only when
    it covers our FIN, and otherwise leaves the queue alone, exactly if the segment is dropped, its
    acknowledgment number does not compare as newer than `snd.una`, or it is `snd.nxt`. -/
theorem last_ack_close_iff {s s' : Sys} {seg : Segment}
    (hr : Reach Sys.Init Sys.step (fun _ _ => True) s) (hs : s.conn.ctl.state = .lastAck)
    (hm : 1 ≤ s.conn.tx.snd.mss) (hflight : inFlight s.conn < 2 ^ 31)
    (hack : seg.flags.has tcpFlagACK = true) (hrst : seg.flags.has tcpFlagRST = false)
    (hstep : s.step (.inbound seg) = some s') :
    ClosesInFull s.conn s'.conn seg.ack ↔
      Dropped s.conn seg ∨ seqGreaterThan seg.ack s.conn.tx.snd.una = false ∨
        seg.ack = s.conn.tx.snd.nxt := by
  obtain ⟨x, n, haw⟩ := awaiting_of_lastAck hr hs hm
  have hclosed := doneClosed_reach hr
  obtain ⟨c, writers, readers⟩ := s
  dsimp only at *
  obtain ⟨-, hstep⟩ := Sys.step_inv hstep
  cases hstep
  show ClosesInFull c (c.onInbound seg) seg.ack ↔ _
  have ht : Transmits c (c.handleSegment seg) := by
    rcases handleSegment_cases c seg with ht | ⟨hsyn, -⟩
    · exact ht
    · exact absurd (hs.symm.trans hsyn) (by simp)
  have hrto := Resends.manageRTO (c.handleSegment seg)
  have hon : c.onInbound seg = (c.handleSegment seg).manageRTO := by
    refine drainForFIN_of_not ?_
    rw [manageRTO_ctl, ht.finPending]
    exact haw.pending
  rw [hon]
  rcases handleSegment_lastAck hs seg with ⟨hrx, hopen⟩ | ⟨⟨hkept, hnew⟩, he⟩
  · -- nothing happens
    obtain ⟨hctl, hwhy⟩ := hopen hrst
    have hstate : (c.handleSegment seg).manageRTO.ctl.state = .lastAck := by
      rw [manageRTO_ctl, hctl, hs]
    refine ⟨fun _ => ?_, fun _ => ⟨fun h => ?_, fun _ => ⟨hstate, fun e he _ => ?_⟩⟩⟩
    · rcases hwhy hack haw.synced with h | h
      · exact .inl h
      · rw [haw.queued] at h
        exact .inr (.inl h)
    · exact absurd (hstate.symm.trans h) (by simp)
    · have hq := hrto.queue
      rw [hrx.tx] at hq
      exact mem_of_sent hq.symm he
  · -- the connection is closed
    rw [haw.queued] at hnew
    have hlen : (c.updateTSRecent seg).tx.writeBuf.len = 0 := by
      rw [(RxOnly.updateTSRecent c seg).tx, ← RingBuffer.contents_eq_nil_iff]
      exact (haw.sending.ended rfl).2
    have hacked := handleACK_awaiting seg.ack hlen (by
      rw [(RxOnly.updateTSRecent c seg).tx]
      exact hnew)
    have htx : (c.handleSegment seg).tx = ((c.updateTSRecent seg).handleACK seg.ack).tx := by
      rw [he, (RxOnly.closeDone _).tx]
    rw [(RxOnly.updateTSRecent c seg).tx, ← htx] at hacked
    have hstate : (c.handleSegment seg).manageRTO.ctl.state = .closed := by
      rw [manageRTO_ctl, he, closeDone_ctl, (TxOnly.handleACK _ _).ctl,
        (TxOnly.updateTSRecent c seg).ctl, Ctl.finish_state hclosed]
    obtain ⟨hnxt, hcases⟩ := hacked
    constructor
    · rintro ⟨hfull, -⟩
      obtain ⟨-, heq, -⟩ := hfull hstate
      rw [hrto.una, hrto.nxt, hnxt] at heq
      rcases hcases with ⟨-, huna⟩ | ⟨-, huna, -⟩
      · -- beyond `snd.nxt`: nothing was acknowledged, and the queue is not empty
        rw [huna] at heq
        have hnil := (haw.sending.sentStream.empty hflight).2 heq
        have hq := haw.queued
        rw [hasUnacked, hnil] at hq
        cases hq
      · exact .inr (.inr (huna.symm.trans heq))
    · rintro (h | h | h)
      · exact absurd h hkept
      · exact absurd (hnew.symm.trans h) (by simp)
      · refine ⟨fun _ => ⟨by rw [ValidACK, h], ?_, ?_⟩, fun hne => absurd h hne⟩
        · rcases hcases with ⟨hbeyond, -⟩ | ⟨-, huna, -⟩
          · simp [h, seqGreaterThan] at hbeyond
          · rw [hrto.una, hrto.nxt, huna, hnxt, h]
        · rcases hcases with ⟨hbeyond, -⟩ | ⟨-, -, hq⟩
          · simp [h, seqGreaterThan] at hbeyond
          · have hlt := haw.sending.chain.inFlight
            rw [inFlight] at hflight
            rw [h, haw.sending.nxt, dropAcked_all haw.sending.chain (by omega)] at hq
            exact List.map_eq_nil_iff.1 (hrto.queue.trans hq)

/-- Data and FIN outstanding in LAST_ACK: `Write` of three bytes, the peer's FIN, our close. -/
def lastAckRun : List Event :=
  [Sys.sampleACK, .writeCall 0 [1, 2, 3], .writeCopy 0, .writeCopy 0, .writeReturn 0, .writeNotify,
    .inbound (Sys.sampleSegment (tcpFlagFIN ||| tcpFlagACK) 101 201 1000 [] Sys.length_nil_lt),
    .closeWrite, .closeCh]

/-- The acknowledgment of everything closes the connection. -/
theorem last_ack_close_full : ∃ s s' : Sys, s.conn.ctl.state = .lastAck ∧ s.conn.tx.snd.nxt = 205 ∧
    s.step (.inbound (Sys.sampleSegment tcpFlagACK 102 205 1000 [])) = some s' ∧
    ClosesInFull s.conn s'.conn 205 := by
  obtain ⟨s, hr, hs, hnxt, hm, hflight, hsome⟩ := Sys.exists_reach Sys.init_sample (fun _ _ => true)
    (fun s => s.conn.ctl.state = .lastAck ∧ s.conn.tx.snd.nxt = 205 ∧ 1 ≤ s.conn.tx.snd.mss ∧
      inFlight s.conn < 2 ^ 31 ∧
      (s.step (.inbound (Sys.sampleSegment tcpFlagACK 102 205 1000 []))).isSome = true)
    lastAckRun (by decide +kernel)
  obtain ⟨s', hstep⟩ := Option.isSome_iff_exists.1 hsome
  exact ⟨s, s', hs, hnxt, hstep, (last_ack_close_iff (hr.mono fun _ _ _ => trivial) hs hm hflight
    (by decide) (by decide) hstep).2 (.inr (.inr hnxt.symm))⟩

/-- An acknowledgment of one byte of three closes the connection with the rest unacknowledged. -/
theorem last_ack_closes_on_partial : ∃ s s' : Sys,
    Reach Sys.Init Sys.step (fun _ _ => True) s ∧ s.conn.ctl.state = .lastAck ∧
    s.step (.inbound (Sys.sampleSegment tcpFlagACK 102 202 1000 [])) = some s' ∧
    s'.conn.ctl.state = .closed ∧ s'.conn.tx.snd.una ≠ s'.conn.tx.snd.nxt ∧
    s'.conn.tx.snd.unacked ≠ [] := by
  obtain ⟨s, hr, hs, hany⟩ := Sys.exists_reach Sys.init_sample (fun _ _ => true)
    (fun s => s.conn.ctl.state = .lastAck ∧
      (s.step (.inbound (Sys.sampleSegment tcpFlagACK 102 202 1000 []))).any (fun s' =>
        s'.conn.ctl.state = .closed ∧ s'.conn.tx.snd.una ≠ s'.conn.tx.snd.nxt ∧
        s'.conn.tx.snd.unacked ≠ []) = true)
    lastAckRun (by decide +kernel)
  cases hstep : s.step (.inbound (Sys.sampleSegment tcpFlagACK 102 202 1000 [])) with
  | none =>
    rw [hstep] at hany
    cases hany
  | some s' =>
    rw [hstep] at hany
    exact ⟨s, s', hr.mono fun _ _ _ => trivial, hs, hstep, of_decide_eq_true hany⟩

end Netstack.Tcp
