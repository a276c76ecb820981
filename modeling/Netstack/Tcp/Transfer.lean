import Netstack.Tcp.EofSafety
import Netstack.Tcp.RtoDeadline
import Netstack.Tcp.WindowScale

/-! Two connections of the stack, one writing to the other.

    The network between them loses, repeats, delays, reorders, cuts and merges what it carries, for as
    long as it likes; only the numbers of a stream longer than `2 ^ 31` bytes would be ambiguous to it.
    Both ends are passive, so the segments that complete the handshakes come from outside: whatever has
    neither data nor FIN may reach the reader, and whatever acknowledges no more than the reader has may
    reach the writer. -/

namespace Netstack.Tcp
open Netstack.Header Netstack.Serial Netstack.Trace TCPConn

namespace TCPConn

variable {c c' : TCPConn}

/-- The logs of what `Write` has accepted and of what was sent only grow. -/
def Logs (c c' : TCPConn) : Prop := c.tx.accepted <+: c'.tx.accepted ∧ c.wire.out <+: c'.wire.out

theorem Transmits.logs (h : Transmits c c') : Logs c c' := by
  induction h with
  | refl => exact ⟨List.prefix_refl _, List.prefix_refl _⟩
  | resends _ hr ih =>
    obtain ⟨ps, hout, -⟩ := hr.out
    exact ⟨hr.accepted ▸ ih.1, hout ▸ ih.2.trans (List.prefix_append ..)⟩
  | @acked c₁ ack _ _ _ ih =>
    obtain ⟨s, n, -, he⟩ := removeAcked_eq (c₁.advanceUna ack) ack
    rw [he]
    exact ih
  | new _ _ ih =>
    rw [TCPConn.sendNew]
    split
    · exact ih
    · exact ⟨ih.1, ih.2.trans (List.prefix_append ..)⟩
  | gso _ _ ih =>
    rw [TCPConn.sendGSO]
    split_ifs
    · exact ih
    · exact ih
    · exact ⟨ih.1, ih.2.trans (List.prefix_append ..)⟩
  | fault _ _ ih => exact ih

theorem Sends.logs (h : Sends c c') : Logs c c' := by
  induction h with
  | refl => exact ⟨List.prefix_refl _, List.prefix_refl _⟩
  | transmits _ ht ih => exact ⟨ih.1.trans ht.logs.1, ih.2.trans ht.logs.2⟩
  | silent _ he ih =>
    simp only [sendCore, Prod.mk.injEq] at he
    obtain ⟨-, -, -, -, -, -, -, hacc, hout, -⟩ := he
    rw [Logs, hacc, hout]
    exact ih
  | @opened c₁ seg _ _ ih =>
    have hts := RxOnly.updateTSRecent c₁ seg
    obtain ⟨ps, hout, -⟩ := hts.sent
    obtain ⟨qs, hout', -⟩ := (opened_rxOnly c₁ seg).sent
    refine ⟨?_, ih.2.trans ⟨ps ++ qs, ?_⟩⟩
    · show _ <+: ((_ : TCPConn).synPayload seg).tx.accepted
      rw [(opened_rxOnly c₁ seg).tx]
      show _ <+: (c₁.updateTSRecent seg).tx.accepted
      rw [hts.tx]
      exact ih.1
    · rw [← List.append_assoc, ← hout]
      exact hout'.symm
  | fin _ _ ih => exact ⟨ih.1, ih.2.trans (List.prefix_append ..)⟩
  | copy _ _ ih => exact ⟨ih.1.trans (List.prefix_append ..), ih.2⟩

/-- What a packet of the writer is in the stream of accepted bytes. -/
theorem SendInv.sent (h : SendInv c) {p : OutSegment} (hp : p ∈ c.wire.out) :
    (p.payload ≠ [] → ∃ o, p.seq = seqAt (c.env.iss + 1) o ∧ p.payload <+: c.tx.accepted.drop o) ∧
    (p.flags.has tcpFlagFIN = true → p.seq = seqAt (c.env.iss + 1) c.tx.accepted.length) := by
  cases hs : c.ctl.synced with
  | false =>
    have hf := h.fresh hs
    exact ⟨fun hne => absurd (hf.out p hp) hne, fun hfin => by rw [hf.fins p hp] at hfin; cases hfin⟩
  | true =>
    obtain ⟨f, ⟨x, n, hsend⟩, -⟩ := h.sends hs
    exact ⟨hsend.out p hp, fun hfin => (hsend.fins p hp hfin).2⟩

end TCPConn

theorem TCPConn.opened_una (c : TCPConn) (seg : Segment) :
    (c.opened seg).tx.snd.una = c.env.iss + 1 := by
  show ((_ : TCPConn).synPayload seg).tx.snd.una = _
  rw [(opened_rxOnly c seg).tx]
  show ((c.updateTSRecent seg).handshakeSender seg).una = _
  obtain ⟨m, he⟩ := handshakeSender_eq (c.updateTSRecent seg) seg
  rw [he, (RxOnly.updateTSRecent c seg).env]
  rfl

/-- After the handshake a segment leaves `snd.una` alone, or moves it to its acknowledgment number. -/
theorem TCPConn.onInbound_una_cases (c : TCPConn) (seg : Segment) (hst : c.ctl.state ≠ .synRcvd) :
    (c.onInbound seg).tx.snd.una = c.tx.snd.una ∨
    seg.flags.has tcpFlagRST = false ∧ (c.onInbound seg).tx.snd.una = seg.ack := by
  rw [onInbound_una]
  cases hrst : seg.flags.has tcpFlagRST with
  | true =>
    left
    rw [handleSegment]
    split_ifs
    · rfl
    · rw [(RxOnly.handleRSTSegment c seg).tx]
  | false =>
    obtain ⟨c₁, c₂, h₁, hack, h₂⟩ := AcksOnce.handleSegment c seg hst
    rw [h₂.una]
    rcases hack with rfl | rfl
    · exact .inl h₁.resends.una
    rw [handleACK]
    split_ifs
    · exact .inl ((congrArg Prod.fst (handleDupACK_marks c₁)).trans h₁.resends.una)
    · exact .inl h₁.resends.una
    · exact .inr ⟨rfl, handleNewACK_una c₁ seg.ack⟩

/-- Only a segment moves `snd.una`. -/
theorem Sys.Step.una_of_ne {s s' : Sys} {e : Event} (h : Sys.Step s e s')
    (hin : ∀ seg, e ≠ .inbound seg) : s'.conn.tx.snd.una = s.conn.tx.snd.una := by
  have hsend : ∀ c : TCPConn, c.sendPending.tx.snd.una = c.tx.snd.una := fun c =>
    (Unmoved.sendPending c).una
  have hfin : ∀ c : TCPConn, c.finalizeFIN.tx.snd.una = c.tx.snd.una := by
    intro c
    rw [finalizeFIN.eq_def]
    split <;> rfl
  by_cases he : Sys.resting e = true
  · exact congrArg Sender.una (h.rests he).1
  cases h
  case inbound seg _ => exact absurd rfl (hin seg)
  case rtoTimer => exact (Resends.onRTO _).una
  case zeroWindowTimer =>
    have hnew : ∀ c : TCPConn, (c.sendNew 1).1.tx.snd.una = c.tx.snd.una := fun c =>
      congrArg (fun k => k.1.una) (sendNew_kept c 1)
    rw [onZeroWindow, sendZeroWindowProbe]
    dsimp only
    split_ifs
    · rfl
    · exact hnew _
    · exact (Resends.cancelZeroWindowProbe _).una.trans (hnew _)
    · rfl
  case writeNotify =>
    have hnotify : s.conn.onWriteNotifySend.tx.snd.una = s.conn.tx.snd.una := by
      rw [onWriteNotifySend, (Resends.armRTO _).una, (RxOnly.piggyback _).tx,
        (Resends.checkZeroWindow _).una]
      exact hsend _
    rw [onWriteNotify, finIfDrained]
    split_ifs
    · exact (hfin _).trans hnotify
    · exact hnotify
    · exact hnotify
    · rfl
  case closeCh =>
    have hclose : ∀ c : TCPConn, c.flush.finOrDefer.tx.snd.una = c.tx.snd.una := by
      intro c
      have hflush : c.flush.tx.snd.una = c.tx.snd.una := by
        rw [flush]
        split
        · exact hsend c
        · rfl
      rw [finOrDefer]
      split
      · exact hflush
      · exact (hfin _).trans hflush
    have hhandle : ∀ c : TCPConn, c.handleClose.tx.snd.una = c.tx.snd.una := by
      intro c
      rw [handleClose.eq_def]
      split
      · exact hclose c
      · exact hclose c
      · rfl
    rw [onClose]
    split
    · exact (Resends.armRTO _).una.trans (hhandle _)
    · exact hhandle _
  all_goals exact absurd rfl he

/-- Where a step can take `snd.una`. -/
theorem Sys.Step.una {s s' : Sys} {e : Event} (h : Sys.Step s e s')
    (hsyn : s.conn.ctl.state = .synRcvd → s.conn.ctl.synced = false)
    (hs : s'.conn.ctl.synced = true) :
    s.conn.ctl.synced = true ∧ s'.conn.tx.snd.una = s.conn.tx.snd.una ∨
    s'.conn.tx.snd.una = s.conn.env.iss + 1 ∨
    ∃ seg, e = .inbound seg ∧ seg.flags.has tcpFlagRST = false ∧ s'.conn.tx.snd.una = seg.ack := by
  by_cases hin : ∃ seg, e = .inbound seg
  · obtain ⟨seg, rfl⟩ := hin
    cases h
    cases hs₀ : s.conn.ctl.synced with
    | true =>
      have hst : s.conn.ctl.state ≠ .synRcvd := fun he => by simp [hsyn he] at hs₀
      rcases onInbound_una_cases s.conn seg hst with hu | hu
      · exact .inl ⟨rfl, hu⟩
      · exact .inr (.inr ⟨seg, rfl, hu⟩)
    | false =>
      rcases handleSegment_cases s.conn seg with ht | ⟨-, he⟩
      · -- no handshake is completed, so there is no sender afterwards either
        have hno : (s.conn.handleSegment seg).manageRTO.ctl.synced = false :=
          (congrArg Prod.fst ((Resends.manageRTO _).tokens.trans ht.tokens)).trans hs₀
        dsimp only at hs
        rw [onInbound, drainForFIN, if_neg (by simp [hno]), hno] at hs
        cases hs
      · exact .inr (.inl ((onInbound_una _ seg).trans (he ▸ opened_una s.conn seg)))
  · push Not at hin
    rcases h.wnd hs with ⟨hs₀, -⟩ | ⟨seg, he, -⟩
    · exact .inl ⟨hs₀, h.una_of_ne hin⟩
    · exact absurd he (hin seg)

/-! ### The link -/

/-- A connection that writes, and one that reads what it writes. -/
structure Link where
  writer : Sys
  reader : Sys

/-- An event of either end. -/
inductive LinkEvent where
  | writer (e : Event)
  | reader (e : Event)

/-- The segment that an event brings. -/
def Event.segment? : Event → Option Segment
  | .inbound seg => some seg
  | _ => none

namespace Link

def Init (l : Link) : Prop :=
  l.writer.Init ∧ l.reader.Init ∧ l.reader.conn.env.irs = l.writer.conn.env.iss

def step (l : Link) : LinkEvent → Option Link
  | .writer e => (l.writer.step e).map fun s => { l with writer := s }
  | .reader e => (l.reader.step e).map fun s => { l with reader := s }

/-- What may reach the reader: no data and no FIN, or a piece of a packet that the writer has sent. -/
def Carries (l : Link) (seg : Segment) : Prop :=
  seg.payload = [] ∧ seg.flags.has tcpFlagFIN = false ∨
  ∃ p ∈ l.writer.conn.wire.out, ∃ k ≤ p.payload.length, seg.seq = p.seq + UInt32.ofNat k ∧
    seg.payload <+: p.payload.drop k ∧ (seg.flags.has tcpFlagFIN = true →
      p.flags.has tcpFlagFIN = true ∧ seg.payload = p.payload.drop k)

/-- What may reach the writer: an acknowledgment number that the reader has sent, or the one that
    acknowledges the SYN alone. -/
def Answers (l : Link) (seg : Segment) : Prop :=
  seg.flags.has tcpFlagRST = true ∨ seg.ack = l.writer.conn.env.iss + 1 ∨
  ∃ p ∈ l.reader.conn.wire.out, p.flags.has tcpFlagACK = true ∧ p.ack = seg.ack

/-- The events of a transfer. The writer has a segment size. The reader reads at least a byte at a time,
    in buffers below `2 ^ 32` bytes, and calls neither `CloseRead` nor `ForceClose`; a FIN that
    reaches it in FIN_WAIT_1 or FIN_WAIT_2 fits. -/
def Transfers (l : Link) : LinkEvent → Prop
  | .writer e => PositiveMSS l.writer e ∧ ∀ seg ∈ e.segment?, l.Answers seg
  | .reader e => l.reader.conn.rx.readBuf.cap < 2 ^ 32 ∧ e ∉ [.closeRead, .forceCloseCh, .readCall 0] ∧
      ∀ seg ∈ e.segment?, l.Carries seg ∧ FinInTime l.reader.conn seg

/-- What holds of both ends. The stream `S` is what the writer has accepted and may yet accept, which is
    nothing once its FIN is out. -/
structure Inv (l : Link) : Prop where
  numbers : l.reader.conn.env.irs = l.writer.conn.env.iss
  sends : SendInv l.writer.conn
  reads : ∀ S, l.writer.conn.tx.accepted <+: S → S.length ≤ 2 ^ 31 →
    ((∃ p ∈ l.writer.conn.wire.out, p.flags.has tcpFlagFIN = true) → S = l.writer.conn.tx.accepted) →
    StreamInv S l.reader.conn ∧ Eof S l.reader.conn
  una : l.writer.conn.ctl.synced = true → l.writer.conn.tx.snd.una = l.writer.conn.env.iss + 1 ∨
    ∃ p ∈ l.reader.conn.wire.out, p.flags.has tcpFlagACK = true ∧ p.ack = l.writer.conn.tx.snd.una

theorem Inv.init {l : Link} (h : l.Init) : Inv l where
  numbers := h.2.2
  sends := sendInv_init h.1
  reads S _ _ _ := ⟨streamInv_init S h.2.1, eof_init S h.2.1⟩
  una hs := by
    obtain ⟨_, _, _, _, _, _, -, he⟩ := Sys.init_iff.1 h.1
    rw [he] at hs
    cases hs

theorem Inv.writer {l : Link} {s : Sys} {e : Event} (h : Inv l) (hok : l.Transfers (.writer e))
    (hstep : l.writer.step e = some s) : Inv { l with writer := s } := by
  obtain ⟨hfault, st⟩ := Sys.step_inv hstep
  obtain ⟨hacc, hout⟩ := st.sends.logs
  have hsend : SendInv s.conn := sendInv_step h.sends hok.1 hfault st
  refine ⟨h.numbers.trans (congrArg Env.iss st.env).symm, hsend, fun S hS hlen hend => ?_, fun hs => ?_⟩
  · refine h.reads S (hacc.trans hS) hlen ?_
    rintro ⟨p, hp, hfin⟩
    -- a FIN that is out stands where the accepted bytes end, before the step and after it
    have hle : s.conn.tx.accepted.length ≤ S.length := hS.length_le
    have hnow := (h.sends.sent hp).2 hfin
    rw [(hsend.sent (hout.subset hp)).2 hfin, st.env,
      seqAt_inj _ (by omega) (by have := hacc.length_le; omega)] at hnow
    rw [hend ⟨p, hout.subset hp, hfin⟩]
    exact (hacc.eq_of_length hnow.symm).symm
  · show s.conn.tx.snd.una = s.conn.env.iss + 1 ∨ _
    rw [st.env]
    rcases st.una h.sends.syn hs with ⟨hs₀, hu⟩ | hu | ⟨seg, rfl, hrst, hu⟩
    · rw [hu]
      exact h.una hs₀
    · exact .inl hu
    · rw [hu]
      exact (hok.2 seg rfl).resolve_left (by simp [hrst])

/-- What the network brings is a piece of the stream. -/
theorem Inv.finSlice {l : Link} (h : Inv l) {S : List UInt8} {seg : Segment} (hc : l.Carries seg)
    (hS : l.writer.conn.tx.accepted <+: S) (hlen : S.length ≤ 2 ^ 31)
    (hend : (∃ p ∈ l.writer.conn.wire.out, p.flags.has tcpFlagFIN = true) →
      S = l.writer.conn.tx.accepted) : FinSlice S l.reader.conn seg := by
  have hpos : l.reader.conn.pos ≤ S.length := (h.reads S hS hlen hend).1.pre.length_le
  rcases hc with hbare | ⟨p, hp, k, hk, hseq, hpay, hfin⟩
  · exact .inl hbare
  obtain ⟨hdata, hlast⟩ := h.sends.sent hp
  rw [FinSlice, h.numbers]
  by_cases hnil : p.payload = []
  · rw [hnil, List.drop_nil, List.prefix_nil] at hpay
    cases hf : seg.flags.has tcpFlagFIN with
    | false => exact .inl ⟨hpay, rfl⟩
    | true =>
      have hS' := hend ⟨p, hp, (hfin hf).1⟩
      have hk0 : k = 0 := by simpa [hnil] using hk
      refine .inr ⟨S.length, ?_, by simp [hpay], by omega, by omega, fun _ => by simp [hpay]⟩
      rw [hseq, hk0, hlast (hfin hf).1, ← hS']
      simp [seqAt]
  · obtain ⟨o, ho, hpre⟩ := hdata hnil
    have hroom : o + p.payload.length ≤ S.length := by
      have h1 := hpre.length_le
      have h2 := List.length_pos_iff.2 hnil
      have h3 := hS.length_le
      rw [List.length_drop] at h1
      omega
    refine .inr ⟨o + k, ?_, ?_, by omega, by omega, fun hf => ?_⟩
    · rw [hseq, ho]
      exact (seqAt_add _ o k).symm
    · refine hpay.trans ?_
      rw [← List.drop_drop]
      exact (hpre.trans (hS.drop o)).drop k
    · -- the data of a packet with FIN would have to stand at the end of the stream
      have hat := hlast (hfin hf).1
      rw [ho, ← hend ⟨p, hp, (hfin hf).1⟩, seqAt_inj _ (by omega) (by omega)] at hat
      exact absurd (List.length_pos_iff.2 hnil) (by omega)

theorem Inv.reader {l : Link} {s : Sys} {e : Event} (h : Inv l) (hok : l.Transfers (.reader e))
    (hstep : l.reader.step e = some s) : Inv { l with reader := s } := by
  obtain ⟨-, st⟩ := Sys.step_inv hstep
  obtain ⟨hcap, hcalls, hseg⟩ := hok
  refine ⟨(congrArg Env.irs st.env).trans h.numbers, h.sends, fun S hS hlen hend => ?_, fun hs => ?_⟩
  · obtain ⟨hi, he⟩ := h.reads S hS hlen hend
    have hends : EndsStream S l.reader e := by
      refine ⟨?_, hcap, fun seg hin => (hseg seg (by rw [hin]; rfl)).2⟩
      cases e with
      | inbound seg => exact h.finSlice (hseg seg rfl).1 hS hlen hend
      | readCall n => exact Nat.pos_of_ne_zero fun hn => hcalls (by simp [hn])
      | closeRead | forceCloseCh => simp at hcalls
      | _ => trivial
    exact ⟨streamInv_step hi hends.readsWithin hstep, eof_step hi he hends hstep⟩
  · refine (h.una hs).imp_right ?_
    rintro ⟨p, hp, hack⟩
    exact ⟨p, st.sends.logs.2.subset hp, hack⟩

theorem inv_reach {l : Link} (hr : Reach Init step Transfers l) : Inv l := by
  refine hr.invariant (fun _ => Inv.init) fun l e l' h hok hstep => ?_
  cases e with
  | writer e =>
    obtain ⟨s, hs, rfl⟩ := Option.map_eq_some_iff.1 hstep
    exact h.writer hok hs
  | reader e =>
    obtain ⟨s, hs, rfl⟩ := Option.map_eq_some_iff.1 hstep
    exact h.reader hok hs

/-- RELIABLE: in every state of every transfer of at most `2 ^ 31` bytes, the reader has been given a
    start of what the writer has accepted; it is told of the end of the stream only when it has been
    given all of it; and what it has not been given is still held by the writer, sent and
    unacknowledged or waiting to be sent. -/
theorem transfer_reliable {l : Link} (hr : Reach Init step Transfers l)
    (hlen : l.writer.conn.tx.accepted.length ≤ 2 ^ 31) :
    l.reader.conn.rx.delivered <+: l.writer.conn.tx.accepted ∧
    (l.reader.conn.rx.readBuf.closed = true →
      l.reader.conn.rx.delivered = l.writer.conn.tx.accepted) ∧
    l.writer.conn.tx.accepted.drop l.reader.conn.rx.delivered.length <:+
      payloads l.writer.conn.tx.snd.unacked ++ l.writer.conn.tx.writeBuf.contents := by
  have h := inv_reach hr
  obtain ⟨hi, he⟩ := h.reads _ (List.prefix_refl _) hlen fun _ => rfl
  refine ⟨hi.pre, fun hc => (he.fins.resolve_left (he.eof hc)).2, ?_⟩
  cases hs : l.writer.conn.ctl.synced with
  | false =>
    rw [(h.sends.fresh hs).accepted, List.drop_nil]
    exact List.nil_suffix
  | true =>
    obtain ⟨f, ⟨x, n, hsend⟩, -⟩ := h.sends.sends hs
    obtain ⟨u, hxu, hun, hu, -⟩ := hsend.una
    rw [hsend.bytes]
    have hn : n ≤ l.writer.conn.tx.accepted.length + 1 := by
      cases f with
      | false => have := (hsend.data rfl).1; omega
      | true => exact (hsend.ended rfl).1.le
    -- `snd.una` is a position that the reader has acknowledged
    obtain ⟨k, hk, hpos⟩ : ∃ k, l.writer.conn.tx.snd.una = seqAt (l.writer.conn.env.iss + 1) k ∧
        (k ≤ l.reader.conn.pos ∨ k = l.writer.conn.tx.accepted.length + 1 ∧
          l.reader.conn.rx.delivered = l.writer.conn.tx.accepted) := by
      rcases h.una hs with h0 | ⟨p, hp, hack, hpu⟩
      · exact ⟨0, by rw [h0, seqAt_zero], .inl (Nat.zero_le _)⟩
      · obtain ⟨k, hk, hpos⟩ := he.acks p hp hack
        exact ⟨k, by rw [← hpu, hk, base, h.numbers], hpos⟩
    have hle : l.reader.conn.pos ≤ l.writer.conn.tx.accepted.length := hi.pre.length_le
    rw [hu, seqAt_inj _ (by omega) (by omega)] at hk
    rcases hpos with hpos | ⟨-, hall⟩
    · have hsplit := List.drop_drop (i := l.reader.conn.pos - x) (j := x) (l := l.writer.conn.tx.accepted)
      rw [show x + (l.reader.conn.pos - x) = l.reader.conn.pos by omega] at hsplit
      exact hsplit ▸ List.drop_suffix ..
    · rw [hall, List.drop_length]
      exact List.nil_suffix

instance (l : Link) : DecidablePred l.Carries := fun _ => inferInstanceAs (Decidable (_ ∨ _))

instance (l : Link) : DecidablePred l.Answers := fun _ => inferInstanceAs (Decidable (_ ∨ _))

instance (l : Link) : DecidablePred l.Transfers
  | .writer e => inferInstanceAs (Decidable ((_ → _) ∧ ∀ seg ∈ e.segment?, l.Answers seg))
  | .reader _ => inferInstanceAs (Decidable (_ ∧ _ ∧ _))

/-- Three bytes and a FIN, sent as two packets, arrive in three pieces and out of order. -/
theorem transfer_reliable_three : ∃ l : Link, Reach Init step Transfers l ∧
    l.writer.conn.tx.accepted = [1, 2, 3] ∧ l.reader.conn.rx.readBuf.closed = true ∧
    l.reader.conn.rx.delivered = [1, 2, 3] := by
  have hinit : Init ⟨Sys.start (Sys.sampleHandler 8 4) 200 100 [] Sys.sampleHandler_read_pos
      Sys.sampleHandler_write_pos, Sys.sample⟩ :=
    ⟨Sys.init_iff.2 ⟨_, _, _, _, _, _, ⟨(Sys.sampleHandler 8 4).cfg, rfl⟩, rfl⟩, Sys.init_sample, rfl⟩
  obtain ⟨l, hr, hacc, hclosed⟩ : ∃ l : Link, Reach Init step Transfers l ∧
      l.writer.conn.tx.accepted = [1, 2, 3] ∧ l.reader.conn.rx.readBuf.closed = true := by
    refine exists_reach_exec hinit
      [.writer (.inbound (Sys.sampleSegment tcpFlagACK 201 101 1000 [])), .reader Sys.sampleACK,
        .writer (.writeCall 0 [1, 2, 3]), .writer (.writeCopy 0), .writer (.writeCopy 0),
        .writer (.writeReturn 0), .writer .closeWrite, .writer .closeCh,
        .reader (.inbound (Sys.sampleSegment (tcpFlagFIN ||| tcpFlagACK) 104 201 1000 [])),
        .reader (.inbound (Sys.sampleSegment tcpFlagACK 102 201 1000 [2, 3])),
        .reader (.inbound (Sys.sampleSegment tcpFlagACK 101 201 1000 [1])),
        .writer (.inbound (Sys.sampleSegment tcpFlagACK 201 105 1000 []))] ?_
    decide +kernel
  have hall := (transfer_reliable hr (by rw [hacc]; decide)).2.1 hclosed
  exact ⟨l, hr, hacc, hclosed, hall.trans hacc⟩

end Link
end Netstack.Tcp
