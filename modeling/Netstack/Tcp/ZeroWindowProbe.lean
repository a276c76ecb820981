import Netstack.Tcp.OutOfWindow
import Netstack.Tcp.SendLimits
import Netstack.Tcp.WindowScale

/-! What goes out while the peer's window is closed (`sendZeroWindowProbe` of `conn.go`).

    With `snd.wnd = 0` neither `sendPending` nor `limitedTransmit` sends, and a retransmission takes
    nothing from `writeBuf`. The probe does: each firing of the zero-window timer takes one more byte
    and sends it at `snd.nxt`, it never sends the last one again. So in a run in which the peer keeps
    its window closed and acknowledges nothing, the bytes sent are the firings that found data. -/

namespace Netstack.Tcp
open Netstack.Header Netstack.Loop Netstack.Simulation Netstack.Trace

/-- `ack` acknowledges nothing that is outstanding. -/
def TCPConn.Unacks (c : TCPConn) (ack : UInt32) : Prop :=
  seqGreaterThan ack c.tx.snd.una = false ∨ seqGreaterThan ack c.tx.snd.nxt = true

/-- The segment keeps the peer's window closed and acknowledges nothing new. -/
def TCPConn.SegmentStarves (c : TCPConn) (seg : Segment) : Prop :=
  seg.flags.has tcpFlagACK = true → seg.wnd = 0 ∧ c.Unacks seg.ack

/-- All segments are such; everything else is free to happen. -/
def Sys.Starves (s : Sys) : Event → Prop
  | .inbound seg => s.conn.SegmentStarves seg
  | _ => True

/-- The zero-window timer fires, probing is on, and there is data to probe with. -/
def Sys.probes (s : Sys) (e : Event) : Bool :=
  decide (e = .zeroWindowTimer) && s.conn.ctl.synced && s.conn.tx.zeroWindowProbing &&
    decide (0 < s.conn.tx.writeBuf.len)

/-- How many events of a run from `s` are such firings. -/
def Sys.countProbes : Sys → List Event → ℕ
  | _, [] => 0
  | s, e :: es => (s.probes e).toNat + (s.step e).elim 0 fun s' => s'.countProbes es

namespace TCPConn

variable {c c' c'' : TCPConn} {seg : Segment}

/-- The FINs in the queue. -/
def fins (c : TCPConn) : ℕ := c.tx.snd.unacked.countP UnackedSegment.fin

/-- How many bytes have been taken from `writeBuf` between `c` and `c'`. -/
def bytesTaken (c c' : TCPConn) : ℕ :=
  c.tx.writeBuf.len + c'.tx.accepted.length - (c'.tx.writeBuf.len + c.tx.accepted.length)

/-- At most one byte has been taken from `writeBuf` between `c` and `c'`, and what is outstanding has
    grown by at most one, our FIN apart. -/
structure OneByte (c c' : TCPConn) : Prop where
  taken : c.bytesTaken c' ≤ 1
  outstanding : (c'.tx.snd.nxt - c'.tx.snd.una - (c.tx.snd.nxt - c.tx.snd.una)).toNat
    ≤ 1 + (c'.fins - c.fins)

/-! ### A closed window -/

theorem sendPending_closed (h : c.tx.snd.wnd = 0) : c.sendPending = c := by
  have hnone : c.tx.snd.effectiveWindow ≤ 0 := by
    rw [Sender.effectiveWindow, h, UInt32.toNat_zero]
    omega
  rw [sendPending, loop, sendPendingStep, if_pos hnone]
  rfl

theorem limitedTransmit_closed (h : c.tx.snd.wnd = 0) : c.limitedTransmit = c := by
  have hflight : ((c.tx.snd.nxt - c.tx.snd.una).toNat : ℤ) ≥ c.tx.snd.wnd.toNat := by
    rw [h, UInt32.toNat_zero]
    omega
  rw [limitedTransmit, if_pos hflight, ite_self]

theorem handleDupACK_closed (h : c.tx.snd.wnd = 0) : Resends c c.handleDupACK := by
  have hinflate : c.countDup.inflate.sendPending = c.countDup.inflate := sendPending_closed h
  have hlimited : c.countDup.limitedTransmit = c.countDup := limitedTransmit_closed h
  rw [handleDupACK, hinflate, hlimited]
  split_ifs
  · exact .of_silent rfl
  · exact .of_silent rfl
  · exact (Resends.retransmitFirstUnSACKed _).after rfl
  · exact .of_silent rfl

theorem Unacks.resends {ack : UInt32} (h : c.Unacks ack) (hr : Resends c c') : c'.Unacks ack := by
  rw [Unacks, hr.una, hr.nxt]
  exact h

theorem handleACK_closed {ack : UInt32} (h : c.tx.snd.wnd = 0) (hack : c.Unacks ack) :
    Resends c (c.handleACK ack) := by
  rw [handleACK]
  split_ifs with hdup hold
  · exact handleDupACK_closed h
  · exact .refl c
  · rw [Bool.not_eq_true, Bool.or_eq_false_iff, Bool.not_eq_false'] at hold
    rcases hack with h1 | h2
    · exact absurd (h1.symm.trans hold.1) (by simp)
    · exact absurd (hold.2.symm.trans h2) (by simp)

theorem scaledWnd_zero (k : ℕ) : scaledWnd 0 k = 0 := by
  rw [scaledWnd, UInt16.toNat_zero, Nat.zero_shiftLeft]
  rfl

theorem setWnd_closed (h : seg.wnd = 0) (c : TCPConn) : (c.setWnd seg).tx.snd.wnd = 0 := by
  show scaledWnd seg.wnd _ = 0
  rw [h, scaledWnd_zero]

theorem manageZeroWindow_closed (h : c.tx.snd.wnd = 0) : Resends c c.manageZeroWindow := by
  rw [manageZeroWindow, h, if_neg (by simp)]
  split
  · exact .checkZeroWindow c
  · exact .refl c

theorem establishedACK_closed (hw : seg.wnd = 0) (hun : c.Unacks seg.ack) :
    Resends c (c.establishedACK seg) := by
  rw [establishedACK]
  split
  · have hpart : Resends c (((c.setWnd seg).noteMaxWnd.measureRTTM seg).handleSACK seg) :=
      (((Resends.setWnd c seg).trans (.noteMaxWnd _)).trans (.measureRTTM _ seg)).trans
        (.handleSACK _ seg)
    have hclosed : (((c.setWnd seg).noteMaxWnd.measureRTTM seg).handleSACK seg).tx.snd.wnd = 0 :=
      (wnd_of_pacing (handleSACK_pacing _ seg)).trans
        ((wnd_of_pacing (measureRTTM_pacing (c.setWnd seg).noteMaxWnd seg)).trans (setWnd_closed hw c))
    have hprocess : Resends c (c.processACK seg) :=
      hpart.trans (handleACK_closed hclosed (hun.resends hpart))
    have hwnd : (c.processACK seg).tx.snd.wnd = 0 := by
      rw [processACK_wnd, hw, scaledWnd_zero]
    have hupdate : (c.processACK seg).sendOnUpdate seg c.tx.snd.wnd = c.processACK seg := by
      rw [sendOnUpdate, sendPending_closed hwnd, ite_self]
    rw [hupdate]
    exact hprocess.trans (manageZeroWindow_closed hwnd)
  · exact .refl c

/-- The acknowledgment part of a handler that sets the window and measures: nothing new goes out. -/
theorem heard_closed (hw : seg.wnd = 0) (hun : c.Unacks seg.ack) {c₁ : TCPConn} (hr : Resends c c₁)
    (hpace : c₁.tx.snd.wnd = (c.setWnd seg).tx.snd.wnd) : Resends c (c₁.handleACK seg.ack) :=
  hr.trans (handleACK_closed (hpace.trans (setWnd_closed hw c)) (hun.resends hr))

theorem ackPart_closed (hc : c.tx.snd.wnd = 0) (hw : seg.wnd = 0) (hun : c.Unacks seg.ack) :
    Resends c (c.ackPart seg) := by
  rw [ackPart.eq_def]
  split
  · have hk := Resends.of_rxOnly (.resetKeepalive c)
    exact hk.trans (establishedACK_closed hw (hun.resends hk))
  · rw [finWait1ACK]
    split_ifs
    · exact heard_closed hw hun ((Resends.setWnd c seg).trans (.measureRTTM _ seg))
        (wnd_of_pacing (measureRTTM_pacing (c.setWnd seg) seg))
    · exact .refl c
  · rw [finWait2ACK]
    split_ifs
    · exact .setWnd c seg
    · exact .refl c
  · rw [handleCloseWait]
    split_ifs
    · exact heard_closed hw hun
        (((Resends.setWnd c seg).trans (.noteMaxWnd _)).trans (.measureRTTM _ seg))
        ((wnd_of_pacing (measureRTTM_pacing (c.setWnd seg).noteMaxWnd seg)).trans rfl)
    · exact .refl c
  · split_ifs
    · have hr := Resends.measureRTTM c seg
      exact hr.trans (handleACK_closed ((wnd_of_pacing (measureRTTM_pacing c seg)).trans hc)
        (hun.resends hr))
    · exact .refl c
  · exact .refl c

/-- An open handshake is over, and the peer's window is closed. -/
structure Blocked (c : TCPConn) : Prop where
  synced : c.ctl.synced = true
  state : c.ctl.state ≠ .synRcvd
  wnd : c.tx.snd.wnd = 0

theorem Blocked.resends (h : Blocked c) (hr : Resends c c') (hw : c'.tx.snd.wnd = 0) : Blocked c' := by
  refine ⟨(congrArg Prod.fst hr.tokens).trans h.synced, fun hs => h.state ?_, hw⟩
  rw [hr.early (by rw [hs]; rfl), hs]

theorem Blocked.rxOnly (h : Blocked c) (hr : RxOnly c c') : Blocked c' :=
  h.resends (.of_rxOnly hr) (hr.wnd.trans h.wnd)

theorem dispatch_closed (h : Blocked c) (hseg : c.SegmentStarves seg) :
    Resends c (c.dispatch seg) ∧ (c.dispatch seg).tx.snd.wnd = 0 := by
  by_cases hlast : c.ctl.state = .lastAck
  · rw [dispatch, hlast]
    dsimp only
    rw [handleLastAck]
    split_ifs with hack
    · have hr := handleACK_closed h.wnd (hseg hack.1).2
      exact ⟨hr.trans (.of_rxOnly (.closeDone _)),
        (RxOnly.closeDone _).wnd.trans ((wnd_of_gate (handleACK_gate c seg.ack)).trans h.wnd)⟩
    · exact ⟨.refl c, h.wnd⟩
    · exact ⟨.refl c, h.wnd⟩
  · have hrest := dispatch_rxOnly c seg h.state hlast
    rw [hrest.wnd]
    by_cases hack : seg.flags.has tcpFlagACK = true
    · obtain ⟨hw, hun⟩ := hseg hack
      refine ⟨(ackPart_closed h.wnd hw hun).trans (.of_rxOnly hrest), ?_⟩
      rcases ackPart_wnd c seg with he | he
      · exact he.trans h.wnd
      · rw [he, hw, scaledWnd_zero]
    · have hno : seg.flags.has tcpFlagACK = false := by simpa using hack
      obtain ⟨t, n, he⟩ : ∃ t n, c.ackPart seg = { c with timers := t, ticks := n } :=
        ackPart_of_noACK hno
      rw [he] at hrest ⊢
      exact ⟨(Resends.of_rxOnly hrest).after rfl, h.wnd⟩

theorem handleSegment_closed (h : Blocked c) (hseg : c.SegmentStarves seg) :
    Resends c (c.handleSegment seg) ∧ (c.handleSegment seg).tx.snd.wnd = 0 := by
  have hrx : ∀ {c' : TCPConn}, RxOnly c c' → Resends c c' ∧ c'.tx.snd.wnd = 0 :=
    fun hr => ⟨.of_rxOnly hr, hr.wnd.trans h.wnd⟩
  rw [handleSegment]
  split_ifs
  · exact hrx (.refl c)
  · exact hrx (.handleRSTSegment c seg)
  · exact hrx (.sendACK c)
  · have hts := RxOnly.updateTSRecent c seg
    have hseg' : (c.updateTSRecent seg).SegmentStarves seg := fun hack =>
      ⟨(hseg hack).1, (hseg hack).2.resends (.of_rxOnly hts)⟩
    obtain ⟨hr, hw⟩ := dispatch_closed (h.rxOnly hts) hseg'
    exact ⟨(Resends.of_rxOnly hts).trans hr, hw⟩

/-! ### What is taken -/

/-- From `c` to `c'`, with the window closed throughout, `k` bytes are taken from `writeBuf`; nothing
    but these bytes and a FIN moves `snd.nxt`. -/
structure Stalls (k : ℕ) (c c' : TCPConn) : Prop where
  blocked : Blocked c'
  una : c'.tx.snd.una = c.tx.snd.una
  bytes : c'.tx.writeBuf.len + k + c.tx.accepted.length
    = c.tx.writeBuf.len + c'.tx.accepted.length
  nxt : ∃ f, c'.fins = c.fins + f ∧ c'.tx.snd.nxt = c.tx.snd.nxt + UInt32.ofNat (k + f)

namespace Stalls

theorem trans {k k' : ℕ} (h : Stalls k c c') (h' : Stalls k' c' c'') : Stalls (k + k') c c'' := by
  obtain ⟨f, hf, hnxt⟩ := h.nxt
  obtain ⟨f', hf', hnxt'⟩ := h'.nxt
  have hb := h.bytes
  have hb' := h'.bytes
  refine ⟨h'.blocked, h'.una.trans h.una, by omega, f + f', by omega, ?_⟩
  rw [hnxt', hnxt, UInt32.add_assoc, ← UInt32.ofNat_add, show k + f + (k' + f') = k + k' + (f + f') by omega]

theorem of_resends (h : Blocked c) (hr : Resends c c') (hw : c'.tx.snd.wnd = 0) : Stalls 0 c c' := by
  have hfins : c'.fins = c.fins := by
    have hsent : ∀ l : List UnackedSegment, l.countP UnackedSegment.fin
        = (l.map UnackedSegment.sent).countP (fun p => p.2.2) := fun l => by
      rw [List.countP_map]
      rfl
    rw [fins, fins, hsent, hsent, hr.queue]
  have hlen := congrArg List.length hr.contents
  rw [RingBuffer.length_contents, RingBuffer.length_contents] at hlen
  refine ⟨h.resends hr hw, hr.una, by rw [hlen, hr.accepted, Nat.add_zero], 0, hfins, ?_⟩
  rw [hr.nxt]
  exact (UInt32.add_zero _).symm

theorem finalizeFIN (h : Blocked c) : Stalls 0 c c.finalizeFIN := by
  have hfin : ∀ st : TCPState, st ≠ .synRcvd → Stalls 0 c (c.clearPending.sendFIN.setState st) := by
    intro st hst
    refine ⟨⟨h.synced, hst, h.wnd⟩, rfl, rfl, 1, ?_, rfl⟩
    show (c.tx.snd.unacked ++ [_]).countP UnackedSegment.fin = _
    rw [List.countP_append]
    rfl
  rw [TCPConn.finalizeFIN.eq_def]
  split
  · exact hfin _ (by simp)
  · exact hfin _ (by simp)
  · exact ⟨⟨h.synced, h.state, h.wnd⟩, rfl, rfl, 0, rfl, (UInt32.add_zero _).symm⟩

theorem finIfDrained (h : Blocked c) : Stalls 0 c c.finIfDrained := by
  rw [TCPConn.finIfDrained]
  split
  · exact finalizeFIN h
  · exact of_resends h (.refl c) h.wnd

theorem onInbound (h : Blocked c) (hseg : c.SegmentStarves seg) : Stalls 0 c (c.onInbound seg) := by
  obtain ⟨hr, hw⟩ := handleSegment_closed h hseg
  have hrto := of_resends h (hr.trans (.manageRTO _))
    ((wnd_of_pacing (manageRTO_pacing (c.handleSegment seg))).trans hw)
  rw [TCPConn.onInbound, drainForFIN]
  split
  · rw [sendPending_closed hrto.blocked.wnd]
    exact hrto.trans (finIfDrained hrto.blocked)
  · exact hrto

theorem onWriteNotify (h : Blocked c) : Stalls 0 c c.onWriteNotify := by
  have hsend : Stalls 0 c c.onWriteNotifySend := by
    have htoken : Resends c { c with app.writeNotify := false } := .of_silent rfl
    have hpending : { c with app.writeNotify := false }.sendPending
        = { c with app.writeNotify := false } := sendPending_closed h.wnd
    refine of_resends h ?_ ((onWriteNotifySend_wnd c).trans h.wnd)
    rw [onWriteNotifySend, hpending]
    exact (((htoken.trans (.of_rxOnly (.resetKeepalive _))).trans (.checkZeroWindow _)).trans
      (.of_rxOnly (.piggyback _))).trans (.armRTO _)
  rw [TCPConn.onWriteNotify, if_pos h.synced]
  split
  · exact hsend.trans (finIfDrained hsend.blocked)
  · exact hsend

theorem onClose (h : Blocked c) : Stalls 0 c c.onClose := by
  have htoken : Stalls 0 c { c with app.closeCh := false } :=
    ⟨⟨h.synced, h.state, h.wnd⟩, rfl, rfl, 0, rfl, (UInt32.add_zero _).symm⟩
  have hfin : Stalls 0 c { c with app.closeCh := false }.flush.finOrDefer := by
    have hflush : { c with app.closeCh := false }.flush = { c with app.closeCh := false } := by
      rw [flush, if_pos h.synced]
      exact sendPending_closed h.wnd
    rw [hflush, finOrDefer]
    split
    · exact ⟨⟨h.synced, h.state, h.wnd⟩, rfl, rfl, 0, rfl, (UInt32.add_zero _).symm⟩
    · exact htoken.trans (finalizeFIN htoken.blocked)
  have hclose : Stalls 0 c { c with app.closeCh := false }.handleClose := by
    rw [handleClose.eq_def]
    split
    iterate 2 exact hfin
    exact htoken
  rw [TCPConn.onClose, if_pos h.synced]
  exact hclose.trans (of_resends hclose.blocked (.armRTO _) ((armRTO_wnd _).trans hclose.blocked.wnd))

/-- The one byte of a probe. -/
theorem sendNew_one (h : Blocked c) (hlen : 0 < c.tx.writeBuf.len) : Stalls 1 c (c.sendNew 1).1 := by
  have hbyte : (c.tx.writeBuf.readNoBlock 1).2.length = 1 := by
    rw [RingBuffer.readNoBlock_snd, List.length_take, RingBuffer.length_contents]
    omega
  have hsome : (c.tx.writeBuf.readNoBlock 1).2 ≠ [] := fun hnil => by
    rw [hnil] at hbyte
    cases hbyte
  rw [sendNew, if_neg hsome]
  refine ⟨⟨h.synced, h.state, h.wnd⟩, rfl, ?_, 0, ?_, ?_⟩
  · show (c.tx.writeBuf.readNoBlock 1).1.len + 1 + _ = _ + c.tx.accepted.length
    rw [RingBuffer.len_readNoBlock _ Nat.one_pos]
    omega
  · show (c.tx.snd.unacked ++ [_]).countP UnackedSegment.fin = _
    rw [List.countP_append]
    rfl
  · exact congrArg (fun n => c.tx.snd.nxt + UInt32.ofNat n) hbyte

/-- A firing of the zero-window timer takes a byte if probing is on and there is one. -/
theorem onZeroWindow (h : Blocked c) : Stalls
    (c.tx.zeroWindowProbing && decide (0 < c.tx.writeBuf.len)).toNat c c.onZeroWindow := by
  have hstop : Stalls 0 c c.stopZeroWindow := of_resends h (.of_silent rfl) h.wnd
  rw [TCPConn.onZeroWindow]
  split_ifs with hp
  · rw [hp.2, Bool.true_and]
    have hnext : ∀ {k : ℕ} {d : TCPConn}, Stalls k c d → Stalls k c d.nextProbe := by
      intro k d hd
      have hset : Resends d d.nextProbe := .of_silent rfl
      exact hd.trans (of_resends hd.blocked hset hd.blocked.wnd)
    rcases sendZeroWindowProbe_cases (c := c.stopZeroWindow) hp.1 with ⟨h0, he⟩ | ⟨hne, he, -⟩
    · have hlen : c.tx.writeBuf.len = 0 := h0
      rw [he, hlen]
      have hcancel := (cancelZeroWindowProbe_wnd c.stopZeroWindow).trans hstop.blocked.wnd
      exact hnext (hstop.trans (of_resends hstop.blocked (.cancelZeroWindowProbe _) hcancel))
    · have hlen : 0 < c.tx.writeBuf.len := Nat.pos_of_ne_zero hne
      rw [he, decide_eq_true hlen]
      exact hnext (hstop.trans (sendNew_one hstop.blocked hlen))
  · have hno : c.tx.zeroWindowProbing = false := by simpa [h.synced] using hp
    rw [hno]
    exact hstop

theorem copyChunk (h : Blocked c) {b : List UInt8} (hb : b ≠ []) : Stalls 0 c (c.copyChunk b) := by
  refine ⟨⟨h.synced, h.state, h.wnd⟩, rfl, ?_, 0, rfl, (UInt32.add_zero _).symm⟩
  show (c.tx.writeBuf.writeNoBlock b).1.len + 0 + _
    = _ + (c.tx.accepted ++ b.take (c.tx.writeBuf.writeNoBlock b).2).length
  have hle := c.tx.writeBuf.writeNoBlock_le b
  rw [RingBuffer.len_writeNoBlock _ hb, List.length_append, List.length_take]
  omega

theorem closeWrite (h : Blocked c) : Stalls 0 c c.closeWrite := by
  rw [TCPConn.closeWrite]
  split
  · exact of_resends h (.refl c) h.wnd
  · exact ⟨⟨h.synced, h.state, h.wnd⟩, rfl, rfl, 0, rfl, (UInt32.add_zero _).symm⟩

end Stalls

theorem Stalls.bytesTaken {k : ℕ} (h : Stalls k c c') : c.bytesTaken c' = k := by
  have hb := h.bytes
  rw [TCPConn.bytesTaken]
  omega

/-- The count decides. -/
theorem Stalls.oneByte_iff {k : ℕ} (h : Stalls k c c') : OneByte c c' ↔ k ≤ 1 := by
  refine ⟨fun ho => h.bytesTaken ▸ ho.taken, fun hk => ⟨h.bytesTaken.symm ▸ hk, ?_⟩⟩
  obtain ⟨f, hf, hnxt⟩ := h.nxt
  have hmove : c'.tx.snd.nxt - c'.tx.snd.una - (c.tx.snd.nxt - c.tx.snd.una) = UInt32.ofNat (k + f) := by
    rw [hnxt, h.una, ← UInt32.toNat_inj]
    simp only [UInt32.toNat_sub, UInt32.toNat_add]
    have hn := c.tx.snd.nxt.toNat_lt
    have hu := c.tx.snd.una.toNat_lt
    have hd := (UInt32.ofNat (k + f)).toNat_lt
    omega
  rw [hmove, UInt32.toNat_ofNat', hf]
  have := Nat.mod_le (k + f) (2 ^ 32)
  omega

end TCPConn

open TCPConn

/-- One event of a starved connection. -/
theorem Sys.Step.stalls {s s' : Sys} {e : Event} (h : Sys.Step s e s') (hb : Blocked s.conn)
    (hok : s.Starves e) : Stalls (s.probes e).toNat s.conn s'.conn := by
  have hresends : (∀ seg, e ≠ .inbound seg) → s.probes e = false → Resends s.conn s'.conn →
      Stalls (s.probes e).toNat s.conn s'.conn := by
    intro hin hno hr
    have hs' : s'.conn.ctl.synced = true := (congrArg Prod.fst hr.tokens).trans hb.synced
    rw [hno]
    rcases h.wnd hs' with ⟨-, hw⟩ | ⟨seg, he, -⟩
    · exact .of_resends hb hr (hw.trans hb.wnd)
    · exact absurd he (hin seg)
  by_cases he : Sys.resending e = true
  · refine hresends ?_ ?_ (h.resends he)
    · rintro seg rfl
      cases he
    · cases e <;> first | rfl | cases he
  cases h
  case inbound seg _ => exact .onInbound hb hok
  case zeroWindowTimer =>
    have hp : s.probes .zeroWindowTimer
        = (s.conn.tx.zeroWindowProbing && decide (0 < s.conn.tx.writeBuf.len)) := by
      simp [Sys.probes, hb.synced]
    rw [hp]
    exact .onZeroWindow hb
  case writeNotify => exact .onWriteNotify hb
  case closeCh => exact .onClose hb
  case writeCopy => exact .copyChunk hb (by assumption)
  case closeWrite => exact .closeWrite hb
  case writeCopied | writeBlocked => exact hresends (fun _ => by simp) (by simp [Sys.probes]) (.refl _)
  all_goals exact absurd rfl he

/-- A whole run. -/
theorem run_stalls {s s' : Sys} {es : List Event} (h : Run Sys.step Sys.Starves s es s')
    (hb : Blocked s.conn) : Stalls (s.countProbes es) s.conn s'.conn := by
  induction h with
  | nil s => exact .of_resends hb (.refl _) hb.wnd
  | @cons s s₁ s' e es hok hstep _ ih =>
    have hone := (Sys.step_inv hstep).2.stalls hb hok
    rw [Sys.countProbes, hstep]
    exact hone.trans (ih hone.blocked)

/-- CORRECT: while the peer keeps its window closed and acknowledges nothing, at most one byte is taken
    from `writeBuf` and sent if and only if at most one firing of the zero-window timer found data to
    probe with. -/
theorem oneByte_iff_countProbes {s s' : Sys} {es : List Event}
    (hr : Reach Sys.Init Sys.step (fun _ _ => True) s) (hs : s.conn.ctl.synced = true)
    (hw : s.conn.tx.snd.wnd = 0) (h : Run Sys.step Sys.Starves s es s') :
    OneByte s.conn s'.conn ↔ s.countProbes es ≤ 1 := by
  refine (run_stalls h ⟨hs, fun hst => ?_, hw⟩).oneByte_iff
  exact absurd ((unsynced_reach hr hst).symm.trans hs) (by simp)

/-- The window closes, and the application writes four bytes. -/
def Sys.closedWindow : List Event :=
  [Sys.sampleACK, .inbound (Sys.sampleSegment tcpFlagACK 101 201 0 [] Sys.length_nil_lt)] ++
    Sys.writeEvents [1, 2, 3, 4]

/-- One firing sends one byte. -/
theorem oneByte_one_probe : ∃ s s' : Sys, Reach Sys.Init Sys.step (fun _ _ => True) s ∧
    Run Sys.step Sys.Starves s [.zeroWindowTimer] s' ∧ s'.conn.tx.snd.nxt = s.conn.tx.snd.nxt + 1 ∧
    OneByte s.conn s'.conn := by
  obtain ⟨s, hr, hs, hw, hcount, hany⟩ := Sys.exists_reach Sys.init_sample (fun _ _ => true)
    (fun s => s.conn.ctl.synced = true ∧ s.conn.tx.snd.wnd = 0 ∧
      s.countProbes [.zeroWindowTimer] ≤ 1 ∧
      (exec Sys.step (fun _ e => e = .zeroWindowTimer) s [.zeroWindowTimer]).any
        (fun s' => decide (s'.conn.tx.snd.nxt = s.conn.tx.snd.nxt + 1)) = true)
    Sys.closedWindow (by decide +kernel)
  obtain ⟨s', hrun, hnxt⟩ := exists_run_exec _ _ s _ _ hany
  have hstarves : Run Sys.step Sys.Starves s [.zeroWindowTimer] s' :=
    hrun.mono fun s e he => by rw [he]; trivial
  have hreach := hr.mono fun _ _ _ => trivial
  exact ⟨s, s', hreach, hstarves, hnxt, (oneByte_iff_countProbes hreach hs hw hstarves).2 hcount⟩

/-- Four firings with a silent peer send all four bytes, one after the other. -/
theorem four_probes_four_bytes : ∃ s s' : Sys, Reach Sys.Init Sys.step (fun _ _ => True) s ∧
    s.conn.ctl.synced = true ∧ s.conn.tx.snd.wnd = 0 ∧ s.conn.tx.snd.nxt = s.conn.tx.snd.una ∧
    Run Sys.step Sys.Starves s [.zeroWindowTimer, .zeroWindowTimer, .zeroWindowTimer, .zeroWindowTimer]
      s' ∧
    s.conn.bytesTaken s'.conn = 4 ∧ s'.conn.tx.snd.nxt = s'.conn.tx.snd.una + 4 ∧
    ¬OneByte s.conn s'.conn := by
  obtain ⟨s, hr, hs, hw, hidle, hany⟩ := Sys.exists_reach Sys.init_sample (fun _ _ => true)
    (fun s => s.conn.ctl.synced = true ∧ s.conn.tx.snd.wnd = 0 ∧
      s.conn.tx.snd.nxt = s.conn.tx.snd.una ∧
      (exec Sys.step (fun _ e => e = .zeroWindowTimer) s
        [.zeroWindowTimer, .zeroWindowTimer, .zeroWindowTimer, .zeroWindowTimer]).any
        (fun s' => decide (s.conn.bytesTaken s'.conn = 4 ∧
          s'.conn.tx.snd.nxt = s'.conn.tx.snd.una + 4)) = true)
    Sys.closedWindow (by decide +kernel)
  obtain ⟨s', hrun, htaken, hnxt⟩ := exists_run_exec _ _ s _ _ hany
  refine ⟨s, s', hr.mono fun _ _ _ => trivial, hs, hw, hidle,
    hrun.mono fun s e he => by rw [he]; trivial, htaken, hnxt, fun ho => ?_⟩
  have hle := ho.taken
  omega

end Netstack.Tcp
