import Netstack.Tcp.LastAck
import Netstack.Tcp.StateMachine

/-! The flag `lastWndZero`: whether the window last advertised was zero.

    The run loop sends a window update after a `Read` only if the flag says that the peer was last told
    a zero window. The senders of ACKs and of data set it; the sender of FINs and that of keepalive
    probes do not, although both advertise a window. The flag is right as long as such a segment goes
    out only while it says what the window is. -/

namespace Netstack.Tcp
open Netstack.Header Netstack.Loop Netstack.Trace TCPConn

/-! ### The window last advertised -/

/-- The window of the last ACK-bearing segment of `ps`, the SYN apart; `w` if there is none. -/
def lastWndFrom (w : Option UInt16) (ps : List OutSegment) : Option UInt16 :=
  ps.foldl (fun w p =>
    if p.flags.has tcpFlagACK && !p.flags.has tcpFlagSYN then some p.wnd else w) w

/-- The window the peer was last told. -/
def lastWnd (out : List OutSegment) : Option UInt16 := lastWndFrom none out

theorem lastWnd_append (out ps : List OutSegment) :
    lastWnd (out ++ ps) = lastWndFrom (lastWnd out) ps := List.foldl_append

/-- Without a FIN among them, the flag follows the segments. -/
theorem noteZero_iff : ∀ (ps : List OutSegment) {z : Bool} {w : Option UInt16},
    (∀ p ∈ ps, p.flags.has tcpFlagFIN = false) → (z = true ↔ w = some 0) →
    (noteZero z ps = true ↔ lastWndFrom w ps = some 0)
  | [], _, _, _, h => h
  | p :: ps, z, w, hfin, h => by
      refine noteZero_iff ps (fun q hq => hfin q (List.mem_cons_of_mem p hq)) ?_
      dsimp only
      rw [hfin p List.mem_cons_self, Bool.not_false, Bool.and_true]
      cases p.flags.has tcpFlagACK && !p.flags.has tcpFlagSYN with
      | true => simp
      | false => exact h

/-- Where all segments advertise the same window, the flag is about that window. -/
theorem noteZero_const : ∀ (ps : List OutSegment) {z : Bool} {wnd : UInt16},
    (∀ p ∈ ps, p.wnd = wnd) → (z = true ↔ wnd = 0) → (noteZero z ps = true ↔ wnd = 0)
  | [], _, _, _, h => h
  | p :: ps, z, wnd, hwnd, h => by
      refine noteZero_const ps (fun q hq => hwnd q (List.mem_cons_of_mem p hq)) ?_
      dsimp only
      rw [hwnd p List.mem_cons_self]
      split
      · simp
      · exact h

/-- `p` bears an ACK and the window `wnd`. -/
def OutSegment.Advertises (p : OutSegment) (wnd : UInt16) : Prop :=
  p.flags.has tcpFlagACK = true ∧ p.flags.has tcpFlagSYN = false ∧ p.wnd = wnd

theorem lastWndFrom_cons {p : OutSegment} {wnd : UInt16} (hp : p.Advertises wnd)
    (w : Option UInt16) (ps : List OutSegment) :
    lastWndFrom w (p :: ps) = lastWndFrom (some wnd) ps := by
  obtain ⟨hack, hsyn, rfl⟩ := hp
  show lastWndFrom (if p.flags.has tcpFlagACK && !p.flags.has tcpFlagSYN then _ else _) ps = _
  rw [hack, hsyn]
  rfl

theorem lastWndFrom_some : ∀ (ps : List OutSegment) {wnd : UInt16},
    (∀ p ∈ ps, p.Advertises wnd) → lastWndFrom (some wnd) ps = some wnd
  | [], _, _ => rfl
  | p :: ps, wnd, h => by
      rw [lastWndFrom_cons (h p List.mem_cons_self)]
      exact lastWndFrom_some ps fun q hq => h q (List.mem_cons_of_mem p hq)

/-- The flag says whether the window last advertised was zero. -/
def Flagged (c : TCPConn) : Prop := c.wire.lastWndZero = true ↔ lastWnd c.wire.out = some 0

/-- The flag says whether the window is zero. -/
def Agrees (c : TCPConn) : Prop := c.wire.lastWndZero = true ↔ c.wnd = 0

/-! ### Segments without a FIN -/

/-- `c'` came from `c` by sending segments other than FINs, each noted in the flag. -/
def Noted (c c' : TCPConn) : Prop := ∃ ps, c'.wire.out = c.wire.out ++ ps ∧
  c'.wire.lastWndZero = noteZero c.wire.lastWndZero ps ∧ ∀ p ∈ ps, p.flags.has tcpFlagFIN = false

namespace Noted

variable {c c' c'' : TCPConn}

theorem of_wire (hout : c'.wire.out = c.wire.out) (hflag : c'.wire.lastWndZero = c.wire.lastWndZero) :
    Noted c c' := ⟨[], by rw [hout, List.append_nil], hflag, by simp⟩

theorem trans (h : Noted c c') (h' : Noted c' c'') : Noted c c'' := by
  obtain ⟨ps, hps, hnote, hfin⟩ := h
  obtain ⟨ps', hps', hnote', hfin'⟩ := h'
  refine ⟨ps ++ ps', by rw [hps', hps, List.append_assoc], by rw [hnote', hnote, noteZero_append], ?_⟩
  intro p hp
  exact (List.mem_append.1 hp).elim (hfin p) (hfin' p)

theorem flagged (h : Noted c c') (hc : Flagged c) : Flagged c' := by
  obtain ⟨ps, hps, hnote, hfin⟩ := h
  rw [Flagged, hps, hnote, lastWnd_append]
  exact noteZero_iff ps hfin hc

/-- A segment with just an ACK, noted in the flag. -/
theorem of_ack {p : OutSegment} (hout : c'.wire.out = c.wire.out ++ [p])
    (hflag : c'.wire.lastWndZero = (p.wnd == 0)) (hp : p.flags = tcpFlagACK) : Noted c c' := by
  refine ⟨[p], hout, hflag.trans (noteZero_ack _ hp).symm, fun q hq => ?_⟩
  rw [List.mem_singleton.1 hq, hp]
  decide

theorem sendACK (c : TCPConn) : Noted c c.sendACK := of_ack rfl rfl rfl

/-- Segments that the flag does not count. -/
theorem of_uncounted {p : OutSegment} (hout : c'.wire.out = c.wire.out ++ [p])
    (hflag : c'.wire.lastWndZero = c.wire.lastWndZero) (hp : p.flags.has tcpFlagFIN = false)
    (hun : (p.flags.has tcpFlagACK && !p.flags.has tcpFlagSYN) = false) : Noted c c' := by
  refine ⟨[p], hout, ?_, fun q hq => by rw [List.mem_singleton.1 hq]; exact hp⟩
  rw [hflag]
  exact (if_neg (by rw [hun]; simp)).symm

theorem sendRSTSegment (c : TCPConn) (seq : UInt32) : Noted c (c.sendRSTSegment seq) :=
  of_uncounted rfl rfl (by decide : tcpFlagRST.has tcpFlagFIN = false)
    (by decide : (tcpFlagRST.has tcpFlagACK && !tcpFlagRST.has tcpFlagSYN) = false)

theorem sendSYNACK (c : TCPConn) : Noted c c.sendSYNACK :=
  of_uncounted rfl rfl (by decide : (tcpFlagSYN ||| tcpFlagACK).has tcpFlagFIN = false)
    (by decide : ((tcpFlagSYN ||| tcpFlagACK).has tcpFlagACK &&
      !(tcpFlagSYN ||| tcpFlagACK).has tcpFlagSYN) = false)

theorem closeDone (c : TCPConn) : Noted c c.closeDone := by
  rw [TCPConn.closeDone]
  split <;> exact of_wire rfl rfl

/-- New data, and nothing else, is sent. -/
theorem sendNew (c : TCPConn) (k : ℕ) : Noted c (c.sendNew k).1 := by
  rw [TCPConn.sendNew]
  split
  · exact of_wire rfl rfl
  · exact of_ack rfl rfl rfl

theorem sendGSO (c : TCPConn) (k : ℤ) : Noted c (c.sendGSO k).1 := by
  rw [TCPConn.sendGSO]
  split_ifs
  · exact of_wire rfl rfl
  · exact of_wire rfl rfl
  · exact of_ack rfl rfl rfl

theorem sendSegment (c : TCPConn) (k : ℤ) : Noted c (c.sendSegment k).1 := by
  rw [TCPConn.sendSegment]
  split
  · exact of_wire rfl rfl
  · exact sendNew c _

theorem sendPendingStep (c : TCPConn) : Noted c c.sendPendingStep.1 := by
  have hbatch : ∀ w a, Noted c (c.sendBatch w a).1 := by
    intro w a
    rw [TCPConn.sendBatch.eq_def]
    split
    · split
      · exact sendGSO c _
      · exact sendSegment c _
    · exact sendSegment c _
  rw [TCPConn.sendPendingStep]
  split_ifs
  iterate 4 exact of_wire rfl rfl
  exact hbatch _ _

theorem sendPending (c : TCPConn) : Noted c c.sendPending := by
  refine loop_rel Noted trans sendPendingStep ?_ _ c
  exact fun _ => of_wire rfl rfl

end Noted

/-! ### The receive side -/

/-- `c'` came from `c` by sending plain ACKs with the window as it is, each noted in the flag. -/
structure Acks (c c' : TCPConn) : Prop where
  wnd : c'.wnd = c.wnd
  synced : c'.ctl.synced = c.ctl.synced
  told : ∃ ps, c'.wire.out = c.wire.out ++ ps ∧
    c'.wire.lastWndZero = noteZero c.wire.lastWndZero ps ∧
    ∀ p ∈ ps, p.flags = tcpFlagACK ∧ (c.ctl.synced = true → p.wnd = c.wnd)

namespace Acks

variable {c c' c'' : TCPConn}

theorem quiet (hwnd : c'.wnd = c.wnd) (hs : c'.ctl.synced = c.ctl.synced)
    (hout : c'.wire.out = c.wire.out) (hflag : c'.wire.lastWndZero = c.wire.lastWndZero) : Acks c c' :=
  ⟨hwnd, hs, [], by rw [hout, List.append_nil], hflag, by simp⟩

theorem refl (c : TCPConn) : Acks c c := quiet rfl rfl rfl rfl

theorem trans (h : Acks c c') (h' : Acks c' c'') : Acks c c'' := by
  obtain ⟨ps, hps, hnote, hp⟩ := h.told
  obtain ⟨ps', hps', hnote', hp'⟩ := h'.told
  refine ⟨h'.wnd.trans h.wnd, h'.synced.trans h.synced, ps ++ ps',
    by rw [hps', hps, List.append_assoc], by rw [hnote', hnote, noteZero_append], fun p hmem => ?_⟩
  rcases List.mem_append.1 hmem with hmem | hmem
  · exact hp p hmem
  · rw [← h.wnd, ← h.synced]
    exact hp' p hmem

theorem noted (h : Acks c c') : Noted c c' := by
  obtain ⟨ps, hps, hnote, hp⟩ := h.told
  refine ⟨ps, hps, hnote, fun p hmem => ?_⟩
  rw [(hp p hmem).1]
  decide

theorem agrees (h : Acks c c') (hs : c.ctl.synced = true) (hc : Agrees c) : Agrees c' := by
  obtain ⟨ps, -, hnote, hp⟩ := h.told
  rw [Agrees, hnote, h.wnd]
  exact noteZero_const ps (fun p hmem => (hp p hmem).2 hs) hc

theorem sendACK (c : TCPConn) : Acks c c.sendACK := by
  refine ⟨rfl, rfl, [_], rfl, ?_, fun p hp => ?_⟩
  · rw [noteZero_ack _ rfl]
    rfl
  · rw [List.mem_singleton.1 hp]
    exact ⟨rfl, fun hs => by simp [ackWnd, hs]⟩

theorem closeReadBuf (c : TCPConn) : Acks c c.closeReadBuf := by
  refine quiet ?_ rfl rfl rfl
  rw [TCPConn.wnd, TCPConn.wnd, TCPConn.closeReadBuf]
  dsimp only
  split <;> rfl

theorem closeDone (c : TCPConn) : Acks c c.closeDone := by
  rw [TCPConn.closeDone]
  split
  · exact refl c
  · exact quiet rfl rfl rfl rfl

/-- What a handler ends with is plain ACKs. -/
theorem concludes (h : Concludes c c') : Acks c c' := by
  induction h with
  | refl => exact refl c
  | sendACK _ ih => exact ih.trans (sendACK _)
  | closeReadBuf _ ih => exact ih.trans (closeReadBuf _)
  | closeDone _ ih => exact ih.trans (closeDone _)
  | countFIN _ ih | deferFIN _ ih | timers _ ih | setState _ _ ih => exact ih.trans (quiet rfl rfl rfl rfl)

end Acks

/-! ### A segment -/

/-- What a segment sets off after the handshake: work of the send side, then the receiver takes the
    payload, then ACKs. -/
def Flow (seg : Segment) (c c' : TCPConn) : Prop := ∃ c₁ c₂, TxOnly c c₁ ∧
  (c₂.wire = c₁.wire ∧ c₂.ctl.synced = c₁.ctl.synced ∧ (seg.payload = [] → c₂ = c₁)) ∧ Acks c₂ c'

namespace Flow

variable {c c' c'' : TCPConn} {seg : Segment}

theorem after (h : Flow seg c' c'') (t : TxOnly c c') : Flow seg c c'' := by
  obtain ⟨c₁, c₂, t', hpay, h⟩ := h
  exact ⟨c₁, c₂, t.trans t', hpay, h⟩

theorem of_acks (h : Acks c c') : Flow seg c c' :=
  ⟨c, c, .refl c, ⟨rfl, rfl, fun _ => rfl⟩, h⟩

theorem finishes (h : Finishes seg c c') : Flow seg c c' := by
  obtain ⟨c₁, rfl | ⟨-, rfl⟩, hc⟩ := h
  · exact of_acks (.concludes hc)
  by_cases hnil : seg.payload = []
  · rw [hnil, handleData_nil] at hc
    exact of_acks (.concludes hc)
  · obtain ⟨c₁, hfed, he | ⟨-, -, he⟩⟩ := took_handleData c seg.seq seg.payload <;> rw [he] at hc
    · exact ⟨c, c₁, .refl c, ⟨hfed.wire, by rw [hfed.ctl], fun h => absurd h hnil⟩, .concludes hc⟩
    · have hclear : Acks c₁ c₁.clearFIN := .quiet rfl rfl rfl rfl
      exact ⟨c, c₁, .refl c, ⟨hfed.wire, by rw [hfed.ctl], fun h => absurd h hnil⟩,
        (hclear.trans (.concludes Concludes.refl.processFIN)).trans (.concludes hc)⟩

theorem handleSegment (c : TCPConn) (seg : Segment) (hs : c.ctl.state ≠ .synRcvd) :
    Flow seg c (c.handleSegment seg) := by
  rcases Handled.handleSegment c seg hs with h | ⟨c₁, hack, hfin⟩
  · exact of_acks (.concludes h)
  · exact (finishes hfin).after ((TxOnly.updateTSRecent c seg).trans hack.txOnly)

end Flow

/-! ### Segments with a FIN -/

namespace TCPConn

variable {c c' : TCPConn} {seg : Segment}

theorem TxOnly.agrees (t : TxOnly c c') (hs : c.ctl.synced = true) (ha : Agrees c) : Agrees c' := by
  obtain ⟨ps, -, hnote, hp⟩ := t.told
  rw [Agrees, hnote, t.wnd_eq]
  exact noteZero_const ps (fun p hmem => (hp p hmem).2.2 hs) ha

/-- While the flag says what the window is, a FIN does no harm. -/
theorem TxOnly.flagged (t : TxOnly c c') (hs : c.ctl.synced = true) (ha : Agrees c) (h : Flagged c) :
    Flagged c' := by
  obtain ⟨ps, hps, hnote, hp⟩ := t.told
  have hadv : ∀ p ∈ ps, p.Advertises c.wnd := fun p hmem =>
    ⟨(hp p hmem).1, (hp p hmem).2.1, (hp p hmem).2.2 hs⟩
  have hzero := noteZero_const ps (fun p hmem => (hp p hmem).2.2 hs) ha
  rw [Flagged, hps, hnote, lastWnd_append]
  cases ps with
  | nil => exact h
  | cons p ps =>
    rw [hzero, lastWndFrom_cons (hadv p List.mem_cons_self),
      lastWndFrom_some ps fun q hq => hadv q (List.mem_cons_of_mem p hq)]
    simp

end TCPConn

/-- Without a FIN in the queue none is sent. -/
theorem Noted.of_told {c c' : TCPConn} (h : ∃ ps, c'.wire.out = c.wire.out ++ ps ∧
    c'.wire.lastWndZero = noteZero c.wire.lastWndZero ps) (ht : Transmits c c')
    (hq : ¬FinQueued c) : Noted c c' := by
  have hnone : ∀ e ∈ c.tx.snd.unacked, e.fin = false := fun e he => by
    by_contra hf
    exact hq ⟨e, he, by simpa using hf⟩
  obtain ⟨ps, hps, hnote⟩ := h
  obtain ⟨-, ps', hps', hfin⟩ := ht.sendsNoFin hnone
  obtain rfl : ps' = ps := List.append_cancel_left (hps'.symm.trans hps)
  exact ⟨ps', hps', hnote, hfin⟩

theorem TCPConn.TxOnly.flagged_of_transmits {c c' : TCPConn} (t : TxOnly c c') (ht : Transmits c c')
    (ha : FinQueued c → c.ctl.synced = true ∧ Agrees c) (hc : Flagged c) : Flagged c' := by
  by_cases hq : FinQueued c
  · exact t.flagged (ha hq).1 (ha hq).2 hc
  · obtain ⟨ps, hps, hnote, -⟩ := t.told
    exact (Noted.of_told ⟨ps, hps, hnote⟩ ht hq).flagged hc

namespace Flow

variable {c c' : TCPConn} {seg : Segment}

theorem synced (h : Flow seg c c') : c'.ctl.synced = c.ctl.synced := by
  obtain ⟨c₁, c₂, t, ⟨-, hs, -⟩, hacks⟩ := h
  rw [hacks.synced, hs, t.ctl]

theorem agrees (h : Flow seg c c') (hs : c.ctl.synced = true) (hnil : seg.payload = [])
    (ha : Agrees c) : Agrees c' := by
  obtain ⟨c₁, c₂, t, ⟨-, -, he⟩, hacks⟩ := h
  obtain rfl := he hnil
  exact hacks.agrees (by rw [t.ctl]; exact hs) (t.agrees hs ha)

theorem told (h : Flow seg c c') : ∃ ps, c'.wire.out = c.wire.out ++ ps ∧
    c'.wire.lastWndZero = noteZero c.wire.lastWndZero ps := by
  obtain ⟨c₁, c₂, t, ⟨hwire, -, -⟩, hacks⟩ := h
  obtain ⟨ps₁, hps₁, hnote₁, -⟩ := t.told
  obtain ⟨ps₂, hps₂, hnote₂, -⟩ := hacks.told
  rw [hwire] at hps₂ hnote₂
  exact ⟨ps₁ ++ ps₂, by rw [hps₂, hps₁, List.append_assoc],
    by rw [hnote₂, hnote₁, noteZero_append]⟩

theorem flagged (h : Flow seg c c') (ht : Transmits c c')
    (ha : FinQueued c → c.ctl.synced = true ∧ Agrees c) (hc : Flagged c) : Flagged c' := by
  by_cases hq : FinQueued c
  · obtain ⟨c₁, c₂, t, ⟨hwire, -, -⟩, hacks⟩ := h
    have h₁ : Flagged c₁ := t.flagged (ha hq).1 (ha hq).2 hc
    refine hacks.noted.flagged ?_
    rw [Flagged, hwire]
    exact h₁
  · exact (Noted.of_told h.told ht hq).flagged hc

end Flow

/-! ### The run loop -/

/-- A FIN or a keepalive probe is sent only while the flag says what the window is, and data does not
    come in while a FIN is deferred. -/
def FlagKept (s : Sys) : Event → Prop
  | .inbound seg => (s.conn.ctl.finPending = true ∨ FinQueued s.conn → Agrees s.conn) ∧
      (s.conn.ctl.finPending = true → seg.payload = [])
  | .rtoTimer => FinQueued s.conn → Agrees s.conn
  | .writeNotify => s.conn.ctl.finPending = true → Agrees s.conn
  | .closeCh => s.conn.ctl.state = .established ∨ s.conn.ctl.state = .closeWait → Agrees s.conn
  | .keepaliveTimer => s.conn.ctl.state = .established → s.conn.hasUnacked = false → Agrees s.conn
  | _ => True

namespace TCPConn

variable {c : TCPConn}

theorem finalizeFIN_flagged (hs : c.ctl.synced = true) (ha : Agrees c) (h : Flagged c) :
    Flagged c.finalizeFIN := by
  have hsend : Flagged c.clearPending.sendFIN :=
    (TxOnly.sendFIN c.clearPending).flagged hs ha h
  rw [finalizeFIN.eq_def]
  split
  · exact hsend
  · exact hsend
  · exact h

theorem finIfDrained_flagged (hs : c.ctl.synced = true) (ha : Agrees c) (h : Flagged c) :
    Flagged c.finIfDrained := by
  rw [finIfDrained]
  split
  · exact finalizeFIN_flagged hs ha h
  · exact h

theorem armRTO_acks (c : TCPConn) : Acks c c.armRTO := by
  rw [armRTO]
  split
  · exact .quiet rfl rfl rfl rfl
  · exact .refl c

theorem manageRTO_acks (c : TCPConn) : Acks c c.manageRTO := by
  rw [manageRTO]
  split_ifs
  · exact .refl c
  · exact armRTO_acks c
  · exact .quiet rfl rfl rfl rfl

theorem handleSynRcvd_noted (c : TCPConn) (seg : Segment) : Noted c (c.handleSynRcvd seg) := by
  rw [handleSynRcvd]
  split_ifs
  · exact .sendACK c
  · exact (Noted.sendRSTSegment c _).trans ((Noted.of_wire rfl rfl).trans (.closeDone _))
  · have hopen : Noted c (c.establish seg).resetKeepalive := .of_wire rfl rfl
    refine (hopen.trans ?_).trans (.of_wire rfl rfl)
    rw [synPayload]
    split
    · exact .of_wire rfl rfl
    · refine Noted.trans ?_ (.sendACK _)
      obtain ⟨c₁, hfed, he | ⟨-, -, he⟩⟩ :=
        took_handleData (c.establish seg).resetKeepalive seg.seq seg.payload
      · rw [he]
        exact .of_wire (by rw [hfed.wire]) (by rw [hfed.wire])
      · rw [he]
        have hclear : Noted (c.establish seg).resetKeepalive c₁.clearFIN :=
          .of_wire (by rw [← hfed.wire]; rfl) (by rw [← hfed.wire]; rfl)
        exact hclear.trans (Acks.concludes Concludes.refl.processFIN).noted
  · exact .sendSYNACK c
  · exact .of_wire rfl rfl

theorem handleSegment_synRcvd_noted (c : TCPConn) (seg : Segment) (hs : c.ctl.state = .synRcvd) :
    Noted c (c.handleSegment seg) := by
  have t : TxOnly c (c.updateTSRecent seg) := .updateTSRecent c seg
  have hts : Noted c (c.updateTSRecent seg) := by
    rw [updateTSRecent]
    split
    · split <;> exact .of_wire rfl rfl
    · exact .of_wire rfl rfl
  rw [handleSegment]
  split_ifs
  · exact .of_wire rfl rfl
  · exact (Acks.concludes (.handleRSTSegment c seg)).noted
  · exact .sendACK c
  · rw [dispatch, t.ctl, hs]
    exact hts.trans (handleSynRcvd_noted _ seg)

theorem handleSegment_finPending (c : TCPConn) (seg : Segment) :
    (c.handleSegment seg).ctl.finPending = c.ctl.finPending := by
  rcases handleSegment_cases c seg with ht | ⟨-, he⟩
  · exact congrArg (fun t => t.2.2.1) ht.tokens
  · rw [he]
    exact opened_finPending c seg

/-- The deferred FIN after a segment. -/
theorem drainForFIN_flagged (h : Flagged c) (ha : c.ctl.finPending = true → Agrees c) :
    Flagged c.drainForFIN := by
  rw [drainForFIN]
  split
  · rename_i hpend
    have t := TxOnly.sendPending c
    exact finIfDrained_flagged (by rw [t.ctl]; exact hpend.2) (t.agrees hpend.2 (ha hpend.1))
      (t.flagged hpend.2 (ha hpend.1) h)
  · exact h

theorem onInbound_flagged {seg : Segment} (h : Flagged c) (hun : Unsynced c)
    (hfresh : c.ctl.synced = false → Fresh c)
    (ha : c.ctl.finPending = true ∨ FinQueued c → Agrees c)
    (hpay : c.ctl.finPending = true → seg.payload = []) : Flagged (c.onInbound seg) := by
  have hsync : c.ctl.finPending = true ∨ FinQueued c → c.ctl.synced = true := by
    intro hfin
    by_contra hs
    have hf := hfresh (by simpa using hs)
    rcases hfin with hp | ⟨e, he, -⟩
    · exact absurd (hf.finPending.symm.trans hp) (by simp)
    · rw [hf.queue] at he
      cases he
  have hseg : Flagged (c.handleSegment seg) := by
    rcases handleSegment_cases c seg with ht | ⟨hst, -⟩
    · by_cases hst : c.ctl.state = .synRcvd
      · exact (handleSegment_synRcvd_noted c seg hst).flagged h
      · exact (Flow.handleSegment c seg hst).flagged ht
          (fun hq => ⟨hsync (.inr hq), ha (.inr hq)⟩) h
    · exact (handleSegment_synRcvd_noted c seg hst).flagged h
  refine drainForFIN_flagged ((manageRTO_acks _).noted.flagged hseg) fun hp => ?_
  · rw [manageRTO_ctl, handleSegment_finPending] at hp
    have hs := hsync (.inl hp)
    have hst : c.ctl.state ≠ .synRcvd := fun hst => absurd ((hun hst).symm.trans hs) (by simp)
    have hflow := Flow.handleSegment c seg hst
    exact (manageRTO_acks _).agrees (hflow.synced.trans hs) (hflow.agrees hs (hpay hp) (ha (.inl hp)))

theorem handleRTO_flagged (h : Flagged c) (ha : FinQueued c → c.ctl.synced = true ∧ Agrees c) :
    Flagged c.handleRTO := by
  rw [handleRTO]
  split_ifs
  · exact h
  · exact (TxOnly.backOff c).flagged_of_transmits (.of_resends (.backOff c)) ha h
  · have habort : Noted c.countRetry c.countRetry.abort := by
      rw [abort]
      split
      · exact (Noted.sendRSTSegment _ _).trans (.closeDone _)
      · exact .closeDone _
    exact habort.flagged h
  · exact (TxOnly.backOff c.countRetry).flagged_of_transmits (.of_resends (.backOff _)) ha h

theorem onRTO_flagged (h : Flagged c) (ha : FinQueued c → Agrees c) : Flagged c.onRTO := by
  rw [onRTO]
  split
  · rename_i hs
    have hfired : Flagged c.stopRTO.handleRTO :=
      handleRTO_flagged (c := c.stopRTO) h fun hq => ⟨hs, ha hq⟩
    rw [rearmRTO]
    split
    · exact (armRTO_acks _).noted.flagged hfired
    · exact hfired
  · exact h

theorem onZeroWindow_flagged (h : Flagged c) : Flagged c.onZeroWindow := by
  have hprobe : Noted c.stopZeroWindow c.stopZeroWindow.sendZeroWindowProbe := by
    rw [sendZeroWindowProbe]
    dsimp only
    split_ifs
    · exact .of_wire rfl rfl
    · exact .sendNew _ 1
    · refine (Noted.sendNew _ 1).trans ?_
      rw [cancelZeroWindowProbe]
      split <;> exact .of_wire rfl rfl
  rw [onZeroWindow]
  split
  · exact hprobe.flagged h
  · exact h

/-- The keepalive probe is not noted, but the flag says what it advertises. -/
theorem sendKeepaliveProbe_flagged (ha : Agrees c) : Flagged c.sendKeepaliveProbe := by
  have hlast : lastWnd c.sendKeepaliveProbe.wire.out = some c.wnd := by
    rw [sendKeepaliveProbe, lastWnd_append]
    exact lastWndFrom_cons ⟨(by decide : tcpFlagACK.has tcpFlagACK = true),
      (by decide : tcpFlagACK.has tcpFlagSYN = false), rfl⟩ _ []
  rw [Flagged, hlast, Option.some.injEq]
  exact ha

theorem onKeepalive_flagged (h : Flagged c)
    (ha : c.ctl.state = .established → c.hasUnacked = false → Agrees c) : Flagged c.onKeepalive := by
  rw [onKeepalive]
  split_ifs with hst hun
  · exact h
  · exact (((Noted.sendRSTSegment (c.keepaliveFired _) _).trans (.closeDone _)).trans
      (.of_wire rfl rfl)).flagged h
  · have hfired : Agrees (c.keepaliveFired (c.timers.keepaliveProbes + 1)) :=
      ha hst.1 (by simpa using hun)
    exact (sendKeepaliveProbe_flagged hfired :)
  · exact h

theorem piggyback_acks (c : TCPConn) : Acks c c.piggyback := by
  rw [piggyback]
  split
  · exact .quiet rfl rfl rfl rfl
  · exact .refl c

theorem checkZeroWindow_acks (c : TCPConn) : Acks c c.checkZeroWindow := by
  rw [checkZeroWindow]
  split_ifs
  · exact .refl c
  · exact .quiet rfl rfl rfl rfl
  · exact .refl c

theorem onWriteNotify_flagged (h : Flagged c) (ha : c.ctl.finPending = true → Agrees c) :
    Flagged c.onWriteNotify := by
  have hrest : Acks { c with app.writeNotify := false }.sendPending c.onWriteNotifySend := by
    have hkeep : Acks { c with app.writeNotify := false }.sendPending
        { c with app.writeNotify := false }.sendPending.resetKeepalive := .quiet rfl rfl rfl rfl
    exact ((hkeep.trans (checkZeroWindow_acks _)).trans (piggyback_acks _)).trans (armRTO_acks _)
  have hsend : Flagged c.onWriteNotifySend :=
    ((Noted.sendPending { c with app.writeNotify := false }).trans hrest.noted).flagged h
  rw [onWriteNotify]
  split_ifs with hs hp
  · have t := TxOnly.sendPending { c with app.writeNotify := false }
    have hagrees := t.agrees (by exact hs) (ha hp)
    have hsync := (congrArg Ctl.synced t.ctl).trans hs
    exact finIfDrained_flagged (hrest.synced.trans hsync) (hrest.agrees hsync hagrees) hsend
  · exact hsend
  · exact h

theorem onClose_flagged (h : Flagged c) (hin : c.ctl.SyncedInside)
    (ha : c.ctl.state = .established ∨ c.ctl.state = .closeWait → Agrees c) :
    Flagged c.onClose := by
  have hsync : c.ctl.state = .established ∨ c.ctl.state = .closeWait → c.ctl.synced = true := by
    intro hst
    rcases hin with hs | hs | hs
    · exact hs
    all_goals rw [hs] at hst; simp at hst
  have hclose : Flagged { c with app.closeCh := false }.handleClose := by
    have hfin : c.ctl.synced = true → Agrees c →
        Flagged { c with app.closeCh := false }.flush.finOrDefer := by
      intro hs ha
      have t := TxOnly.sendPending { c with app.closeCh := false }
      rw [flush, if_pos (by exact hs), finOrDefer]
      split
      · exact (Noted.sendPending { c with app.closeCh := false }).flagged h
      · exact finalizeFIN_flagged ((congrArg Ctl.synced t.ctl).trans hs) (t.agrees (by exact hs) ha)
          (t.flagged (by exact hs) ha h)
    rw [handleClose.eq_def]
    split
    · rename_i hst
      exact hfin (hsync (.inl hst)) (ha (.inl hst))
    · rename_i hst
      exact hfin (hsync (.inr hst)) (ha (.inr hst))
    · exact h
  rw [onClose]
  dsimp only
  split
  · exact (armRTO_acks _).noted.flagged hclose
  · exact hclose

theorem exitRun_noted (c : TCPConn) : Noted c c.exitRun :=
  (Noted.closeDone c).trans (.of_wire rfl rfl)

theorem onForceClose_noted (c : TCPConn) : Noted c c.onForceClose := by
  rw [onForceClose]
  split
  · have hbufs : Noted (c.sendRSTSegment c.tx.snd.nxt)
        (c.sendRSTSegment c.tx.snd.nxt).forceCloseBufs := .of_wire rfl rfl
    exact ((Noted.sendRSTSegment c _).trans hbufs).trans (exitRun_noted _)
  · have hbufs : Noted c c.forceCloseBufs := .of_wire rfl rfl
    exact hbufs.trans (exitRun_noted _)

theorem onWindowNotify_noted (c : TCPConn) : Noted c c.onWindowNotify := by
  rw [onWindowNotify]
  dsimp only
  split
  · exact .of_ack rfl rfl rfl
  · exact .of_wire rfl rfl

end TCPConn

/-- The flag over one step. -/
theorem flagged_step {s s' : Sys} {e : Event} (hr : Reach Sys.Init Sys.step (fun _ _ => True) s)
    (h : Flagged s.conn) (hok : FlagKept s e) (hs : s.step e = some s') : Flagged s'.conn := by
  cases (Sys.step_inv hs).2
  case inbound seg run =>
    exact onInbound_flagged h (unsynced_reach hr) (fresh_reach hr) hok.1 hok.2
  case rtoTimer => exact onRTO_flagged h hok
  case delayedACKTimer =>
    exact (((Noted.of_wire rfl rfl).trans (.sendACK s.conn.cancelDelayedACK)).trans
      (.of_wire rfl rfl)).flagged h
  case zeroWindowTimer => exact onZeroWindow_flagged h
  case keepaliveTimer => exact onKeepalive_flagged h hok
  case writeNotify => exact onWriteNotify_flagged h hok
  case windowNotify => exact (onWindowNotify_noted _).flagged h
  case closeCh => exact onClose_flagged h (syncedInside_reach hr) hok
  case forceCloseCh => exact (onForceClose_noted _).flagged h
  case synRcvdTimer =>
    rw [onSynRcvdTimer]
    dsimp only
    split
    · exact (exitRun_noted _).flagged h
    · exact h
  case finWait2Timer =>
    rw [onFinWait2Timer]
    dsimp only
    split
    · exact (exitRun_noted _).flagged h
    · exact h
  case timeWaitTimer => exact (exitRun_noted _).flagged h
  case done => exact (exitRun_noted _).flagged h
  case writeCall =>
    have hwire : s.conn.growWriteBuf.wire = s.conn.wire := by
      rw [growWriteBuf]
      split <;> rfl
    have hn : Noted s.conn s.conn.growWriteBuf := .of_wire (by rw [hwire]) (by rw [hwire])
    exact hn.flagged h
  case closeWrite =>
    have hwire : s.conn.closeWrite.wire = s.conn.wire := by
      rw [closeWrite]
      split <;> rfl
    have hn : Noted s.conn s.conn.closeWrite := .of_wire (by rw [hwire]) (by rw [hwire])
    exact hn.flagged h
  case closeRead =>
    have hwire : s.conn.closeRead.wire = s.conn.wire := by
      rw [closeRead]
      split <;> rfl
    have hn : Noted s.conn s.conn.closeRead := .of_wire (by rw [hwire]) (by rw [hwire])
    exact hn.flagged h
  all_goals exact h

theorem flagged_reach {s : Sys} (hr : Reach Sys.Init Sys.step FlagKept s) : Flagged s.conn := by
  induction hr with
  | start h =>
    obtain ⟨h, irs, iss, options, hr, hw, -, rfl⟩ := Sys.init_iff.1 h
    refine (Noted.sendSYNACK _).flagged ?_
    exact (by decide : (false = true ↔ lastWnd [] = some 0))
  | next hr hok hs ih => exact flagged_step (hr.mono fun _ _ _ => trivial) ih hok hs

/-- SAFE, while FINs and keepalive probes leave only when the flag says what the window is: the flag says
    whether the window last advertised was zero, and a window opened since then is announced. -/
theorem window_flag {s : Sys} (hr : Reach Sys.Init Sys.step FlagKept s)
    (hs : s.conn.ctl.synced = true) :
    (s.conn.wire.lastWndZero = true ↔ lastWnd s.conn.wire.out = some 0) ∧
    (lastWnd s.conn.wire.out = some 0 → 0 < s.conn.wnd → ∀ s', s.step .windowNotify = some s' →
      ∃ p, s'.conn.wire.out = s.conn.wire.out ++ [p] ∧ p.flags = tcpFlagACK ∧
        p.ack = s.conn.rx.rcv.nxt ∧ p.wnd = s.conn.wnd) := by
  have hflag : Flagged s.conn := flagged_reach hr
  refine ⟨hflag, fun hzero hwnd s' hstep => ?_⟩
  obtain ⟨-, hstep⟩ := Sys.step_inv hstep
  cases hstep
  rw [onWindowNotify, if_pos ⟨hflag.2 hzero, hs, hwnd⟩]
  exact ⟨_, rfl, rfl, by simp [ackNum, hs], by simp [ackWnd, hs, TCPConn.wnd]⟩

/-- Eight bytes have filled the read buffer and the peer was told a zero window; it is told of the room
    that a `Read` makes. -/
theorem window_flag_reopened : ∃ s s' : Sys, Reach Sys.Init Sys.step FlagKept s ∧
    s.conn.ctl.synced = true ∧ s.conn.wire.lastWndZero = true ∧
    lastWnd s.conn.wire.out = some 0 ∧ 0 < s.conn.wnd ∧ s.step .windowNotify = some s' ∧
    ∃ p, s'.conn.wire.out = s.conn.wire.out ++ [p] ∧ p.flags = tcpFlagACK ∧
      p.ack = s.conn.rx.rcv.nxt ∧ p.wnd = s.conn.wnd := by
  obtain ⟨s, s', hr, -, hstep, hs, hzero, hwnd⟩ := Sys.exists_step Sys.init_sample
    (fun s e => decide (s.conn.ctl.finPending = false) &&
      s.conn.tx.snd.unacked.all (fun e => !e.fin) && decide (e ≠ .closeCh ∧ e ≠ .keepaliveTimer))
    (fun s _ => s.conn.ctl.synced = true ∧ lastWnd s.conn.wire.out = some 0 ∧ 0 < s.conn.wnd)
    [Sys.sampleACK, .inbound (Sys.sampleSegment tcpFlagACK 101 201 1000 [1, 2, 3, 4, 5, 6, 7, 8]),
      .delayedACKTimer, .readCall 8, .readReturn] .windowNotify (by decide +kernel)
  have hr' : Reach Sys.Init Sys.step FlagKept s := by
    refine hr.mono fun s e hok => ?_
    simp only [Bool.and_eq_true, decide_eq_true_eq, List.all_eq_true, Bool.not_eq_true'] at hok
    obtain ⟨⟨hpend, hfin⟩, hclose, hkeep⟩ := hok
    have hq : ¬FinQueued s.conn := by
      rintro ⟨e, he, hf⟩
      exact absurd ((hfin e he).symm.trans hf) (by simp)
    have hp : ¬s.conn.ctl.finPending = true := by rw [hpend]; simp
    cases e
    case inbound seg => exact ⟨fun h => absurd h (not_or.2 ⟨hp, hq⟩), fun h => absurd h hp⟩
    case rtoTimer => exact fun h => absurd h hq
    case writeNotify => exact fun h => absurd h hp
    case closeCh => exact absurd rfl hclose
    case keepaliveTimer => exact absurd rfl hkeep
    all_goals trivial
  obtain ⟨hflag, hsent⟩ := window_flag hr' hs
  exact ⟨s, s', hr', hs, hflag.2 hzero, hzero, hwnd, hstep, hsent hzero hwnd s' hstep⟩

/-- The read buffer is full when the application closes its side: the FIN tells the peer a zero window
    and the flag does not note it. The room that a `Read` then makes is not announced. -/
theorem fin_window_not_noted : ∃ s s' : Sys,
    Reach Sys.Init Sys.step (fun _ _ => True) s ∧ s.conn.ctl.synced = true ∧
    lastWnd s.conn.wire.out = some 0 ∧ s.conn.wire.lastWndZero = false ∧ 0 < s.conn.wnd ∧
    s.step .windowNotify = some s' ∧ s'.conn.wire.out = s.conn.wire.out := by
  obtain ⟨s, s', hr, -, hstep, hs, hzero, hflag, hwnd, hout⟩ := Sys.exists_step Sys.init_sample
    (fun _ _ => true)
    (fun s s' => s.conn.ctl.synced = true ∧ lastWnd s.conn.wire.out = some 0 ∧
      s.conn.wire.lastWndZero = false ∧ 0 < s.conn.wnd ∧ s'.conn.wire.out = s.conn.wire.out)
    [Sys.sampleACK, .inbound (Sys.sampleSegment tcpFlagACK 101 201 1000 [1, 2, 3, 4, 5, 6, 7, 8]),
      .closeWrite, .closeCh, .readCall 8, .readReturn] .windowNotify (by decide +kernel)
  exact ⟨s, s', hr.mono fun _ _ _ => trivial, hs, hzero, hflag, hwnd, hstep, hout⟩

end Netstack.Tcp
