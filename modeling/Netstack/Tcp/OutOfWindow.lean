import Netstack.Tcp.SegmentIsolation

/-! What a segment outside the receive window does to the connection.

    There is no common acceptability test: the payload is cut to the window by `handleData`, but the
    acknowledgment, the FIN and the timestamp of the segment are taken without a look at its sequence
    number. The segment is inert exactly if these three are. -/

namespace Netstack.Tcp
open Netstack.Header Netstack.Serial Netstack.Trace Netstack.Loop

namespace TCPConn

variable {c c' c'' : TCPConn} {seg : Segment}

/-! ### Acknowledgments that are not passed over -/

/-- What every acknowledgment that counts moves: `snd.una`, or the count of duplicates. -/
def marks (c : TCPConn) : UInt32 × ℤ := (c.tx.snd.una, c.tx.snd.dupACKCount)

theorem marks_of_kept (h : c'.kept = c.kept) : c'.marks = c.marks :=
  congrArg (fun k => (k.1.una, k.1.dupACKCount)) h

theorem handleDupACK_marks (c : TCPConn) :
    c.handleDupACK.marks = (c.tx.snd.una, c.tx.snd.dupACKCount + 1) := by
  rw [handleDupACK]
  split_ifs
  · exact (marks_of_kept (sendPending_kept _)).trans rfl
  · exact (marks_of_kept (limitedTransmit_kept _)).trans rfl
  · exact (marks_of_kept (retransmitFirstUnSACKed_kept _)).trans rfl
  · rfl

theorem handleNewACK_una (c : TCPConn) (ack : UInt32) : (c.handleNewACK ack).tx.snd.una = ack := by
  rw [handleNewACK]
  refine (congrArg Prod.fst (marks_of_kept (sendPending_kept _))).trans ?_
  refine (Resends.updateCwnd _ _ _).una.trans ?_
  obtain ⟨s, n, ⟨_, _, _, rfl⟩, he⟩ := removeAcked_eq (c.advanceUna ack) ack
  rw [he]
  rfl

theorem ignores_of_marks {ack : UInt32} (h : (c.handleACK ack).marks = c.marks) : c.Ignores ack := by
  rw [handleACK] at h
  split_ifs at h with hdup hold
  · rw [handleDupACK_marks] at h
    have hcount := congrArg Prod.snd h
    simp [marks] at hcount
  · refine ⟨hdup, fun hnew => ?_⟩
    rw [hnew] at hold
    exact hold
  · exact absurd ((handleNewACK_una c ack).symm.trans (congrArg Prod.fst h)) hdup

/-- The same, when other work that leaves the marks alone came first. -/
theorem ignores_of_handled {ack : UInt32} (hr : Resends c c') (hm : c'.marks = c.marks)
    (h : (c'.handleACK ack).marks = c.marks) : c.Ignores ack := by
  have hign := ignores_of_marks (h.trans hm.symm)
  rw [Ignores, hr.una, hr.nxt] at hign
  exact hign

theorem measureRTTM_marks (c : TCPConn) (seg : Segment) : (c.measureRTTM seg).marks = c.marks := by
  obtain ⟨s, n, ⟨_, _, _, rfl⟩, he⟩ := measureRTTM_eq c seg
  rw [he]
  rfl

theorem handleSACK_marks (c : TCPConn) (seg : Segment) : (c.handleSACK seg).marks = c.marks := by
  have hkept := handleSACK_kept c seg
  have huna := congrArg Sender.una hkept
  have hdup := congrArg Sender.dupACKCount hkept
  exact Prod.ext huna hdup

theorem sendOnUpdate_marks (c : TCPConn) (seg : Segment) (w : UInt32) :
    (c.sendOnUpdate seg w).marks = c.marks := by
  rw [sendOnUpdate]
  split
  · exact marks_of_kept (sendPending_kept c)
  · rfl

theorem manageZeroWindow_marks (c : TCPConn) : c.manageZeroWindow.marks = c.marks := by
  rw [manageZeroWindow]
  split_ifs
  · refine (marks_of_kept (sendPending_kept _)).trans ?_
    rw [cancelZeroWindowProbe]
    split <;> rfl
  · rw [checkZeroWindow]
    split_ifs <;> rfl
  · rfl

/-- An acknowledgment that leaves the send side alone has been passed over. -/
theorem ignores_of_ackPart (hs : c.ctl.synced = true) (hack : seg.flags.has tcpFlagACK = true)
    (h : (c.ackPart seg).tx = c.tx) (hst : takesACK c.ctl.state = true) : c.Ignores seg.ack := by
  have hmarks : (c.ackPart seg).marks = c.marks := by rw [marks, marks, h]
  have hrtt : Resends c ((c.setWnd seg).noteMaxWnd.measureRTTM seg) :=
    ((Resends.setWnd c seg).trans (.noteMaxWnd _)).trans (.measureRTTM _ seg)
  cases hc : c.ctl.state <;> rw [hc] at hst <;> rw [ackPart, hc] at hmarks
  case established =>
    dsimp only at hmarks
    rw [establishedACK, if_pos ⟨hack, hs⟩, manageZeroWindow_marks, sendOnUpdate_marks] at hmarks
    have hr : Resends c.resetKeepalive ((((c.resetKeepalive.setWnd seg).noteMaxWnd.measureRTTM
        seg)).handleSACK seg) :=
      (((Resends.setWnd _ seg).trans (.noteMaxWnd _)).trans (.measureRTTM _ seg)).trans
        (.handleSACK _ seg)
    exact ignores_of_handled (c := c.resetKeepalive) hr
      ((handleSACK_marks _ seg).trans (measureRTTM_marks _ seg)) hmarks
  case finWait1 =>
    dsimp only at hmarks
    rw [finWait1ACK, if_pos ⟨hack, hs⟩] at hmarks
    exact ignores_of_handled ((Resends.setWnd c seg).trans (.measureRTTM _ seg))
      (measureRTTM_marks (c.setWnd seg) seg) hmarks
  case closeWait =>
    dsimp only at hmarks
    rw [handleCloseWait, if_pos ⟨hack, hs⟩] at hmarks
    exact ignores_of_handled hrtt (measureRTTM_marks (c.setWnd seg).noteMaxWnd seg) hmarks
  case closing =>
    dsimp only at hmarks
    rw [if_pos ⟨hack, hs⟩] at hmarks
    exact ignores_of_handled (.measureRTTM c seg) (measureRTTM_marks c seg) hmarks
  all_goals cases hst

/-! ### Payload outside the window -/

/-- The sequence number `x` lies outside `[rcv.nxt - 1, rcv.nxt + rcvWnd]`. -/
def Outside (c : TCPConn) (x : UInt32) : Prop :=
  c.rcvWnd.toNat + 1 < (x - (c.rx.rcv.nxt - 1)).toNat

/-- All sequence numbers of the segment lie outside the window: its own, those of its payload and
    that of its FIN. -/
structure OutOfWindow (c : TCPConn) (seg : Segment) : Prop where
  seq : c.Outside seg.seq
  payload : ∀ i < seg.payload.length, c.Outside (seg.seq + UInt32.ofNat i)
  fin : seg.flags.has tcpFlagFIN = true → c.Outside seg.finSeq

theorem not_outside_nxt (c : TCPConn) : ¬c.Outside c.rx.rcv.nxt := by
  have hone : c.rx.rcv.nxt - (c.rx.rcv.nxt - 1) = 1 := by grind
  rw [Outside, hone, not_lt]
  exact Nat.le_add_left 1 _

theorem windowData_outside {seq : UInt32} (data : List UInt8) (h : c.Outside seq)
    (hnew : seqLessThan seq c.rx.rcv.nxt = false) : c.windowData seq data = c := by
  have hlate : (!seqLessThan seq (c.rx.rcv.nxt + c.rcvWnd)) = true := by
    rw [seqLessThan, decide_eq_false_iff_not, toInt32_neg_iff] at hnew
    have hfirst : seq - (c.rx.rcv.nxt - 1) = (seq - c.rx.rcv.nxt) + 1 := by grind
    have hlast : seq - (c.rx.rcv.nxt + c.rcvWnd) = (seq - c.rx.rcv.nxt) - c.rcvWnd := by grind
    have hone : (1 : UInt32).toNat = 1 := rfl
    rw [Outside, hfirst, UInt32.toNat_add, hone] at h
    rw [seqLessThan, Bool.not_eq_true', decide_eq_false_iff_not, toInt32_neg_iff, hlast,
      UInt32.toNat_sub_of_le _ _ (UInt32.le_iff_toNat_le.2 (by omega))]
    omega
  rw [windowData, if_pos hlate, ite_self]

/-- A payload that starts before `rcv.nxt` and does not reach it leaves a DSACK block behind, at
    most. -/
theorem takePayload_old (hold : seqLessThan seg.seq c.rx.rcv.nxt = true)
    (hbytes : ∀ i < seg.payload.length, seg.seq + UInt32.ofNat i ≠ c.rx.rcv.nxt) :
    ∃ b has, c.takePayload seg
      = { c with rx.rcv := { c.rx.rcv with dsackBlock := b, hasDSACKBlock := has } } := by
  have hsame : ∃ b has, c
      = { c with rx.rcv := { c.rx.rcv with dsackBlock := b, hasDSACKBlock := has } } := ⟨_, _, rfl⟩
  rw [takePayload]
  split
  · rw [handleData]
    dsimp only
    rw [hold, if_pos rfl]
    split_ifs with hempty hall
    · exact hsame
    · exact ⟨_, _, rfl⟩
    · have hlen := seg.payload_lt
      have hof : (UInt32.ofNat seg.payload.length).toNat = seg.payload.length :=
        UInt32.toNat_ofNat_of_lt' (by simp [UInt32.size]; omega)
      rw [ge_iff_le, UInt32.le_iff_toNat_le, hof, not_le] at hall
      refine absurd ?_ (hbytes _ hall)
      rw [UInt32.ofNat_toNat]
      grind
  · exact hsame

/-- So does a payload outside the window. -/
theorem takePayload_outside (h : c.OutOfWindow seg) : ∃ b has, c.takePayload seg
    = { c with rx.rcv := { c.rx.rcv with dsackBlock := b, hasDSACKBlock := has } } := by
  cases hold : seqLessThan seg.seq c.rx.rcv.nxt with
  | true =>
    refine takePayload_old hold fun i hi he => ?_
    have hin := h.payload i hi
    rw [he] at hin
    exact c.not_outside_nxt hin
  | false =>
    refine ⟨c.rx.rcv.dsackBlock, c.rx.rcv.hasDSACKBlock, ?_⟩
    rw [takePayload, handleData]
    dsimp only
    rw [hold, windowData_outside _ h.seq hold]
    simp

/-! ### What has to stay -/

/-- One ACK without data was sent on the way from `c` to `c'`, or nothing. -/
def AtMostACK (c c' : TCPConn) : Prop :=
  c'.wire.out = c.wire.out ∨
    ∃ p, c'.wire.out = c.wire.out ++ [p] ∧ p.flags = tcpFlagACK ∧ p.payload = []

/-- The handling of a segment that took `c` to `c'` left the state, the send side, the position and
    the buffered data of the receive side, its FIN and `tsRecent` alone. -/
structure Untouched (c c' : TCPConn) : Prop where
  state : c'.ctl.state = c.ctl.state
  tx : c'.tx = c.tx
  nxt : c'.rx.rcv.nxt = c.rx.rcv.nxt
  ooo : c'.rx.rcv.ooo = c.rx.rcv.ooo
  finReceived : c'.rx.rcv.finReceived = c.rx.rcv.finReceived
  finSeq : c'.rx.rcv.finSeq = c.rx.rcv.finSeq
  tsRecent : c'.wire.tsRecent = c.wire.tsRecent
  out : AtMostACK c c'

/-- All that has to stay but `tsRecent`. -/
def guarded (c : TCPConn) : TCPState × Tx × UInt32 × List OOOSegment × Bool × UInt32 :=
  (c.ctl.state, c.tx, c.rx.rcv.nxt, c.rx.rcv.ooo, c.rx.rcv.finReceived, c.rx.rcv.finSeq)

theorem untouched_iff : Untouched c c' ↔
    c'.guarded = c.guarded ∧ c'.wire.tsRecent = c.wire.tsRecent ∧ AtMostACK c c' := by
  simp only [guarded, Prod.mk.injEq]
  constructor
  · rintro ⟨h₁, h₂, h₃, h₄, h₅, h₆, h₇, h₈⟩
    exact ⟨⟨h₁, h₂, h₃, h₄, h₅, h₆⟩, h₇, h₈⟩
  · rintro ⟨⟨h₁, h₂, h₃, h₄, h₅, h₆⟩, h₇, h₈⟩
    exact ⟨h₁, h₂, h₃, h₄, h₅, h₆, h₇, h₈⟩

/-- Nothing has happened yet that a reader of the segment's effects would see. -/
structure Silent (c c' : TCPConn) : Prop where
  ctl : c'.ctl = c.ctl
  guarded : c'.guarded = c.guarded
  tsRecent : c'.wire.tsRecent = c.wire.tsRecent
  out : c'.wire.out = c.wire.out

theorem Silent.trans (h : Silent c c') (h' : Silent c' c'') : Silent c c'' :=
  ⟨h'.ctl.trans h.ctl, h'.guarded.trans h.guarded, h'.tsRecent.trans h.tsRecent, h'.out.trans h.out⟩

theorem silent_takePayload (h : c.OutOfWindow seg) : Silent c (c.takePayload seg) := by
  obtain ⟨b, has, he⟩ := takePayload_outside h
  rw [he]
  exact ⟨rfl, rfl, rfl, rfl⟩

/-- An answer of one ACK, at most. -/
structure Answered (c c' : TCPConn) : Prop where
  guarded : c'.guarded = c.guarded
  tsRecent : c'.wire.tsRecent = c.wire.tsRecent
  out : AtMostACK c c'

theorem Silent.answered (h : Silent c c') (h' : Answered c' c'') : Answered c c'' := by
  refine ⟨h'.guarded.trans h.guarded, h'.tsRecent.trans h.tsRecent, ?_⟩
  have hout := h'.out
  rw [AtMostACK, h.out] at hout
  exact hout

theorem Answered.refl (c : TCPConn) : Answered c c := ⟨rfl, rfl, .inl rfl⟩

theorem Answered.silent (h : Answered c c') (h' : Silent c' c'') : Answered c c'' := by
  refine ⟨h'.guarded.trans h.guarded, h'.tsRecent.trans h.tsRecent, ?_⟩
  rw [AtMostACK, h'.out]
  exact h.out

theorem answered_sendACK (c : TCPConn) : Answered c c.sendACK := by
  refine ⟨?_, rfl, .inr ⟨_, rfl, rfl, rfl⟩⟩
  rw [sendACK, TCPConn.guarded]
  dsimp only
  split <;> rfl

theorem answered_scheduleACK (c : TCPConn) (seg : Segment) : Answered c (c.scheduleACK seg) := by
  have hcount : Silent c c.countSegment := ⟨rfl, rfl, rfl, rfl⟩
  have hnow : Answered c c.countSegment.ackNow := by
    have hcancel : Silent c c.countSegment.cancelDelayedACK := ⟨rfl, rfl, rfl, rfl⟩
    exact (hcancel.answered (answered_sendACK _)).silent ⟨rfl, rfl, rfl, rfl⟩
  rw [scheduleACK]
  split_ifs
  · exact .refl c
  · exact hnow
  · exact hnow
  · exact (Answered.refl c).silent ⟨rfl, rfl, rfl, rfl⟩

theorem answered_ackPayload (c : TCPConn) (seg : Segment) : Answered c (c.ackPayload seg) := by
  rw [ackPayload]
  split
  · exact .refl c
  · exact answered_sendACK c

theorem answered_reACKFIN (c : TCPConn) (seg : Segment) : Answered c (c.reACKFIN seg) := by
  rw [reACKFIN]
  split
  · exact answered_sendACK c
  · exact .refl c

theorem sendACK_nxt (c : TCPConn) : c.sendACK.rx.rcv.nxt = c.rx.rcv.nxt :=
  congrArg (fun g => g.2.2.1) (answered_sendACK c).guarded

/-- A counted FIN moves `rcv.nxt`. -/
theorem guarded_ne_of_nxt (h : c'.rx.rcv.nxt = c.rx.rcv.nxt + 1) : c'.guarded ≠ c.guarded := by
  intro he
  have hn : c.rx.rcv.nxt + 1 = c.rx.rcv.nxt := h.symm.trans (congrArg (fun g => g.2.2.1) he)
  simp at hn

/-! ### The conditions -/

/-- The segment's timestamp is not taken, or is the one already there. -/
def TSInert (c : TCPConn) (seg : Segment) : Prop :=
  ∀ ts, seg.timestamp c.env = some ts →
    seqGreaterThan seg.seq c.wire.tsLastAckSent = true ∨ ts.val = c.wire.tsRecent

/-- The handler of the state does not take the segment's FIN: ESTABLISHED has deferred one at the
    same place before, FIN_WAIT_1 and FIN_WAIT_2 take any, and the others take none. -/
def FINInert (c : TCPConn) (seg : Segment) : Prop :=
  seg.flags.has tcpFlagFIN = true →
    match c.ctl.state with
    | .established => c.rx.rcv.finReceived = true ∧ c.rx.rcv.finSeq = seg.finSeq
    | .finWait1 | .finWait2 => False
    | _ => True

/-- The acknowledgment is passed over, and what the handler takes beside it is inert. -/
def AckQuiet (c : TCPConn) (seg : Segment) : Prop :=
  seg.flags.has tcpFlagACK = true →
    (takesACK c.ctl.state = true → c.Ignores seg.ack) ∧ c.AckInert seg

/-- The acknowledgment does not move the state machine: FIN_WAIT_1 and CLOSING wait for an empty
    queue, LAST_ACK for a number that compares as newer than `snd.una` besides. -/
def AckAwaited (c : TCPConn) (seg : Segment) : Prop :=
  seg.flags.has tcpFlagACK = true →
    match c.ctl.state with
    | .finWait1 | .closing => c.hasUnacked = true
    | .lastAck => c.hasUnacked = true ∧ seqGreaterThan seg.ack c.tx.snd.una = false
    | _ => True

/-- The segment that took `c` to `c'` was answered at most, exactly if `P` holds. -/
structure Hinges (P : Prop) (c c' : TCPConn) : Prop where
  answered : P → Answered c c'
  needed : c'.guarded = c.guarded → P

theorem OutOfWindow.of_rx (h : c.OutOfWindow seg) (hrx : c'.rx = c.rx) : c'.OutOfWindow seg := by
  have hiff : ∀ x, c'.Outside x ↔ c.Outside x := fun x => by rw [Outside, Outside, rcvWnd, rcvWnd, hrx]
  exact ⟨(hiff _).2 h.seq, fun i hi => (hiff _).2 (h.payload i hi), fun hf => (hiff _).2 (h.fin hf)⟩

theorem OutOfWindow.nxt_ne (h : c.OutOfWindow seg) (hf : seg.flags.has tcpFlagFIN = true) :
    c.rx.rcv.nxt ≠ seg.finSeq := by
  intro he
  have hfin := h.fin hf
  rw [← he] at hfin
  exact c.not_outside_nxt hfin

/-! ### The handlers -/

theorem hinges_established (hs : c.ctl.synced = true) (h : c.OutOfWindow seg) :
    Hinges (seg.flags.has tcpFlagFIN = true →
        c.rx.rcv.finReceived = true ∧ c.rx.rcv.finSeq = seg.finSeq)
      c ((c.takePayload seg).establishedFIN seg) := by
  have hdata := silent_takePayload h
  generalize c.takePayload seg = e at hdata
  have hg := hdata.guarded
  simp only [TCPConn.guarded, Prod.mk.injEq] at hg
  obtain ⟨-, -, hnxt, -, hrec, hseq⟩ := hg
  rw [establishedFIN, hdata.ctl, hnxt]
  by_cases hf : seg.flags.has tcpFlagFIN = true
  · rw [if_pos ⟨hf, hs⟩, if_neg (h.nxt_ne hf)]
    have hsched := answered_scheduleACK (e.deferFIN seg.finSeq) seg
    constructor
    · intro hP
      have hsame : Silent e (e.deferFIN seg.finSeq) := by
        refine ⟨rfl, ?_, rfl, rfl⟩
        simp only [TCPConn.guarded, deferFIN, hrec, hseq, hP hf]
      exact (hdata.trans hsame).answered hsched
    · intro hg _
      have hfin := hsched.guarded.symm.trans hg
      simp only [TCPConn.guarded, deferFIN, Prod.mk.injEq] at hfin
      exact ⟨hfin.2.2.2.2.1.symm, hfin.2.2.2.2.2.symm⟩
  · rw [if_neg (fun h => hf h.1)]
    exact ⟨fun _ => hdata.answered (answered_scheduleACK e seg), fun _ h => absurd h hf⟩

theorem hinges_finWait1 (hs : c.ctl.synced = true) (hst : c.ctl.state = .finWait1)
    (h : c.OutOfWindow seg) :
    Hinges ((seg.flags.has tcpFlagFIN = true → False) ∧
        (seg.flags.has tcpFlagACK = true → c.hasUnacked = true))
      c (if seg.flags.has tcpFlagFIN = true ∧ c.ctl.synced = true
        then (c.takePayload seg).finWait1FIN (c.ackOfFIN seg)
        else (c.takePayload seg).finWait1End seg (c.ackOfFIN seg)) := by
  have hdata := silent_takePayload h
  generalize c.takePayload seg = e at hdata
  have hnxt : e.rx.rcv.nxt = c.rx.rcv.nxt := congrArg (fun g => g.2.2.1) hdata.guarded
  by_cases hf : seg.flags.has tcpFlagFIN = true
  · rw [if_pos ⟨hf, hs⟩, finWait1FIN]
    refine ⟨fun hP => absurd hf hP.1, fun hg => absurd hg (guarded_ne_of_nxt ?_)⟩
    split
    · exact (sendACK_nxt e.countFIN).trans (congrArg (· + 1) hnxt)
    · exact (sendACK_nxt e.countFIN).trans (congrArg (· + 1) hnxt)
  · rw [if_neg (fun h => hf h.1), finWait1End]
    have hiff : c.ackOfFIN seg = true ↔ ¬(seg.flags.has tcpFlagACK = true → c.hasUnacked = true) := by
      simp [ackOfFIN, hs]
    split
    · rename_i hacked
      refine ⟨fun hP => absurd hP.2 (hiff.1 hacked), fun hg => ?_⟩
      have hstate : TCPState.finWait2 = c.ctl.state := congrArg Prod.fst hg
      rw [hst] at hstate
      cases hstate
    · rename_i hacked
      exact ⟨fun _ => hdata.answered (answered_ackPayload e seg),
        fun _ => ⟨hf, by_contra fun hn => hacked (hiff.2 hn)⟩⟩

theorem hinges_finWait2 (hs : c.ctl.synced = true) (h : c.OutOfWindow seg) :
    Hinges (seg.flags.has tcpFlagFIN = true → False)
      c (if seg.flags.has tcpFlagFIN = true ∧ c.ctl.synced = true
        then (c.finWait2Data seg).countFIN.sendACK.enterTimeWait
        else (c.finWait2Data seg).ackPayload seg) := by
  have hdata : Silent c (c.finWait2Data seg) := by
    rw [finWait2Data]
    split
    · exact ⟨rfl, rfl, rfl, rfl⟩
    · exact (silent_takePayload h).trans ⟨rfl, rfl, rfl, rfl⟩
  generalize c.finWait2Data seg = e at hdata
  have hnxt : e.rx.rcv.nxt = c.rx.rcv.nxt := congrArg (fun g => g.2.2.1) hdata.guarded
  by_cases hf : seg.flags.has tcpFlagFIN = true
  · rw [if_pos ⟨hf, hs⟩]
    refine ⟨fun hP => absurd hf hP, fun hg => absurd hg (guarded_ne_of_nxt ?_)⟩
    exact (sendACK_nxt e.countFIN).trans (congrArg (· + 1) hnxt)
  · rw [if_neg (fun h => hf h.1)]
    exact ⟨fun _ => hdata.answered (answered_ackPayload e seg), fun _ => hf⟩

theorem hinges_closing (hs : c.ctl.synced = true) (hst : c.ctl.state = .closing) :
    Hinges (seg.flags.has tcpFlagACK = true → c.hasUnacked = true)
      c (if seg.flags.has tcpFlagACK = true ∧ c.ctl.synced = true
        then (if !c.hasUnacked then c.enterTimeWait else c.reACKFIN seg)
        else c.reACKFIN seg) := by
  have hre := answered_reACKFIN c seg
  split_ifs with hacked hempty
  · refine ⟨fun hP => ?_, fun hg => ?_⟩
    · rw [hP hacked.1] at hempty
      cases hempty
    · have hstate : TCPState.timeWait = c.ctl.state := congrArg Prod.fst hg
      rw [hst] at hstate
      cases hstate
  · exact ⟨fun _ => hre, fun _ _ => by simpa using hempty⟩
  · exact ⟨fun _ => hre, fun _ h => absurd ⟨h, hs⟩ hacked⟩

theorem hinges_lastAck (hs : c.ctl.synced = true) (hst : c.ctl.state = .lastAck)
    (hd : c.ctl.DoneClosed) :
    Hinges (seg.flags.has tcpFlagACK = true →
        c.hasUnacked = true ∧ seqGreaterThan seg.ack c.tx.snd.una = false)
      c (c.handleLastAck seg) := by
  rw [handleLastAck]
  split_ifs with hack hclose
  · refine ⟨fun hP => ?_, fun hg => ?_⟩
    · rw [(hP hack.1).1, (hP hack.1).2] at hclose
      cases hclose
    · have hctl : ((c.handleACK seg.ack).closeDone).ctl.state = .closed := by
        rw [closeDone_ctl, (TxOnly.handleACK c seg.ack).ctl, Ctl.finish_state hd]
      have hstate : TCPState.closed = c.ctl.state := hctl.symm.trans (congrArg Prod.fst hg)
      rw [hst] at hstate
      cases hstate
  · refine ⟨fun _ => .refl c, fun _ _ => ?_⟩
    simpa using hclose
  · exact ⟨fun _ => .refl c, fun _ h => absurd ⟨h, hs⟩ hack⟩

theorem answered_handleTimeWait (c : TCPConn) (seg : Segment) : Answered c (c.handleTimeWait seg) := by
  rw [handleTimeWait]
  split
  · exact (answered_sendACK c).silent ⟨rfl, rfl, rfl, rfl⟩
  · exact .refl c

theorem Hinges.congr {P Q : Prop} (h : Hinges P c c') (hiff : P ↔ Q) : Hinges Q c c' :=
  ⟨fun hq => h.answered (hiff.2 hq), fun hg => hiff.1 (h.needed hg)⟩

theorem ackPart_of_quiet (h : c.AckQuiet seg) :
    ∃ t n, c.ackPart seg = { c with timers := t, ticks := n } := by
  by_cases hack : seg.flags.has tcpFlagACK = true
  · exact ackPart_of_inert (h hack).1 (h hack).2
  · exact ackPart_of_noACK (by simpa using hack)

/-- A handler that leaves the send side alone after its ACK part: the rest of it may be looked at as
    if there had been no acknowledgment. -/
theorem Hinges.of_ackPart {P : Prop} (hs : c.ctl.synced = true) (hr : RxOnly (c.ackPart seg) c')
    (hrest : ∀ t n, c.ackPart seg = { c with timers := t, ticks := n } →
      Hinges P { c with timers := t, ticks := n } c') : Hinges (P ∧ c.AckQuiet seg) c c' := by
  constructor
  · rintro ⟨hP, hq⟩
    obtain ⟨t, n, he⟩ := ackPart_of_quiet hq
    have hsilent : Silent c { c with timers := t, ticks := n } := ⟨rfl, rfl, rfl, rfl⟩
    exact hsilent.answered ((hrest t n he).answered hP)
  · intro hg
    have htx : (c.ackPart seg).tx = c.tx := hr.tx.symm.trans (congrArg (fun g => g.2.1) hg)
    have hq : c.AckQuiet seg := fun hack =>
      have hign := ignores_of_ackPart hs hack htx
      ⟨hign, (ackPart_tx_iff hs hack hign).1 htx⟩
    obtain ⟨t, n, he⟩ := ackPart_of_quiet hq
    exact ⟨(hrest t n he).needed hg, hq⟩

/-- What the switch on the state makes of a segment outside the window. -/
theorem hinges_dispatch (hs : c.ctl.synced = true) (hd : c.ctl.DoneClosed)
    (hsyn : c.ctl.state ≠ .synRcvd) (hclosed : c.ctl.state ≠ .closed) (h : c.OutOfWindow seg) :
    Hinges (c.FINInert seg ∧ c.AckQuiet seg ∧ c.AckAwaited seg) c (c.dispatch seg) := by
  have hout : ∀ t n, ({ c with timers := t, ticks := n } : TCPConn).OutOfWindow seg :=
    fun t n => h.of_rx rfl
  have hrx := dispatch_rxOnly c seg hsyn
  have hpart := TCPConn.ackPart.eq_def c seg
  have hdisp := TCPConn.dispatch.eq_def c seg
  cases hst : c.ctl.state <;> rw [hst] at hsyn hclosed hrx hpart hdisp <;> dsimp only at hpart hdisp
  case synRcvd => exact absurd rfl hsyn
  case closed => exact absurd rfl hclosed
  case established =>
    have hall : Hinges ((seg.flags.has tcpFlagFIN = true → c.rx.rcv.finReceived = true ∧
        c.rx.rcv.finSeq = seg.finSeq) ∧ c.AckQuiet seg) c (c.dispatch seg) := by
      refine .of_ackPart hs (hrx (by simp)) fun t n he => ?_
      rw [hdisp, handleEstablished, ← hpart, he]
      exact hinges_established (c := { c with timers := t, ticks := n }) hs (hout t n)
    exact hall.congr (by simp [FINInert, AckAwaited, hst])
  case finWait1 =>
    have hall : Hinges (((seg.flags.has tcpFlagFIN = true → False) ∧
        (seg.flags.has tcpFlagACK = true → c.hasUnacked = true)) ∧ c.AckQuiet seg) c
          (c.dispatch seg) := by
      refine .of_ackPart hs (hrx (by simp)) fun t n he => ?_
      rw [hdisp, handleFinWait1, ← hpart, he]
      exact hinges_finWait1 (c := { c with timers := t, ticks := n }) hs hst (hout t n)
    exact hall.congr (by simp only [FINInert, AckAwaited, hst]; tauto)
  case finWait2 =>
    have hall : Hinges ((seg.flags.has tcpFlagFIN = true → False) ∧ c.AckQuiet seg) c
        (c.dispatch seg) := by
      refine .of_ackPart hs (hrx (by simp)) fun t n he => ?_
      rw [hdisp, handleFinWait2, ← hpart, he]
      exact hinges_finWait2 (c := { c with timers := t, ticks := n }) hs (hout t n)
    exact hall.congr (by simp [FINInert, AckAwaited, hst])
  case closeWait =>
    have hall : Hinges (True ∧ c.AckQuiet seg) c (c.dispatch seg) := by
      refine .of_ackPart hs (hrx (by simp)) fun t n he => ?_
      rw [hdisp, ← hpart, he]
      exact ⟨fun _ => .refl _, fun _ => trivial⟩
    exact hall.congr (by simp [FINInert, AckAwaited, hst])
  case closing =>
    have hend : c.handleClosing seg = if seg.flags.has tcpFlagACK = true ∧ c.ctl.synced = true
        then (if !(c.ackPart seg).hasUnacked then (c.ackPart seg).enterTimeWait
          else (c.ackPart seg).reACKFIN seg)
        else (c.ackPart seg).reACKFIN seg := by
      rw [handleClosing, hpart]
      split_ifs <;> rfl
    have hall : Hinges ((seg.flags.has tcpFlagACK = true → c.hasUnacked = true) ∧ c.AckQuiet seg) c
        (c.dispatch seg) := by
      refine .of_ackPart hs (hrx (by simp)) fun t n he => ?_
      rw [hdisp, hend, he]
      exact hinges_closing (c := { c with timers := t, ticks := n }) hs hst
    exact hall.congr (by simp [FINInert, AckAwaited, hst, and_comm])
  case lastAck =>
    rw [hdisp]
    exact (hinges_lastAck hs hst hd).congr (by
      simp [FINInert, AckAwaited, AckQuiet, AckInert, takesACK, hst])
  case timeWait =>
    rw [hdisp]
    refine ⟨fun _ => answered_handleTimeWait c seg, fun _ => ?_⟩
    simp [FINInert, AckAwaited, AckQuiet, AckInert, takesACK, hst]

theorem updateTSRecent_iff (seg : Segment) (hs : c.ctl.synced = true) :
    (c.updateTSRecent seg).wire.tsRecent = c.wire.tsRecent ↔ c.TSInert seg := by
  rw [updateTSRecent, TSInert]
  cases hts : seg.timestamp c.env with
  | none => simp
  | some ts =>
    cases hnew : seqGreaterThan seg.seq c.wire.tsLastAckSent <;> simp [hs]

theorem hinges_tsRecent {v : UInt32} (h : Hinges (({ c with wire.tsRecent := v } : TCPConn).FINInert seg ∧
      ({ c with wire.tsRecent := v } : TCPConn).AckQuiet seg ∧
      ({ c with wire.tsRecent := v } : TCPConn).AckAwaited seg) { c with wire.tsRecent := v } c') :
    Hinges (c.FINInert seg ∧ c.AckQuiet seg ∧ c.AckAwaited seg) { c with wire.tsRecent := v } c' := by
  refine h.congr (and_congr Iff.rfl (and_congr ?_ Iff.rfl))
  exact imp_congr Iff.rfl (and_congr Iff.rfl ackInert_tsRecent)

end TCPConn

open TCPConn

/-- SAFE, with the condition it needs: a segment all of whose sequence numbers lie outside the
    receive window changes nothing and is answered with an ACK at most, exactly if the timestamp
    check drops it or its timestamp, its FIN and its acknowledgment are each inert. -/
theorem out_of_window_isolated_iff {s : Sys} (hr : Reach Sys.Init Sys.step (fun _ _ => True) s)
    (seg : Segment) (hsyn : s.conn.ctl.state ≠ .synRcvd) (hclosed : s.conn.ctl.state ≠ .closed)
    (hrst : seg.flags.has tcpFlagRST = false) (hsynf : seg.flags.has tcpFlagSYN = false)
    (hout : s.conn.OutOfWindow seg) :
    Untouched s.conn (s.conn.handleSegment seg) ↔ (s.conn.pawsDrop seg = false →
      s.conn.TSInert seg ∧ s.conn.FINInert seg ∧ s.conn.AckQuiet seg ∧ s.conn.AckAwaited seg) := by
  have hs : s.conn.ctl.synced = true :=
    (syncedInside_reach hr).resolve_right fun h => h.elim hsyn hclosed
  have hd := doneClosed_reach hr
  generalize s.conn = c at hsyn hclosed hout hs hd
  rw [handleSegment, hrst, hsynf]
  by_cases hpaws : c.pawsDrop seg = true
  · rw [if_pos hpaws, hpaws]
    exact ⟨(fun _ h => by cases h), fun _ => untouched_iff.2 ⟨rfl, rfl, .inl rfl⟩⟩
  · rw [if_neg hpaws, if_neg (by simp), if_neg (by simp)]
    have hts := updateTSRecent_iff seg hs
    obtain ⟨v, hv⟩ := updateTSRecent_eq c seg
    rw [hv] at hts ⊢
    have hmain := hinges_tsRecent (hinges_dispatch (c := { c with wire.tsRecent := v }) hs hd hsyn
      hclosed (hout.of_rx rfl))
    rw [untouched_iff]
    constructor
    · rintro ⟨hg, hrec, -⟩ -
      have hcond := hmain.needed hg
      exact ⟨hts.1 ((hmain.answered hcond).tsRecent.symm.trans hrec), hcond⟩
    · intro hcond
      obtain ⟨hrec, hrest⟩ := hcond (by simpa using hpaws)
      have hans := hmain.answered hrest
      exact ⟨hans.guarded, hans.tsRecent.trans (hts.2 hrec), hans.out⟩

instance {c : TCPConn} {x : UInt32} : Decidable (c.Outside x) := Nat.decLt _ _

/-- A byte beyond the window, with an acknowledgment that is passed over. -/
theorem out_of_window_isolated : ∃ s : Sys, s.conn.ctl.state = .established ∧
    Untouched s.conn (s.conn.handleSegment (Sys.sampleSegment tcpFlagACK 5000 999 1000 [7])) := by
  obtain ⟨s, hr, hplain, hack, hseq⟩ := Sys.exists_reach Sys.init_sample (fun _ _ => true)
    (fun s => Plain s.conn 1000 ∧ ¬ValidACK s.conn 999 ∧ s.conn.Outside 5000)
    [Sys.sampleACK] (by decide +kernel)
  refine ⟨s, hplain.state, (out_of_window_isolated_iff (hr.mono fun _ _ _ => trivial)
    (Sys.sampleSegment tcpFlagACK 5000 999 1000 [7]) (by rw [hplain.state]; simp)
    (by rw [hplain.state]; simp) (by decide) (by decide) ⟨hseq, ?_, fun h => ?_⟩).2
    fun _ => ⟨fun ts hts => ?_, fun h => ?_, fun _ => ⟨fun _ => ?_, hplain.ackInert⟩, fun _ => ?_⟩⟩
  · intro i hi
    obtain rfl : i = 0 := Nat.lt_one_iff.1 hi
    exact hseq
  · exact absurd h (by decide)
  · rw [Segment.timestamp_of_off _ hplain.noTS] at hts
    cases hts
  · exact absurd h (by decide)
  · exact ignores_of_not_validACK hack
  · rw [hplain.state]
    trivial

/-- A FIN far beyond the window ends FIN_WAIT_2: it is counted and the connection enters
    TIME_WAIT. -/
theorem out_of_window_fin : ∃ s : Sys, Reach Sys.Init Sys.step (fun _ _ => True) s ∧
    s.conn.ctl.state = .finWait2 ∧ s.conn.OutOfWindow (Sys.sampleSegment tcpFlagFIN 5000 0 0 []) ∧
    (s.conn.handleSegment (Sys.sampleSegment tcpFlagFIN 5000 0 0 [])).ctl.state = .timeWait ∧
    (s.conn.handleSegment (Sys.sampleSegment tcpFlagFIN 5000 0 0 [])).rx.rcv.nxt
      = s.conn.rx.rcv.nxt + 1 := by
  obtain ⟨s, hr, hst, hseq, hend⟩ := Sys.exists_reach Sys.init_sample (fun _ _ => true)
    (fun s => s.conn.ctl.state = .finWait2 ∧ s.conn.Outside 5000 ∧
      (s.conn.handleSegment (Sys.sampleSegment tcpFlagFIN 5000 0 0 [])).ctl.state = .timeWait ∧
      (s.conn.handleSegment (Sys.sampleSegment tcpFlagFIN 5000 0 0 [])).rx.rcv.nxt
        = s.conn.rx.rcv.nxt + 1)
    [Sys.sampleACK, .closeWrite, .closeCh, .inbound (Sys.sampleSegment tcpFlagACK 101 202 1000 [])]
    (by decide +kernel)
  exact ⟨s, hr.mono fun _ _ _ => trivial, hst, ⟨hseq, fun i hi => absurd hi (by simp [Sys.sampleSegment]),
    fun _ => hseq⟩, hend⟩

end Netstack.Tcp
