import Netstack.Tcp.Steps

/-! Two connections whose sequence numbers differ by constants, and the functions of the send side.

    A 32-bit sequence number says where a connection stands relative to others of the same stream;
    its absolute value is the choice of the initial sequence numbers. `c.shift d` is `c` with every
    number of ours moved by `d.snd` and every number of the peer's by `d.rcv`. Some fields keep a
    number after it has lost its meaning, such as the recovery point outside of a recovery: `Dead`
    gives the values they have in the other connection, and `Live` says when they are not arbitrary. -/

namespace Netstack.Tcp
open Netstack.Header Netstack.Serial Netstack.Loop

/-! ### Shifting -/

/-- What is added to our sequence numbers, and to the peer's. -/
structure Shift where
  snd : UInt32
  rcv : UInt32

/-- Until the handshake has ended there is no sender, and nothing of it to shift. -/
def Shift.sndBy (d : Shift) (synced : Bool) : UInt32 := bif synced then d.snd else 0

@[inherit_doc Shift.sndBy]
def Shift.rcvBy (d : Shift) (synced : Bool) : UInt32 := bif synced then d.rcv else 0

/-- `tsLastAckSent` is set by the handshake, if timestamps are on. -/
def Shift.tsBy (d : Shift) (synced tsEnabled : Bool) : UInt32 :=
  bif synced && tsEnabled then d.rcv else 0

def Segment.shift (d : Shift) (seg : Segment) : Segment :=
  { seg with seq := seg.seq + d.rcv, ack := seg.ack + d.snd }

/-- The acknowledgment number of a segment without ACK flag is not one. -/
def OutSegment.shift (d : Shift) (p : OutSegment) : OutSegment :=
  { p with
    seq := p.seq + d.snd
    ack := if p.flags.has tcpFlagACK then p.ack + d.rcv else p.ack }

def Event.shift (d : Shift) : Event → Event
  | .inbound seg => .inbound (seg.shift d)
  | e => e

def Env.shift (d : Shift) (env : Env) : Env :=
  { env with iss := env.iss + d.snd, irs := env.irs + d.rcv }

def UnackedSegment.shift (n : UInt32) (e : UnackedSegment) : UnackedSegment :=
  { e with seq := e.seq + n }

def OOOSegment.shift (n : UInt32) (e : OOOSegment) : OOOSegment := { e with seq := e.seq + n }

/-- The values of the fields that may have lost their meaning. Without SACK nothing reads a DSACK
    block. -/
structure Dead where
  recoveryPoint : UInt32
  finSeq : UInt32
  dsackBlock : SACKBlock

/-- What a new sender and a new receiver keep besides their numbers. -/
def Dead.new : Dead := ⟨0, 0, ⟨0, 0⟩⟩

def Sender.shift (n : UInt32) (x : Dead) (s : Sender) : Sender :=
  { s with
    nxt := s.nxt + n
    una := s.una + n
    unacked := s.unacked.map (UnackedSegment.shift n)
    recoveryPoint := x.recoveryPoint }

def Receiver.shift (n : UInt32) (x : Dead) (r : Receiver) : Receiver :=
  { r with
    nxt := r.nxt + n
    ooo := r.ooo.map (OOOSegment.shift n)
    finSeq := x.finSeq
    dsackBlock := x.dsackBlock }

theorem OutSegment.shift_of_ack {d : Shift} {p : OutSegment} (h : p.flags.has tcpFlagACK = true) :
    p.shift d = { p with seq := p.seq + d.snd, ack := p.ack + d.rcv } := by
  rw [OutSegment.shift, if_pos h]

theorem has_ACK : tcpFlagACK.has tcpFlagACK = true := by decide

theorem has_FIN_ACK : (tcpFlagFIN ||| tcpFlagACK).has tcpFlagACK = true := by decide

theorem has_RST : ¬tcpFlagRST.has tcpFlagACK = true := by decide

theorem has_SYN_ACK : (tcpFlagSYN ||| tcpFlagACK).has tcpFlagACK = true := by decide

variable {d : Shift} {b : Bool} {c c' c₁ c₁' : TCPConn}

namespace TCPConn

/-- The connection with its sequence numbers shifted. -/
def shift (d : Shift) (synced : Bool) (x : Dead) (c : TCPConn) : TCPConn :=
  { c with
    env := c.env.shift d
    tx := { c.tx with snd := c.tx.snd.shift (d.sndBy synced) x }
    rx := { c.rx with
      rcv := c.rx.rcv.shift (d.rcvBy synced) x
      finAt := c.rx.finAt.map (· + d.rcvBy synced) }
    wire := { c.wire with
      out := c.wire.out.map (OutSegment.shift d)
      tsLastAckSent := c.wire.tsLastAckSent + d.tsBy synced c.env.tsEnabled } }

/-- What decides which numbers are live. -/
def liveView (c : TCPConn) : Bool × Bool × Bool × UInt32 × Bool × UInt32 × List UInt32 :=
  (c.env.sackPermitted, c.ctl.synced, c.tx.snd.inRecovery, c.tx.snd.recoveryPoint,
    c.rx.rcv.finReceived, c.rx.rcv.finSeq, c.rx.finAt)

/-- The recovery point in a recovery and the position of a deferred FIN are shifted like the
    others. -/
structure Live (d : Shift) (synced : Bool) (c : TCPConn) (x : Dead) : Prop where
  recovery : c.tx.snd.inRecovery = true →
    x.recoveryPoint = c.tx.snd.recoveryPoint + d.sndBy synced
  fin : c.rx.rcv.finReceived = true → x.finSeq = c.rx.rcv.finSeq + d.rcvBy synced
  pre : synced = false → c.rx.finAt = []

/-- `c'` is `c`, a connection without SACK, with its live sequence numbers shifted. -/
structure Shifted (d : Shift) (synced : Bool) (c c' : TCPConn) : Prop where
  noSACK : c.env.sackPermitted = false
  synced_eq : c.ctl.synced = synced
  eq_shift : ∃ x : Dead, Live d synced c x ∧ c' = c.shift d synced x

/-- A change that leaves the live numbers alone. -/
theorem Shifted.of_eq (h : Shifted d b c c') (hview : c₁.liveView = c.liveView)
    (heq : ∀ x, c' = c.shift d b x → c₁' = c₁.shift d b x) : Shifted d b c₁ c₁' := by
  simp only [liveView, Prod.mk.injEq] at hview
  obtain ⟨hsack, hsync, hrec, hpoint, hfin, hseq, hat⟩ := hview
  obtain ⟨x, hx, hc⟩ := h.eq_shift
  refine ⟨hsack.trans h.noSACK, hsync.trans h.synced_eq, x, ⟨?_, ?_, ?_⟩, heq x hc⟩
  · rw [hrec, hpoint]
    exact hx.recovery
  · rw [hfin, hseq]
    exact hx.fin
  · rw [hat]
    exact hx.pre

/-- A change that does not look at the numbers. -/
theorem Shifted.map (h : Shifted d b c c') (f : TCPConn → TCPConn)
    (heq : ∀ x, f (c.shift d b x) = (f c).shift d b x) (hview : (f c).liveView = c.liveView) :
    Shifted d b (f c) (f c') := by
  refine h.of_eq hview ?_
  rintro x rfl
  exact heq x

section Reading

theorem Shifted.env (h : Shifted d b c c') : c'.env = c.env.shift d := by
  obtain ⟨x, -, rfl⟩ := h.eq_shift; rfl

theorem Shifted.ctl (h : Shifted d b c c') : c'.ctl = c.ctl := by
  obtain ⟨x, -, rfl⟩ := h.eq_shift; rfl

theorem Shifted.app (h : Shifted d b c c') : c'.app = c.app := by
  obtain ⟨x, -, rfl⟩ := h.eq_shift; rfl

theorem Shifted.timers (h : Shifted d b c c') : c'.timers = c.timers := by
  obtain ⟨x, -, rfl⟩ := h.eq_shift; rfl

theorem Shifted.wnd (h : Shifted d b c c') : c'.wnd = c.wnd := by
  obtain ⟨x, -, rfl⟩ := h.eq_shift; rfl

theorem Shifted.rcvWnd (h : Shifted d b c c') : c'.rcvWnd = c.rcvWnd := by
  obtain ⟨x, -, rfl⟩ := h.eq_shift; rfl

theorem Shifted.ticks (h : Shifted d b c c') : c'.ticks = c.ticks := by
  obtain ⟨x, -, rfl⟩ := h.eq_shift; rfl

theorem Shifted.lastWndZero (h : Shifted d b c c') : c'.wire.lastWndZero = c.wire.lastWndZero := by
  obtain ⟨x, -, rfl⟩ := h.eq_shift; rfl

theorem Shifted.now (h : Shifted d b c c') : c'.now = c.now := by
  obtain ⟨x, -, rfl⟩ := h.eq_shift; rfl

theorem Shifted.tsOption (h : Shifted d b c c') : c'.tsOption = c.tsOption := by
  obtain ⟨x, -, rfl⟩ := h.eq_shift; rfl

theorem Shifted.writeBuf (h : Shifted d b c c') : c'.tx.writeBuf = c.tx.writeBuf := by
  obtain ⟨x, -, rfl⟩ := h.eq_shift; rfl

theorem Shifted.nxt (h : Shifted d b c c') : c'.tx.snd.nxt = c.tx.snd.nxt + d.sndBy b := by
  obtain ⟨x, -, rfl⟩ := h.eq_shift; rfl

theorem Shifted.una (h : Shifted d b c c') : c'.tx.snd.una = c.tx.snd.una + d.sndBy b := by
  obtain ⟨x, -, rfl⟩ := h.eq_shift; rfl

theorem Shifted.mss (h : Shifted d b c c') : c'.tx.snd.mss = c.tx.snd.mss := by
  obtain ⟨x, -, rfl⟩ := h.eq_shift; rfl

theorem Shifted.sndWnd (h : Shifted d b c c') : c'.tx.snd.wnd = c.tx.snd.wnd := by
  obtain ⟨x, -, rfl⟩ := h.eq_shift; rfl

theorem Shifted.inRecovery (h : Shifted d b c c') : c'.tx.snd.inRecovery = c.tx.snd.inRecovery := by
  obtain ⟨x, -, rfl⟩ := h.eq_shift; rfl

theorem Shifted.dupACKCount (h : Shifted d b c c') :
    c'.tx.snd.dupACKCount = c.tx.snd.dupACKCount := by
  obtain ⟨x, -, rfl⟩ := h.eq_shift; rfl

theorem Shifted.probing (h : Shifted d b c c') : c'.tx.zeroWindowProbing = c.tx.zeroWindowProbing := by
  obtain ⟨x, -, rfl⟩ := h.eq_shift; rfl

theorem Shifted.rcvNxt (h : Shifted d b c c') : c'.rx.rcv.nxt = c.rx.rcv.nxt + d.rcvBy b := by
  obtain ⟨x, -, rfl⟩ := h.eq_shift; rfl

theorem Shifted.hasUnacked (h : Shifted d b c c') : c'.hasUnacked = c.hasUnacked := by
  obtain ⟨x, -, rfl⟩ := h.eq_shift
  simp only [TCPConn.hasUnacked, TCPConn.shift, Sender.shift, List.isEmpty_map]

end Reading

/-! ### Segments sent -/

/-- One packet with an acknowledgment more, and what its sender notes about it. -/
theorem Shifted.emit (h : Shifted d b c c') {p : OutSegment} (hp : p.flags.has tcpFlagACK = true)
    {t t' : UInt32} (ht : t' = t + d.tsBy b c.env.tsEnabled) {z z' : Bool} (hz : z' = z) (n : ℕ) :
    Shifted d b
      { c with
        wire := { c.wire with out := c.wire.out ++ [p], tsLastAckSent := t, lastWndZero := z }
        ticks := n }
      { c' with
        wire := { c'.wire with
          out := c'.wire.out ++ [{ p with seq := p.seq + d.snd, ack := p.ack + d.rcv }]
          tsLastAckSent := t'
          lastWndZero := z' }
        ticks := n } := by
  subst ht hz
  rw [← OutSegment.shift_of_ack hp]
  refine h.of_eq rfl ?_
  rintro x rfl
  simp only [TCPConn.shift, List.map_append, List.map_cons, List.map_nil]

/-- One packet more. -/
theorem Shifted.append (h : Shifted d b c c') {p p' : OutSegment} (hp : p' = p.shift d) {n n' : ℕ}
    (hn : n' = n) : Shifted d b { c with wire.out := c.wire.out ++ [p], ticks := n }
      { c' with wire.out := c'.wire.out ++ [p'], ticks := n' } := by
  subst hp hn
  refine h.of_eq rfl ?_
  rintro x rfl
  simp only [TCPConn.shift, List.map_append, List.map_cons, List.map_nil]

theorem Shifted.lastAckSent (h : Shifted d b c c') :
    c'.lastAckSent = c.lastAckSent + d.tsBy b c.env.tsEnabled := by
  obtain ⟨x, -, rfl⟩ := h.eq_shift
  have hs := h.synced_eq
  cases b <;> cases ht : c.env.tsEnabled <;>
    simp [TCPConn.lastAckSent, TCPConn.shift, Env.shift, Receiver.shift, Shift.tsBy, Shift.rcvBy, hs, ht]

theorem Shifted.ackNum (h : Shifted d b c c') : c'.ackNum = c.ackNum + d.rcv := by
  have hs := h.synced_eq
  rw [TCPConn.ackNum, TCPConn.ackNum, h.ctl, h.rcvNxt, h.env]
  cases b
  · rw [if_neg (by simp [hs]), if_neg (by simp [hs])]
    exact add_right_swap _ _ _
  · rw [if_pos hs, if_pos hs]; rfl

/-- The sequence number of a segment without data. -/
theorem Shifted.seqNum (h : Shifted d b c c') :
    (if c'.ctl.synced then c'.tx.snd.nxt else c'.env.iss + 1)
      = (if c.ctl.synced then c.tx.snd.nxt else c.env.iss + 1) + d.snd := by
  have hs := h.synced_eq
  rw [h.ctl, h.nxt, h.env]
  cases b
  · rw [if_neg (by simp [hs]), if_neg (by simp [hs])]
    exact add_right_swap _ _ _
  · rw [if_pos hs, if_pos hs]
    rfl

theorem Shifted.ackOptions (h : Shifted d b c c') : c'.ackOptions = c.ackOptions := by
  rw [TCPConn.ackOptions, TCPConn.ackOptions, h.env, h.ctl, h.tsOption, Env.shift, h.noSACK]
  rfl

theorem Shifted.ackWnd (h : Shifted d b c c') : c'.ackWnd = c.ackWnd := by
  rw [TCPConn.ackWnd, TCPConn.ackWnd, h.ctl, h.wnd, h.env]
  rfl

theorem Shifted.stampTicks (h : Shifted d b c c') : c'.stampTicks = c.stampTicks := by
  obtain ⟨x, -, rfl⟩ := h.eq_shift
  rfl

theorem Shifted.sendACK (h : Shifted d b c c') : Shifted d b c.sendACK c'.sendACK := by
  have hno : (c.env.sackPermitted && c.ctl.synced) = false := by rw [h.noSACK, Bool.false_and]
  have hno' : (c'.env.sackPermitted && c'.ctl.synced) = false := by
    rw [h.env, h.ctl]
    exact hno
  rw [TCPConn.sendACK, TCPConn.sendACK, hno, hno', h.seqNum, h.ackNum, h.ackWnd, h.ackOptions,
    h.lastAckSent, h.stampTicks, if_neg Bool.false_ne_true, if_neg Bool.false_ne_true]
  exact h.emit has_ACK rfl rfl _

theorem Shifted.sendSYNACK (h : Shifted d b c c') : Shifted d b c.sendSYNACK c'.sendSYNACK := by
  have hseq : c'.env.iss = c.env.iss + d.snd := by rw [h.env]; rfl
  have hack : c'.env.irs + 1 = c.env.irs + 1 + d.rcv := by
    rw [h.env]
    exact add_right_swap _ _ _
  rw [TCPConn.sendSYNACK, TCPConn.sendSYNACK, hseq, hack, h.tsOption, h.stampTicks]
  refine h.append ?_ rfl
  rw [OutSegment.shift_of_ack has_SYN_ACK, h.env]
  rfl

/-- Data goes out once the handshake has ended. -/
theorem Shifted.transmitData (h : Shifted d true c c') (data : List UInt8) (seq : UInt32)
    (gsoSize : Option UInt16) : Shifted d true (c.transmitData (c.dataSegment data seq gsoSize))
      (c'.transmitData (c'.dataSegment data (seq + d.snd) gsoSize)) := by
  have hp : c'.dataSegment data (seq + d.snd) gsoSize = { c.dataSegment data seq gsoSize with
      seq := seq + d.snd, ack := c.rx.rcv.nxt + d.rcv } := by
    rw [TCPConn.dataSegment, h.rcvNxt, h.wnd, h.tsOption]
    rfl
  rw [TCPConn.transmitData, TCPConn.transmitData, hp, h.lastAckSent, h.wnd, h.stampTicks]
  exact h.emit has_ACK rfl rfl _

theorem Shifted.sendData (h : Shifted d true c c') (data : List UInt8) (seq : UInt32) :
    Shifted d true (c.sendData data seq) (c'.sendData data (seq + d.snd)) :=
  h.transmitData data seq none

theorem Shifted.sendDataGSO (h : Shifted d true c c') (data : List UInt8) (seq : UInt32) :
    Shifted d true (c.sendDataGSO data seq) (c'.sendDataGSO data (seq + d.snd)) := by
  rw [TCPConn.sendDataGSO, TCPConn.sendDataGSO, h.mss]
  exact h.transmitData data seq _

theorem Shifted.sendFINSegment (h : Shifted d b c c') (seq : UInt32) :
    Shifted d b (c.sendFINSegment seq) (c'.sendFINSegment (seq + d.snd)) := by
  rw [TCPConn.sendFINSegment, TCPConn.sendFINSegment, h.ackNum, h.ackWnd, h.tsOption, h.lastAckSent,
    h.stampTicks]
  exact h.emit has_FIN_ACK rfl h.lastWndZero _

theorem Shifted.sendRSTSegment (h : Shifted d b c c') (seq : UInt32) :
    Shifted d b (c.sendRSTSegment seq) (c'.sendRSTSegment (seq + d.snd)) := by
  rw [TCPConn.sendRSTSegment, TCPConn.sendRSTSegment]
  refine h.append ?_ h.ticks
  rw [OutSegment.shift, if_neg has_RST]

theorem Shifted.sendKeepaliveProbe (h : Shifted d true c c') :
    Shifted d true c.sendKeepaliveProbe c'.sendKeepaliveProbe := by
  have hseq : c'.tx.snd.una - 1 = c.tx.snd.una - 1 + d.snd := by
    rw [h.una]
    exact add_sub_swap _ _ _
  rw [TCPConn.sendKeepaliveProbe, TCPConn.sendKeepaliveProbe, hseq, h.rcvNxt, h.wnd, h.tsOption,
    h.lastAckSent, h.stampTicks]
  exact h.emit has_ACK rfl h.lastWndZero _

/-! ### The queue -/

end TCPConn

/-- Comparisons do not see a shift. -/
theorem seqGreaterThan_add (a b n : UInt32) : seqGreaterThan (a + n) (b + n) = seqGreaterThan a b := by
  rw [seqGreaterThan, seqGreaterThan, add_sub_add]

@[inherit_doc seqGreaterThan_add]
theorem seqLessThan_add (a b n : UInt32) : seqLessThan (a + n) (b + n) = seqLessThan a b := by
  rw [seqLessThan, seqLessThan, add_sub_add]

theorem UnackedSegment.segEnd_shift (n : UInt32) (e : UnackedSegment) :
    (e.shift n).segEnd = e.segEnd + n := by
  have hfin : (e.shift n).fin = e.fin := rfl
  rw [UnackedSegment.segEnd, UnackedSegment.segEnd, hfin]
  split <;> exact add_right_swap _ _ _

theorem dropAcked_shift (ack n : UInt32) : ∀ l : List UnackedSegment,
    dropAcked (ack + n) (l.map (UnackedSegment.shift n)) = (dropAcked ack l).map (UnackedSegment.shift n)
  | [] => rfl
  | seg :: rest => by
      have hseq : (seg.shift n).seq = seg.seq + n := rfl
      rw [List.map_cons, dropAcked, dropAcked, seg.segEnd_shift, hseq, seqGreaterThan_add,
        seqLessThan_add, add_beq_add, dropAcked_shift ack n rest]
      split_ifs <;> rfl

theorem rttSample_shift (ack n : UInt32) : ∀ l : List UnackedSegment,
    rttSample (ack + n) (l.map (UnackedSegment.shift n)) = rttSample ack l
  | [] => rfl
  | seg :: rest => by
      have hseq : (seg.shift n).seq = seg.seq + n := rfl
      rw [List.map_cons, rttSample, rttSample, seg.segEnd_shift, hseq, seqGreaterThan_add,
        seqLessThan_add, add_beq_add, rttSample_shift ack n rest]
      rfl

theorem gsoSegments_shift (mss : ℕ) (sentAt : ℤ) (n : UInt32) : ∀ (fuel : ℕ) (seq : UInt32)
    (data : List UInt8), gsoSegments mss sentAt fuel (seq + n) data
      = (gsoSegments mss sentAt fuel seq data).map (UnackedSegment.shift n)
  | 0, _, _ => rfl
  | _ + 1, _, [] => rfl
  | fuel + 1, seq, b :: data => by
      rw [gsoSegments, gsoSegments, List.map_cons, add_right_swap, gsoSegments_shift mss sentAt n fuel]
      rfl

namespace TCPConn

theorem Shifted.recordSent (h : Shifted d true c c') (seq : UInt32) (data : List UInt8) :
    Shifted d true (c.recordSent seq data) (c'.recordSent (seq + d.snd) data) := by
  refine h.of_eq rfl ?_
  rintro x rfl
  simp only [TCPConn.recordSent, TCPConn.shift, Sender.shift, List.map_append, List.map_cons,
    List.map_nil]
  rfl

theorem Shifted.recordSentFIN (h : Shifted d true c c') (seq : UInt32) :
    Shifted d true (c.recordSentFIN seq) (c'.recordSentFIN (seq + d.snd)) := by
  refine h.of_eq rfl ?_
  rintro x rfl
  simp only [TCPConn.recordSentFIN, TCPConn.shift, Sender.shift, List.map_append, List.map_cons,
    List.map_nil]
  rfl

theorem Shifted.recordSentGSO (h : Shifted d true c c') (seq : UInt32) (data : List UInt8) (mss : ℤ) :
    Shifted d true (c.recordSentGSO seq data mss) (c'.recordSentGSO (seq + d.snd) data mss) := by
  refine h.of_eq rfl ?_
  rintro x rfl
  simp only [TCPConn.recordSentGSO, gsoSegments_shift, TCPConn.shift, Sender.shift, List.map_append]
  rfl

theorem Shifted.advanceNxt (h : Shifted d b c c') (n : ℕ) :
    Shifted d b (c.advanceNxt n) (c'.advanceNxt n) := by
  refine h.of_eq rfl ?_
  rintro x rfl
  simp only [TCPConn.advanceNxt, TCPConn.shift, Sender.shift, add_right_swap]

theorem Shifted.takeBytes (h : Shifted d b c c') (k : ℕ) :
    Shifted d b (c.takeBytes k) (c'.takeBytes k) := h.map (·.takeBytes k) (fun _ => rfl) rfl

theorem Shifted.raise (h : Shifted d b c c') (f : Fault) : Shifted d b (c.raise f) (c'.raise f) :=
  h.map (·.raise f) (fun _ => rfl) rfl

/-! ### Sending -/

/-- The two connections after a turn of a loop, which goes on in both or in none. -/
def ShiftedTurn (d : Shift) (r r' : TCPConn × Bool) : Prop := Shifted d true r.1 r'.1 ∧ r'.2 = r.2

theorem Shifted.sendNew (h : Shifted d true c c') (k : ℕ) :
    ShiftedTurn d (c.sendNew k) (c'.sendNew k) := by
  have hnxt : c'.tx.snd.nxt = c.tx.snd.nxt + d.snd := h.nxt
  rw [TCPConn.sendNew, TCPConn.sendNew, h.writeBuf, hnxt]
  split
  · exact ⟨h.takeBytes k, rfl⟩
  · exact ⟨(((h.takeBytes k).sendData _ _).recordSent _ _).advanceNxt _, rfl⟩

theorem Shifted.sendGSO (h : Shifted d true c c') (gsoSize : ℤ) :
    ShiftedTurn d (c.sendGSO gsoSize) (c'.sendGSO gsoSize) := by
  have hnxt : c'.tx.snd.nxt = c.tx.snd.nxt + d.snd := h.nxt
  rw [TCPConn.sendGSO, TCPConn.sendGSO, h.writeBuf, hnxt, h.mss]
  split_ifs
  · exact ⟨h.raise _, rfl⟩
  · exact ⟨h.takeBytes _, rfl⟩
  · exact ⟨(((h.takeBytes _).recordSentGSO _ _ _).sendDataGSO _ _).advanceNxt _, rfl⟩

theorem Shifted.sendSegment (h : Shifted d true c c') (segSize : ℤ) :
    ShiftedTurn d (c.sendSegment segSize) (c'.sendSegment segSize) := by
  rw [TCPConn.sendSegment, TCPConn.sendSegment]
  split
  · exact ⟨h.raise _, rfl⟩
  · exact h.sendNew _

theorem Shifted.sendBatch (h : Shifted d true c c') (windowLeft available : ℤ) :
    ShiftedTurn d (c.sendBatch windowLeft available) (c'.sendBatch windowLeft available) := by
  have hgso : c'.env.handler.gsoMaxSize = c.env.handler.gsoMaxSize := by rw [h.env]; rfl
  have hsize : ∀ g, c'.gsoBatchSize windowLeft available g = c.gsoBatchSize windowLeft available g := by
    intro g
    rw [gsoBatchSize, gsoBatchSize, gsoDataOffset, gsoDataOffset, h.env]
    rfl
  rw [TCPConn.sendBatch, TCPConn.sendBatch, hgso, h.mss]
  cases c.env.handler.gsoMaxSize with
  | none => exact h.sendSegment _
  | some g =>
    dsimp only
    rw [hsize g]
    split
    · exact h.sendGSO _
    · exact h.sendSegment _

theorem Shifted.effectiveWindow (h : Shifted d b c c') :
    c'.tx.snd.effectiveWindow = c.tx.snd.effectiveWindow := by
  obtain ⟨x, -, rfl⟩ := h.eq_shift
  simp only [Sender.effectiveWindow, TCPConn.shift, Sender.shift, add_sub_add]

theorem Shifted.sendPendingStep (h : Shifted d true c c') :
    ShiftedTurn d c.sendPendingStep c'.sendPendingStep := by
  have hsws : ∀ w a, c'.swsHold w a = c.swsHold w a := by
    obtain ⟨x, -, rfl⟩ := h.eq_shift
    exact fun _ _ => rfl
  have hnagle : ∀ a, c'.nagleHold a = c.nagleHold a := by
    intro a
    rw [nagleHold, nagleHold, h.app, h.hasUnacked, h.mss]
  rw [TCPConn.sendPendingStep, TCPConn.sendPendingStep, h.effectiveWindow, h.writeBuf, hsws, hnagle]
  split_ifs
  · exact ⟨h, rfl⟩
  · exact ⟨h, rfl⟩
  · exact ⟨h, rfl⟩
  · exact ⟨h, rfl⟩
  · exact h.sendBatch _ _

theorem Shifted.sendPending (h : Shifted d true c c') :
    Shifted d true c.sendPending c'.sendPending := by
  rw [TCPConn.sendPending, TCPConn.sendPending, h.writeBuf]
  exact loop_pair (Shifted d true) (fun h => h.sendPendingStep) (fun h => h.raise _) _ h

/-! ### Retransmission -/

theorem Shifted.setUnacked (h : Shifted d b c c') {l l' : List UnackedSegment}
    (hl : l' = l.map (UnackedSegment.shift (d.sndBy b))) :
    Shifted d b { c with tx.snd.unacked := l } { c' with tx.snd.unacked := l' } := by
  subst hl
  refine h.of_eq rfl ?_
  rintro x rfl
  rfl

theorem Shifted.unacked (h : Shifted d b c c') :
    c'.tx.snd.unacked = c.tx.snd.unacked.map (UnackedSegment.shift (d.sndBy b)) := by
  obtain ⟨x, -, rfl⟩ := h.eq_shift; rfl

theorem Shifted.resent (h : Shifted d b c c') (n : UInt32) (seg : UnackedSegment) :
    c'.resent (seg.shift n) = (c.resent seg).shift n := by
  rw [TCPConn.resent, TCPConn.resent, h.now]
  rfl

theorem Shifted.retransmit (h : Shifted d true c c') (seg : UnackedSegment) :
    Shifted d true (c.retransmit seg) (c'.retransmit (seg.shift d.snd)) := by
  have htick := h.map TCPConn.tick (fun _ => rfl) rfl
  have hfin : (seg.shift d.snd).fin = seg.fin := rfl
  rw [TCPConn.retransmit, TCPConn.retransmit, hfin]
  split
  · exact htick.sendFINSegment seg.seq
  · exact htick.sendData seg.data seg.seq

theorem Shifted.retransmitOldest (h : Shifted d true c c') :
    Shifted d true c.retransmitOldest c'.retransmitOldest := by
  rw [TCPConn.retransmitOldest, TCPConn.retransmitOldest, h.unacked]
  cases c.tx.snd.unacked with
  | nil => exact h
  | cons seg rest =>
    refine (h.setUnacked ?_).retransmit seg
    rw [List.map_cons]
    exact congrArg (· :: _) (h.resent d.snd seg)

theorem Shifted.retransmitFirstUnSACKed (h : Shifted d true c c') :
    Shifted d true c.retransmitFirstUnSACKed c'.retransmitFirstUnSACKed := by
  have hmark : UnackedSegment.sacked ∘ UnackedSegment.shift d.snd = UnackedSegment.sacked := rfl
  have hunacked : c'.tx.snd.unacked = c.tx.snd.unacked.map (UnackedSegment.shift d.snd) := h.unacked
  rw [TCPConn.retransmitFirstUnSACKed, TCPConn.retransmitFirstUnSACKed, hunacked, List.dropWhile_map,
    List.takeWhile_map, hmark]
  cases c.tx.snd.unacked.dropWhile UnackedSegment.sacked with
  | nil => exact h
  | cons seg rest =>
    refine (h.setUnacked ?_).retransmit seg
    rw [List.map_append, List.map_cons]
    exact congrArg (fun e => _ ++ e :: _) (h.resent d.snd seg)

theorem Shifted.setState (h : Shifted d b c c') (s : TCPState) :
    Shifted d b (c.setState s) (c'.setState s) := h.map (·.setState s) (fun _ => rfl) rfl

theorem Shifted.closeDone (h : Shifted d b c c') : Shifted d b c.closeDone c'.closeDone := by
  rw [TCPConn.closeDone, TCPConn.closeDone, h.ctl]
  split
  · exact h
  · exact (h.setState .closed).map (fun c => { c with ctl.done := true }) (fun _ => rfl) rfl

theorem Shifted.abort (h : Shifted d true c c') : Shifted d true c.abort c'.abort := by
  have hnxt : c'.tx.snd.nxt = c.tx.snd.nxt + d.snd := h.nxt
  rw [TCPConn.abort, TCPConn.abort, h.ctl, hnxt]
  split
  · exact (h.sendRSTSegment _).closeDone
  · exact h.closeDone

theorem Shifted.backOff (h : Shifted d true c c') : Shifted d true c.backOff c'.backOff := by
  have hmark : UnackedSegment.unmarked ∘ UnackedSegment.shift d.snd
      = UnackedSegment.shift d.snd ∘ UnackedSegment.unmarked := rfl
  obtain ⟨x, hx, rfl⟩ := h.eq_shift
  refine Shifted.retransmitOldest ⟨h.noSACK, h.synced_eq, x, ⟨by simp, hx.fin, hx.pre⟩, ?_⟩
  simp only [TCPConn.shift, Sender.shift, List.map_map]
  rfl

theorem Shifted.countRetry (h : Shifted d b c c') : Shifted d b c.countRetry c'.countRetry :=
  h.map TCPConn.countRetry (fun _ => rfl) rfl

theorem Shifted.handleRTO (h : Shifted d true c c') : Shifted d true c.handleRTO c'.handleRTO := by
  have hempty : c'.tx.snd.unacked.isEmpty = c.tx.snd.unacked.isEmpty := by
    rw [h.unacked, List.isEmpty_map]
  have hretries : c'.tx.snd.retries + 1 > c'.env.cfg.maxRetries ↔
      c.tx.snd.retries + 1 > c.env.cfg.maxRetries := by
    obtain ⟨x, -, rfl⟩ := h.eq_shift
    rfl
  rw [TCPConn.handleRTO, TCPConn.handleRTO, hempty, h.probing]
  simp only [hretries]
  split_ifs
  · exact h
  · exact h.backOff
  · exact h.countRetry.abort
  · exact h.countRetry.backOff

/-! ### Acknowledgments -/

theorem Shifted.limitedTransmit (h : Shifted d true c c') :
    Shifted d true c.limitedTransmit c'.limitedTransmit := by
  have hflight : c'.tx.snd.nxt - c'.tx.snd.una = c.tx.snd.nxt - c.tx.snd.una := by
    rw [h.nxt, h.una, add_sub_add]
  simp only [TCPConn.limitedTransmit, h.writeBuf, hflight, h.sndWnd, h.mss]
  split_ifs
  · exact h
  · exact h
  · exact h
  · exact (h.sendSegment _).1

theorem Shifted.countDup (h : Shifted d b c c') : Shifted d b c.countDup c'.countDup :=
  h.map TCPConn.countDup (fun _ => rfl) rfl

theorem Shifted.inflate (h : Shifted d b c c') : Shifted d b c.inflate c'.inflate :=
  h.map TCPConn.inflate (fun _ => rfl) rfl

/-- The recovery point comes to life. -/
theorem Shifted.enterRecovery (h : Shifted d b c c') :
    Shifted d b c.enterRecovery c'.enterRecovery := by
  obtain ⟨x, hx, rfl⟩ := h.eq_shift
  exact ⟨h.noSACK, h.synced_eq, { x with recoveryPoint := c.tx.snd.nxt + d.sndBy b },
    ⟨fun _ => rfl, hx.fin, hx.pre⟩, rfl⟩

theorem Shifted.handleDupACK (h : Shifted d true c c') :
    Shifted d true c.handleDupACK c'.handleDupACK := by
  rw [TCPConn.handleDupACK, TCPConn.handleDupACK, h.inRecovery, h.dupACKCount]
  split_ifs
  · exact h.countDup.inflate.sendPending
  · exact h.countDup.limitedTransmit
  · exact h.countDup.enterRecovery.retransmitFirstUnSACKed
  · exact h.countDup

theorem Shifted.growCwnd (h : Shifted d b c c') (acked : UInt32) :
    Shifted d b (c.growCwnd acked) (c'.growCwnd acked) := by
  have hcwnd : c'.tx.snd.cwnd = c.tx.snd.cwnd := by
    obtain ⟨x, -, rfl⟩ := h.eq_shift; rfl
  have hthresh : c'.tx.snd.ssthresh = c.tx.snd.ssthresh := by
    obtain ⟨x, -, rfl⟩ := h.eq_shift; rfl
  simp only [TCPConn.growCwnd, hcwnd, hthresh, h.mss]
  split_ifs
  · exact h.of_eq rfl fun x hx => by rw [hx]; rfl
  · exact h.raise _
  · exact h.of_eq rfl fun x hx => by rw [hx]; rfl
  · exact h.of_eq rfl fun x hx => by rw [hx]; rfl

/-- The recovery point is compared only in a recovery. -/
theorem Shifted.recoveryACK (h : Shifted d true c c') (hrec : c.tx.snd.inRecovery = true)
    (ack : UInt32) : Shifted d true (c.recoveryACK ack) (c'.recoveryACK (ack + d.snd)) := by
  obtain ⟨x, hx, hc⟩ := h.eq_shift
  have hpoint : c'.tx.snd.recoveryPoint = c.tx.snd.recoveryPoint + d.snd := by
    rw [hc]
    exact hx.recovery hrec
  rw [TCPConn.recoveryACK, TCPConn.recoveryACK, hpoint, seqLessThan_add]
  split
  · exact h.retransmitFirstUnSACKed.map
      (fun c => { c with tx.snd := { c.tx.snd with cwnd := c.tx.snd.ssthresh, dupACKCount := 0 } })
      (fun _ => rfl) rfl
  · subst hc
    exact ⟨h.noSACK, h.synced_eq, x, ⟨by simp, hx.fin, hx.pre⟩, rfl⟩

theorem Shifted.updateCwnd (h : Shifted d true c c') (ack acked : UInt32) :
    Shifted d true (c.updateCwnd ack acked) (c'.updateCwnd (ack + d.snd) acked) := by
  rw [TCPConn.updateCwnd, TCPConn.updateCwnd, h.inRecovery]
  split
  · rename_i hrec
    exact h.recoveryACK hrec ack
  · exact h.growCwnd acked

theorem Shifted.advanceUna (h : Shifted d true c c') (ack : UInt32) :
    Shifted d true (c.advanceUna ack) (c'.advanceUna (ack + d.snd)) :=
  h.of_eq rfl fun x hx => by rw [hx]; rfl

theorem Shifted.removeAcked (h : Shifted d true c c') (ack : UInt32) :
    Shifted d true (c.removeAcked ack) (c'.removeAcked (ack + d.snd)) := by
  have hts : c'.env.tsEnabled = c.env.tsEnabled := by rw [h.env]; rfl
  have hunacked : c'.tx.snd.unacked = c.tx.snd.unacked.map (UnackedSegment.shift d.snd) := h.unacked
  simp only [TCPConn.removeAcked, hts, hunacked, rttSample_shift, dropAcked_shift]
  cases if c.env.tsEnabled = true then none else rttSample ack c.tx.snd.unacked with
  | none =>
    refine h.of_eq rfl ?_
    rintro x rfl
    rfl
  | some sentAt =>
    refine h.of_eq rfl ?_
    rintro x rfl
    rfl

theorem Shifted.handleNewACK (h : Shifted d true c c') (ack : UInt32) :
    Shifted d true (c.handleNewACK ack) (c'.handleNewACK (ack + d.snd)) := by
  have hacked : ack + d.snd - c'.tx.snd.una = ack - c.tx.snd.una := by
    rw [h.una]
    exact add_sub_add _ _ _
  rw [TCPConn.handleNewACK, TCPConn.handleNewACK, hacked]
  exact (((h.advanceUna ack).removeAcked ack).updateCwnd ack _).sendPending

theorem Shifted.handleACK (h : Shifted d true c c') (ack : UInt32) :
    Shifted d true (c.handleACK ack) (c'.handleACK (ack + d.snd)) := by
  have huna : c'.tx.snd.una = c.tx.snd.una + d.snd := h.una
  have hnxt : c'.tx.snd.nxt = c.tx.snd.nxt + d.snd := h.nxt
  rw [TCPConn.handleACK, TCPConn.handleACK, huna, hnxt, seqGreaterThan_add, seqGreaterThan_add]
  simp only [UInt32.add_left_inj]
  split_ifs
  · exact h.handleDupACK
  · exact h
  · exact h.handleNewACK ack

/-! ### The zero window and the FIN -/

theorem Shifted.cancelZeroWindowProbe (h : Shifted d b c c') :
    Shifted d b c.cancelZeroWindowProbe c'.cancelZeroWindowProbe := by
  rw [TCPConn.cancelZeroWindowProbe, TCPConn.cancelZeroWindowProbe, h.probing]
  split
  · exact h.map
      (fun c => { c with tx.zeroWindowProbing := false, tx.zeroWindowTimer := Timer.stopped })
      (fun _ => rfl) rfl
  · exact h

theorem Shifted.checkZeroWindow (h : Shifted d b c c') :
    Shifted d b c.checkZeroWindow c'.checkZeroWindow := by
  rw [TCPConn.checkZeroWindow, TCPConn.checkZeroWindow, h.ctl, h.probing, h.sndWnd, h.writeBuf]
  split_ifs
  · exact h
  · exact h.of_eq rfl fun x hx => by rw [hx]; rfl
  · exact h

theorem Shifted.sendZeroWindowProbe (h : Shifted d true c c') :
    Shifted d true c.sendZeroWindowProbe c'.sendZeroWindowProbe := by
  obtain ⟨hsent, hflag⟩ := h.sendNew 1
  simp only [TCPConn.sendZeroWindowProbe, h.ctl, hflag]
  split_ifs
  · exact h
  · exact hsent
  · exact hsent.cancelZeroWindowProbe

theorem Shifted.sendFIN (h : Shifted d true c c') : Shifted d true c.sendFIN c'.sendFIN := by
  have hnxt : c'.tx.snd.nxt = c.tx.snd.nxt + d.snd := h.nxt
  rw [TCPConn.sendFIN, TCPConn.sendFIN, hnxt, add_right_swap _ 1]
  refine ((h.sendFINSegment c.tx.snd.nxt).recordSentFIN c.tx.snd.nxt).of_eq rfl ?_
  intro x hx
  rw [hx]
  rfl

end TCPConn
end Netstack.Tcp
