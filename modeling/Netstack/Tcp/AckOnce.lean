import Netstack.Tcp.Pacing

/-! What an inbound segment does to the send side.

    Whichever handler the state machine picks, it takes the acknowledgment number of the segment to
    `handleACK` once, if at all. What it does before that call sends nothing new, and what it does
    before and after leaves `snd.una` and the congestion state alone and takes nothing out of the
    queue. -/

namespace Netstack.Tcp
open Netstack.Header

namespace TCPConn

variable {c c' c'' : TCPConn} {ack : UInt32}

/-- What acknowledgments and timeouts move: `snd.una` and the congestion state. -/
def ackState (c : TCPConn) : UInt32 × ℤ × UInt32 × UInt32 × ℤ × Bool × UInt32 :=
  (c.tx.snd.una, c.tx.snd.mss, c.tx.snd.cwnd, c.tx.snd.ssthresh, c.tx.snd.dupACKCount,
    c.tx.snd.inRecovery, c.tx.snd.recoveryPoint)

theorem ackState_of_kept (h : c'.kept = c.kept) : c'.ackState = c.ackState :=
  congrArg (fun k => (k.1.una, k.1.mss, k.1.cwnd, k.1.ssthresh, k.1.dupACKCount, k.1.inRecovery,
    k.1.recoveryPoint)) h

/-- The queue only grows, but for its marks, and no acknowledgment is taken. -/
structure Unmoved (c c' : TCPConn) : Prop where
  state : c'.ackState = c.ackState
  grows : Grows c c'

theorem Unmoved.una (h : Unmoved c c') : c'.tx.snd.una = c.tx.snd.una := congrArg Prod.fst h.state

theorem Unmoved.trans (h : Unmoved c c') (h' : Unmoved c' c'') : Unmoved c c'' :=
  ⟨h'.state.trans h.state, h.grows.trans h'.grows⟩

theorem Unmoved.sendPending (c : TCPConn) : Unmoved c c.sendPending :=
  ⟨ackState_of_kept (sendPending_kept c), .sendPending c⟩

/-- Nothing new is sent, and no acknowledgment is taken. -/
structure Beside (c c' : TCPConn) : Prop where
  state : c'.ackState = c.ackState
  resends : Resends c c'

namespace Beside

theorem unmoved (h : Beside c c') : Unmoved c c' := ⟨h.state, .of_resends h.resends⟩

theorem refl (c : TCPConn) : Beside c c := ⟨rfl, .refl c⟩

theorem trans (h : Beside c c') (h' : Beside c' c'') : Beside c c'' :=
  ⟨h'.state.trans h.state, h.resends.trans h'.resends⟩

theorem of_rxOnly (h : RxOnly c c') : Beside c c' := ⟨by rw [ackState, ackState, h.tx], .of_rxOnly h⟩

theorem setWnd (c : TCPConn) (seg : Segment) : Beside c (c.setWnd seg) := ⟨rfl, .setWnd c seg⟩

theorem noteMaxWnd (c : TCPConn) : Beside c c.noteMaxWnd := ⟨rfl, .noteMaxWnd c⟩

theorem measureRTTM (c : TCPConn) (seg : Segment) : Beside c (c.measureRTTM seg) := by
  refine ⟨?_, .measureRTTM c seg⟩
  obtain ⟨s, n, ⟨_, _, _, rfl⟩, he⟩ := measureRTTM_eq c seg
  rw [he]
  rfl

theorem handleSACK (c : TCPConn) (seg : Segment) : Beside c (c.handleSACK seg) := by
  refine ⟨?_, .handleSACK c seg⟩
  rw [TCPConn.handleSACK]
  dsimp only
  split
  · obtain ⟨l, seen, he⟩ := processSACKBlocks_eq c.tx.snd
      (parseSegmentOptions seg.options).sackBlocks seg.ack
    rw [he]
    exact (ackState_of_kept (sackLossDetection_kept _)).trans rfl
  · rfl

theorem cancelZeroWindowProbe (c : TCPConn) : Beside c c.cancelZeroWindowProbe := by
  refine ⟨?_, .cancelZeroWindowProbe c⟩
  rw [TCPConn.cancelZeroWindowProbe]
  split <;> rfl

theorem checkZeroWindow (c : TCPConn) : Beside c c.checkZeroWindow := by
  refine ⟨?_, .checkZeroWindow c⟩
  rw [TCPConn.checkZeroWindow]
  split_ifs <;> rfl

end Beside

/-- Between `c` and `c'` there is one call of `handleACK`, at most. -/
def AcksOnce (ack : UInt32) (c c' : TCPConn) : Prop :=
  ∃ c₁ c₂, Beside c c₁ ∧ (c₂ = c₁ ∨ c₂ = c₁.handleACK ack) ∧ Unmoved c₂ c'

namespace AcksOnce

theorem of_beside (h : Beside c c') : AcksOnce ack c c' := ⟨c', c', h, .inl rfl, (Beside.refl c').unmoved⟩

theorem handleACK (h : Beside c c') : AcksOnce ack c (c'.handleACK ack) :=
  ⟨c', _, h, .inr rfl, (Beside.refl _).unmoved⟩

theorem before (h : Beside c c') (h' : AcksOnce ack c' c'') : AcksOnce ack c c'' := by
  obtain ⟨c₁, c₂, h₁, hack, h₂⟩ := h'
  exact ⟨c₁, c₂, h.trans h₁, hack, h₂⟩

theorem unmoved (h : AcksOnce ack c c') (h' : Unmoved c' c'') : AcksOnce ack c c'' := by
  obtain ⟨c₁, c₂, h₁, hack, h₂⟩ := h
  exact ⟨c₁, c₂, h₁, hack, h₂.trans h'⟩

theorem beside (h : AcksOnce ack c c') (h' : Beside c' c'') : AcksOnce ack c c'' :=
  h.unmoved h'.unmoved

theorem rxOnly (h : AcksOnce ack c c') (h' : RxOnly c' c'') : AcksOnce ack c c'' :=
  h.beside (.of_rxOnly h')

theorem establishedACK (c : TCPConn) (seg : Segment) : AcksOnce seg.ack c (c.establishedACK seg) := by
  rw [TCPConn.establishedACK]
  split
  · have hproc : AcksOnce seg.ack c (c.processACK seg) :=
      handleACK ((((Beside.setWnd c seg).trans (.noteMaxWnd _)).trans (.measureRTTM _ seg)).trans
        (.handleSACK _ seg))
    have hupdate : AcksOnce seg.ack c ((c.processACK seg).sendOnUpdate seg c.tx.snd.wnd) := by
      rw [sendOnUpdate]
      split
      · exact hproc.unmoved (.sendPending _)
      · exact hproc
    rw [manageZeroWindow]
    split_ifs
    · exact (hupdate.beside (.cancelZeroWindowProbe _)).unmoved (.sendPending _)
    · exact hupdate.beside (.checkZeroWindow _)
    · exact hupdate
  · exact of_beside (.refl c)

theorem acknowledges {seg : Segment} (h : Acknowledges seg c c') : AcksOnce seg.ack c c' := by
  cases h with
  | none => exact of_beside (.refl c)
  | established => exact before (.of_rxOnly (.resetKeepalive c)) (establishedACK c.resetKeepalive seg)
  | finWait1 =>
    rw [finWait1ACK]
    split
    · exact handleACK ((Beside.setWnd c seg).trans (.measureRTTM _ seg))
    · exact of_beside (.refl c)
  | finWait2 =>
    rw [finWait2ACK]
    split
    · exact of_beside (.setWnd c seg)
    · exact of_beside (.refl c)
  | closeWait =>
    rw [handleCloseWait]
    split
    · exact handleACK (((Beside.setWnd c seg).trans (.noteMaxWnd _)).trans (.measureRTTM _ seg))
    · exact of_beside (.refl c)
  | closing => exact handleACK (.measureRTTM c seg)
  | lastAck => exact handleACK (.refl c)

/-- After the handshake a segment takes its acknowledgment number to `handleACK` once, if at all. -/
theorem handleSegment (c : TCPConn) (seg : Segment) (hs : c.ctl.state ≠ .synRcvd) :
    AcksOnce seg.ack c (c.handleSegment seg) := by
  rcases Handled.handleSegment c seg hs with h | ⟨c₁, hack, hfin⟩
  · exact of_beside (.of_rxOnly h.rxOnly)
  · exact (before (.of_rxOnly (.updateTSRecent c seg)) (acknowledges hack)).rxOnly hfin.rxOnly

end AcksOnce

end TCPConn
end Netstack.Tcp
