import Netstack.Tcp.Frame

/-! What the handlers of the state machine have in common.

    They all keep one order: first the acknowledgment, which concerns the send side alone, then the
    payload, which goes to `handleData`, then an answer, which may count a FIN, close `readBuf` and move
    the state machine. What each of the three keeps is kept by every handler. -/

namespace Netstack.Tcp
open Netstack.Header

namespace TCPConn

/-- What a handler does with the acknowledgment. -/
inductive Acknowledges (seg : Segment) (c : TCPConn) : TCPConn → Prop
  | none : Acknowledges seg c c
  | established : Acknowledges seg c (c.resetKeepalive.establishedACK seg)
  | finWait1 : Acknowledges seg c (c.finWait1ACK seg)
  | finWait2 : Acknowledges seg c (c.finWait2ACK seg)
  | closeWait : Acknowledges seg c (c.handleCloseWait seg)
  | closing : Acknowledges seg c (c.closingACK seg)
  | lastAck : Acknowledges seg c (c.handleACK seg.ack)

/-- What a handler ends with. -/
inductive Concludes (c : TCPConn) : TCPConn → Prop
  | refl : Concludes c c
  | sendACK {c' : TCPConn} : Concludes c c' → Concludes c c'.sendACK
  | countFIN {c' : TCPConn} : Concludes c c' → Concludes c c'.countFIN
  | deferFIN {c' : TCPConn} {finSeq : UInt32} : Concludes c c' → Concludes c (c'.deferFIN finSeq)
  | closeReadBuf {c' : TCPConn} : Concludes c c' → Concludes c c'.closeReadBuf
  | timers {c' : TCPConn} {t : Timers} {n : ℕ} : Concludes c c' →
      Concludes c { c' with timers := t, ticks := n }
  | setState {c' : TCPConn} {st : TCPState} : Concludes c c' → st.early = false →
      Concludes c (c'.setState st)
  | closeDone {c' : TCPConn} : Concludes c c' → Concludes c c'.closeDone

/-- What a handler does after the acknowledgment. -/
def Finishes (seg : Segment) (c c' : TCPConn) : Prop :=
  ∃ c₁, (c₁ = c ∨ c.ctl.synced = true ∧ c₁ = c.handleData seg.seq seg.payload) ∧ Concludes c₁ c'

/-- What a segment sets off once the handshake is over. -/
def Handled (seg : Segment) (c c' : TCPConn) : Prop :=
  ∃ c₁, Acknowledges seg c c₁ ∧ Finishes seg c₁ c'

variable {c c' c'' : TCPConn} {seg : Segment}

theorem Acknowledges.txOnly (h : Acknowledges seg c c') : TxOnly c c' := by
  cases h with
  | none => exact .refl c
  | established => exact (TxOnly.resetKeepalive c).trans (.establishedACK _ seg)
  | finWait1 => exact .finWait1ACK c seg
  | finWait2 => exact .finWait2ACK c seg
  | closeWait => exact .handleCloseWait c seg
  | closing => exact .closingACK c seg
  | lastAck => exact .handleACK c seg.ack

namespace Concludes

theorem rxOnly (h : Concludes c c') : RxOnly c c' := by
  induction h with
  | refl => exact .refl c
  | sendACK _ ih => exact ih.trans (.sendACK _)
  | countFIN _ ih => exact ih.trans (.countFIN _)
  | deferFIN _ ih => exact ih.trans (.deferFIN _ _)
  | closeReadBuf _ ih => exact ih.trans (.closeReadBuf _)
  | timers _ ih => exact ih.trans (.of_silent rfl rfl rfl rfl rfl rfl)
  | setState _ hst ih => exact ih.trans (.setState _ hst)
  | closeDone _ ih => exact ih.trans (.closeDone _)

theorem processFIN (h : Concludes c c') : Concludes c c'.processFIN :=
  h.countFIN.timers.sendACK.closeReadBuf.setState rfl

theorem enterTimeWait (h : Concludes c c') : Concludes c c'.enterTimeWait :=
  (h.setState rfl).closeReadBuf.timers

theorem scheduleACK (h : Concludes c c') (seg : Segment) : Concludes c (c'.scheduleACK seg) := by
  rw [TCPConn.scheduleACK]
  split_ifs
  · exact h
  · exact h.timers.sendACK.timers
  · exact h.timers.sendACK.timers
  · exact h.timers

theorem establishedFIN (h : Concludes c c') (seg : Segment) : Concludes c (c'.establishedFIN seg) := by
  rw [TCPConn.establishedFIN]
  split_ifs
  · exact h.processFIN
  · exact h.deferFIN.scheduleACK seg
  · exact h.scheduleACK seg

theorem finWait1FIN (h : Concludes c c') (b : Bool) : Concludes c (c'.finWait1FIN b) := by
  rw [TCPConn.finWait1FIN]
  split
  · exact h.countFIN.sendACK.closeReadBuf.enterTimeWait
  · exact h.countFIN.sendACK.closeReadBuf.setState rfl

theorem ackPayload (h : Concludes c c') (seg : Segment) : Concludes c (c'.ackPayload seg) := by
  rw [TCPConn.ackPayload]
  split
  · exact h
  · exact h.sendACK

theorem finWait1End (h : Concludes c c') (seg : Segment) (b : Bool) :
    Concludes c (c'.finWait1End seg b) := by
  rw [TCPConn.finWait1End]
  split
  · exact ((h.ackPayload seg).setState rfl).timers
  · exact h.ackPayload seg

theorem reACKFIN (h : Concludes c c') (seg : Segment) : Concludes c (c'.reACKFIN seg) := by
  rw [TCPConn.reACKFIN]
  split
  · exact h.sendACK
  · exact h

theorem handleTimeWait (c : TCPConn) (seg : Segment) : Concludes c (c.handleTimeWait seg) := by
  rw [TCPConn.handleTimeWait]
  split
  · exact refl.sendACK.timers
  · exact refl

theorem handleRSTSegment (c : TCPConn) (seg : Segment) : Concludes c (c.handleRSTSegment seg) := by
  rw [TCPConn.handleRSTSegment]
  split_ifs
  · exact refl
  · exact (refl.setState rfl).closeDone
  · exact refl.sendACK
  · exact refl

end Concludes

namespace Finishes

theorem of_concludes (h : Concludes c c') : Finishes seg c c' := ⟨c, .inl rfl, h⟩

theorem takePayload (h : Concludes (c.takePayload seg) c') : Finishes seg c c' := by
  refine ⟨c.takePayload seg, ?_, h⟩
  rw [TCPConn.takePayload]
  split
  · rename_i hs
    exact .inr ⟨hs, rfl⟩
  · exact .inl rfl

theorem rxOnly (h : Finishes seg c c') : RxOnly c c' := by
  obtain ⟨c₁, rfl | ⟨-, rfl⟩, hc⟩ := h
  · exact hc.rxOnly
  · exact (RxOnly.handleData c _ _).trans hc.rxOnly

theorem handleFinWait1 (c : TCPConn) (seg : Segment) :
    Finishes seg (c.finWait1ACK seg) (c.handleFinWait1 seg) := by
  rw [TCPConn.handleFinWait1]
  split
  · exact takePayload (Concludes.refl.finWait1FIN _)
  · exact takePayload (Concludes.refl.finWait1End seg _)

theorem handleFinWait2 (c : TCPConn) (seg : Segment) :
    Finishes seg (c.finWait2ACK seg) (c.handleFinWait2 seg) := by
  rw [TCPConn.handleFinWait2, finWait2Data]
  split_ifs
  · exact of_concludes Concludes.refl.countFIN.sendACK.enterTimeWait
  · exact takePayload Concludes.refl.timers.countFIN.sendACK.enterTimeWait
  · exact of_concludes (Concludes.refl.ackPayload seg)
  · exact takePayload (Concludes.refl.timers.ackPayload seg)

end Finishes

namespace Handled

theorem of_concludes (h : Concludes c c') : Handled seg c c' := ⟨c, .none, .of_concludes h⟩

theorem dispatch (c : TCPConn) (seg : Segment) (hs : c.ctl.state ≠ .synRcvd) :
    Handled seg c (c.dispatch seg) := by
  rw [TCPConn.dispatch.eq_def]
  split
  · rename_i hsyn
    exact absurd hsyn hs
  · exact ⟨_, .established, .takePayload (Concludes.refl.establishedFIN seg)⟩
  · exact ⟨_, .finWait1, .handleFinWait1 c seg⟩
  · exact ⟨_, .finWait2, .handleFinWait2 c seg⟩
  · exact ⟨_, .closeWait, .of_concludes .refl⟩
  · rw [handleClosing]
    split_ifs
    · exact ⟨_, .closing, .of_concludes Concludes.refl.enterTimeWait⟩
    · exact ⟨_, .closing, .of_concludes (Concludes.refl.reACKFIN seg)⟩
    · exact of_concludes (Concludes.refl.reACKFIN seg)
  · rw [handleLastAck]
    split_ifs
    · exact ⟨_, .lastAck, .of_concludes Concludes.refl.closeDone⟩
    · exact of_concludes .refl
    · exact of_concludes .refl
  · exact of_concludes (.handleTimeWait c seg)
  · exact of_concludes .refl

/-- After the handshake a segment is only answered, or it is handled, its timestamp noted first. -/
theorem handleSegment (c : TCPConn) (seg : Segment) (hs : c.ctl.state ≠ .synRcvd) :
    Concludes c (c.handleSegment seg) ∨ Handled seg (c.updateTSRecent seg) (c.handleSegment seg) := by
  rw [TCPConn.handleSegment]
  split_ifs
  · exact .inl .refl
  · exact .inl (.handleRSTSegment c seg)
  · exact .inl Concludes.refl.sendACK
  · refine .inr (dispatch _ seg ?_)
    rw [(TxOnly.updateTSRecent c seg).ctl]
    exact hs

end Handled

end TCPConn
end Netstack.Tcp
