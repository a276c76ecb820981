import Netstack.Tcp.OutOfWindow
import Netstack.Tcp.RtoTimer

/-! The deadline of the retransmission timer.

    The inbound case of the select loop ends with `rtoTimer.Reset(snd.rto)` whenever something is
    outstanding, whatever the segment was: data of the peer, a duplicate acknowledgment, a segment
    that PAWS has dropped. The deadline is then one `rto` after the clock reading of that `Reset`, so
    a peer that keeps sending keeps putting the retransmission off. -/

namespace Netstack.Tcp
open Netstack.Header Netstack.Trace

namespace TCPConn

variable {c c' : TCPConn} {ack : UInt32} {seg : Segment}

/-- `handleACK` takes nothing out of the queue unless it moves `snd.una`. -/
theorem handleACK_grows (h : (c.handleACK ack).tx.snd.una = c.tx.snd.una) :
    Grows c (c.handleACK ack) := by
  rw [handleACK] at h ⊢
  split_ifs at h ⊢ with hdup
  · exact .handleDupACK c
  · exact .of_queue rfl
  · exact absurd ((handleNewACK_una c ack).symm.trans h) hdup

theorem AcksOnce.grows (h : AcksOnce ack c c') (huna : c'.tx.snd.una = c.tx.snd.una) : Grows c c' := by
  obtain ⟨c₁, c₂, h₁, hack, h₂⟩ := h
  have hmid : Grows c₁ c₂ := by
    rcases hack with rfl | rfl
    · exact .of_queue rfl
    · exact handleACK_grows (h₂.una.symm.trans (huna.trans h₁.unmoved.una.symm))
  exact (h₁.unmoved.grows.trans hmid).trans h₂.grows

theorem drainForFIN_una (c : TCPConn) : c.drainForFIN.tx.snd.una = c.tx.snd.una := by
  have hfin : ∀ c : TCPConn, c.finIfDrained.tx.snd.una = c.tx.snd.una := by
    intro c
    rw [finIfDrained, finalizeFIN.eq_def]
    split
    · split <;> rfl
    · rfl
  rw [drainForFIN]
  split
  · exact (hfin _).trans (Unmoved.sendPending c).una
  · rfl

theorem onInbound_una (c : TCPConn) (seg : Segment) :
    (c.onInbound seg).tx.snd.una = (c.handleSegment seg).tx.snd.una :=
  (drainForFIN_una _).trans (Resends.manageRTO _).una

end TCPConn

open TCPConn

end Netstack.Tcp
