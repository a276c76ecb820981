import Netstack.Tcp.Mss

/-! The FIN comes after all data.

    A FIN leaves the connection from three places of the run loop, and again from the queue. Wherever
    it is sent, `writeBuf` has been closed and drained first, so its sequence number is the one after
    everything `Write` has accepted, and nothing is accepted or sent after it. A connection without a
    segment size (an MSS of 12 in a SYN with timestamps) loses what is in a full `writeBuf`, and its
    FIN comes too early. -/

namespace Netstack.Tcp
open Netstack.Header Netstack.Serial Netstack.Trace TCPConn

/-- Every FIN sent stands right after the bytes accepted by `Write`, every data segment before that
    point, and once a FIN is out there is nothing left to send. -/
structure FinLast (c : TCPConn) : Prop where
  fins : ∀ p ∈ c.wire.out, p.flags.has tcpFlagFIN = true →
    p.seq = seqAt (c.env.iss + 1) c.tx.accepted.length
  data : ∀ p ∈ c.wire.out, p.payload ≠ [] → ∃ o, p.seq = seqAt (c.env.iss + 1) o ∧
    o + p.payload.length ≤ c.tx.accepted.length
  drained : (∃ p ∈ c.wire.out, p.flags.has tcpFlagFIN = true) → c.tx.writeBuf.contents = []

theorem TCPConn.Fresh.finLast {c : TCPConn} (h : Fresh c) : FinLast c where
  fins p hp hfin := absurd ((h.fins p hp).symm.trans hfin) (by simp)
  data p hp hne := absurd (h.out p hp) hne
  drained _ := h.contents

theorem TCPConn.Sending.finLast {c : TCPConn} {x n : ℕ} {f : Bool} (h : Sending c x n f) :
    FinLast c where
  fins p hp hfin := (h.fins p hp hfin).2
  data p hp hne := by
    obtain ⟨o, hseq, hpre⟩ := h.out p hp hne
    have hle := hpre.length_le
    have hpos := List.length_pos_iff.2 hne
    rw [List.length_drop] at hle
    exact ⟨o, hseq, by omega⟩
  drained := by
    rintro ⟨p, hp, hfin⟩
    exact (h.ended (h.fins p hp hfin).1).2

/-- CORRECT, where the connection has a segment size: in every state of every run the FINs sent so
    far, first or again, come right after all bytes accepted so far, no data is at or beyond them,
    and `writeBuf` is empty from the first one on. -/
theorem fin_follows_data {s : Sys} (hr : Reach Sys.Init Sys.step PositiveMSS s) :
    FinLast s.conn := by
  have hinv := sendInv_reach hr
  cases hs : s.conn.ctl.synced with
  | false => exact (hinv.fresh hs).finLast
  | true =>
    obtain ⟨f, ⟨x, n, hsend⟩, -⟩ := hinv.sends hs
    exact hsend.finLast

/-- Three bytes are written and the write side is closed: the FIN is sent at 204, after them. -/
theorem fin_follows_data_three : ∃ s : Sys, Reach Sys.Init Sys.step PositiveMSS s ∧
    (∃ p ∈ s.conn.wire.out, p.flags.has tcpFlagFIN = true ∧ p.seq = 204) ∧ FinLast s.conn := by
  obtain ⟨s, hr, hfin⟩ := Sys.exists_reach Sys.init_sample
    (fun s _ => !s.conn.ctl.synced || decide (1 ≤ s.conn.tx.snd.mss))
    (fun s => ∃ p ∈ s.conn.wire.out, p.flags.has tcpFlagFIN = true ∧ p.seq = 204)
    [Sys.sampleACK, .writeCall 0 [1, 2, 3], .writeCopy 0, .writeCopy 0, .writeReturn 0, .closeWrite,
      .closeCh] (by decide +kernel)
  have hr' : Reach Sys.Init Sys.step PositiveMSS s :=
    hr.mono fun s e hok hsync => by simpa [hsync] using hok
  exact ⟨s, hr', hfin, fin_follows_data hr'⟩

/-- A SYN with an MSS of 12 and timestamps leaves a segment size of 0. `sendPending` then reads zero
    bytes from the full `writeBuf`, which clears its `full` flag: the four bytes written are gone, and
    the FIN is sent at 201, where the first of them belongs. -/
theorem fin_before_data : ∃ s : Sys,
    Reach (AfterSYN (Sys.sampleHandler 8 4) 100 200 [2, 4, 0, 12, 8, 10, 0, 0, 0, 1, 0, 0, 0, 0])
      Sys.step (fun _ _ => True) s ∧
    s.conn.tx.snd.mss = 0 ∧ s.conn.fault = none ∧ s.conn.tx.accepted = [1, 2, 3, 4] ∧
    (∃ p ∈ s.conn.wire.out, p.flags.has tcpFlagFIN = true ∧ p.seq = 201) ∧ ¬FinLast s.conn := by
  obtain ⟨s, hr, hmss, hok, hiss, hacc, p, hp, hfin, hseq⟩ := exists_afterSYN
    [2, 4, 0, 12, 8, 10, 0, 0, 0, 1, 0, 0, 0, 0]
    (fun s => s.conn.tx.snd.mss = 0 ∧ s.conn.fault = none ∧ s.conn.env.iss = 200 ∧
      s.conn.tx.accepted = [1, 2, 3, 4] ∧
      ∃ p ∈ s.conn.wire.out, p.flags.has tcpFlagFIN = true ∧ p.seq = 201)
    [Sys.sampleACK, .writeCall 0 [1, 2, 3, 4], .writeCopy 0, .writeCopy 0, .writeReturn 0,
      .writeNotify, .closeWrite, .closeCh] (by decide +kernel)
  refine ⟨s, hr, hmss, hok, hacc, ⟨p, hp, hfin, hseq⟩, fun hlast => ?_⟩
  have hwrong := hlast.fins p hp hfin
  rw [hseq, hiss, hacc] at hwrong
  exact absurd hwrong (by decide)

end Netstack.Tcp
