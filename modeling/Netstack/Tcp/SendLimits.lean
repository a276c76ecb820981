import Netstack.Lib.SerialRange
import Netstack.Tcp.Mss
import Netstack.Tcp.Pacing

/-! How far ahead of `snd.una` new data may go (`sendPending` and `limitedTransmit` of `snd.go`).

    Both size what they send by what the flight leaves of a limit: `sendPending` of the smaller of the
    congestion window and the peer's window, `limitedTransmit` of the peer's window alone. So every
    byte lies below the limit at the moment it is sent, whatever the window was before; but nothing
    holds `limitedTransmit` to the congestion window. -/

namespace Netstack.Tcp
open Netstack.Header Netstack.Loop Netstack.Serial Netstack.Trace

/-- Every byte of the packet lies in the `limit` sequence numbers from `una` on. -/
def OutSegment.Below (p : OutSegment) (una limit : UInt32) : Prop :=
  ∀ j < p.payload.length, Between una (una + limit) (p.seq + UInt32.ofNat j)

namespace TCPConn

variable {c c' c'' : TCPConn}

/-- `flightSize`. -/
def flightSize (c : TCPConn) : ℕ := (c.tx.snd.nxt - c.tx.snd.una).toNat

/-- What goes out between `c` and `c'` stays below `limit`, and nothing else of the sender changes. -/
structure Admits (limit : UInt32) (c c' : TCPConn) : Prop where
  kept : c'.kept = c.kept
  out : ∃ ps, c'.wire.out = c.wire.out ++ ps ∧ ∀ p ∈ ps, p.Below c.tx.snd.una limit

namespace Admits

variable {limit : UInt32}

theorem una_eq (h : c'.kept = c.kept) : c'.tx.snd.una = c.tx.snd.una :=
  congrArg (fun k => k.1.una) h

theorem of_silent (hk : c'.kept = c.kept) (hout : c'.wire.out = c.wire.out) : Admits limit c c' :=
  ⟨hk, [], by rw [hout, List.append_nil], fun _ hp => absurd hp List.not_mem_nil⟩

theorem trans (h : Admits limit c c') (h' : Admits limit c' c'') : Admits limit c c'' := by
  obtain ⟨ps, hps, hbelow⟩ := h.out
  obtain ⟨ps', hps', hbelow'⟩ := h'.out
  rw [una_eq h.kept] at hbelow'
  refine ⟨h'.kept.trans h.kept, ps ++ ps', by rw [hps', hps, List.append_assoc], fun p hp => ?_⟩
  exact (List.mem_append.1 hp).elim (hbelow p) (hbelow' p)

/-- A segment at `snd.nxt` that the flight leaves room for. -/
theorem below_of_room (c : TCPConn) {p : OutSegment} {k : ℕ} (hseq : p.seq = c.tx.snd.nxt)
    (hlen : p.payload.length ≤ k) (hroom : c.flightSize + k ≤ limit.toNat) :
    p.Below c.tx.snd.una limit := by
  intro j hj
  have hlt := limit.toNat_lt
  have hn := c.tx.snd.nxt.toNat_lt
  have hu := c.tx.snd.una.toNat_lt
  rw [flightSize, UInt32.toNat_sub] at hroom
  rw [Between, hseq]
  simp only [UInt32.toNat_sub, UInt32.toNat_add, UInt32.toNat_ofNat']
  omega

theorem sendNew (c : TCPConn) {k : ℕ} (hroom : c.flightSize + k ≤ limit.toNat) :
    Admits limit c (c.sendNew k).1 := by
  refine ⟨sendNew_kept c k, ?_⟩
  have hlen : (c.tx.writeBuf.readNoBlock k).2.length ≤ k := by
    rw [RingBuffer.readNoBlock_snd]
    exact List.length_take_le _ _
  rw [TCPConn.sendNew]
  split
  · exact ⟨[], (List.append_nil _).symm, fun _ hp => absurd hp List.not_mem_nil⟩
  · refine ⟨_, rfl, fun p hp => ?_⟩
    obtain rfl := List.mem_singleton.1 hp
    exact below_of_room c rfl hlen hroom

theorem sendSegment (c : TCPConn) {k : ℤ} (hroom : (c.flightSize : ℤ) + k ≤ limit.toNat) :
    Admits limit c (c.sendSegment k).1 := by
  rw [TCPConn.sendSegment]
  split
  · exact of_silent rfl rfl
  · exact sendNew c (by omega)

theorem sendGSO (c : TCPConn) {k : ℤ} (hroom : (c.flightSize : ℤ) + k ≤ limit.toNat) :
    Admits limit c (c.sendGSO k).1 := by
  refine ⟨sendGSO_kept c k, ?_⟩
  have hlen : (c.tx.writeBuf.readNoBlock k.toNat).2.length ≤ k.toNat := by
    rw [RingBuffer.readNoBlock_snd]
    exact List.length_take_le _ _
  rw [TCPConn.sendGSO]
  split_ifs with hneg
  · exact ⟨[], (List.append_nil _).symm, fun _ hp => absurd hp List.not_mem_nil⟩
  · exact ⟨[], (List.append_nil _).symm, fun _ hp => absurd hp List.not_mem_nil⟩
  · refine ⟨_, rfl, fun p hp => ?_⟩
    obtain rfl := List.mem_singleton.1 hp
    exact below_of_room c rfl hlen (by omega)

end Admits

/-- Neither path of a turn of `sendPending` sends more than the window it has found. -/
theorem sendBatch_admits (c : TCPConn) {limit : UInt32} {w a : ℤ}
    (hroom : (c.flightSize : ℤ) + w ≤ limit.toNat) : Admits limit c (c.sendBatch w a).1 := by
  rw [sendBatch.eq_def]
  dsimp only
  split
  · split
    · refine .sendGSO c ?_
      rw [gsoBatchSize]
      omega
    · exact .sendSegment c (by omega)
  · exact .sendSegment c (by omega)

theorem sendPendingStep_admits (c : TCPConn) :
    Admits (min c.tx.snd.cwnd c.tx.snd.wnd) c c.sendPendingStep.1 := by
  rw [sendPendingStep]
  split_ifs
  iterate 4 exact .of_silent rfl rfl
  refine sendBatch_admits c ?_
  rw [Sender.effectiveWindow, UInt32.toNat_min, flightSize]
  omega

theorem sendPending_admits (c : TCPConn) :
    Admits (min c.tx.snd.cwnd c.tx.snd.wnd) c c.sendPending := by
  refine loop_rel (fun a b : TCPConn => Admits (min a.tx.snd.cwnd a.tx.snd.wnd) a b) ?_
    sendPendingStep_admits ?_ _ c
  rotate_left
  · exact fun _ => .of_silent rfl rfl
  intro a b d hab hbd
  have hcwnd : b.tx.snd.cwnd = a.tx.snd.cwnd := congrArg (fun k => k.1.cwnd) hab.kept
  have hwnd : b.tx.snd.wnd = a.tx.snd.wnd := congrArg (fun k => k.1.wnd) hab.kept
  rw [hcwnd, hwnd] at hbd
  exact hab.trans hbd

theorem limitedTransmit_admits (c : TCPConn) : Admits c.tx.snd.wnd c c.limitedTransmit := by
  rw [limitedTransmit]
  dsimp only
  split_ifs
  iterate 3 exact .of_silent rfl rfl
  exact .sendSegment c (by rw [flightSize]; omega)

end TCPConn

theorem OutSegment.Below.mono {p : OutSegment} {una limit limit' : UInt32} (h : p.Below una limit)
    (hle : limit.toNat ≤ limit'.toNat) : p.Below una limit' := by
  intro j hj
  have hlt := h j hj
  have hself : ∀ x : UInt32, una + x - una = x := fun x => by rw [UInt32.add_comm, UInt32.add_sub_cancel]
  rw [Between, hself] at hlt ⊢
  omega

/-- SAFE: new data stays in the peer's window. Whatever the state of the connection, each byte that
    `sendPending` sends lies before `snd.una + min(snd.cwnd, snd.wnd)` and each byte that
    `limitedTransmit` sends before `snd.una + snd.wnd`; neither call moves these limits. -/
theorem new_data_in_window (c : TCPConn) :
    (∃ ps, c.sendPending.wire.out = c.wire.out ++ ps ∧ ∀ p ∈ ps,
      p.Below c.tx.snd.una c.tx.snd.wnd ∧
      p.Below c.tx.snd.una (min c.tx.snd.cwnd c.tx.snd.wnd)) ∧
    (∃ ps, c.limitedTransmit.wire.out = c.wire.out ++ ps ∧ ∀ p ∈ ps,
      p.Below c.tx.snd.una c.tx.snd.wnd) ∧
    ∀ c' ∈ [c.sendPending, c.limitedTransmit], c'.tx.snd.una = c.tx.snd.una ∧
      c'.tx.snd.wnd = c.tx.snd.wnd ∧ c'.tx.snd.cwnd = c.tx.snd.cwnd := by
  have hlimits : ∀ {c' : TCPConn}, c'.kept = c.kept → c'.tx.snd.una = c.tx.snd.una ∧
      c'.tx.snd.wnd = c.tx.snd.wnd ∧ c'.tx.snd.cwnd = c.tx.snd.cwnd := fun hk =>
    ⟨congrArg (fun k => k.1.una) hk, congrArg (fun k => k.1.wnd) hk, congrArg (fun k => k.1.cwnd) hk⟩
  obtain ⟨ps, hps, hbelow⟩ := c.sendPending_admits.out
  refine ⟨⟨ps, hps, fun p hp => ⟨(hbelow p hp).mono (by rw [UInt32.toNat_min]; omega), hbelow p hp⟩⟩,
    c.limitedTransmit_admits.out, fun c' hc' => ?_⟩
  rcases List.mem_cons.1 hc' with rfl | hc'
  · exact hlimits c.sendPending_kept
  · obtain rfl := List.mem_singleton.1 hc'
    exact hlimits c.limitedTransmit_kept

/-! ### Limited transmit -/

namespace TCPConn

end TCPConn

/-- The events of a `Write` of `b` by the application, up to the run loop's notification. -/
def Sys.writeEvents (b : List UInt8) : List Event :=
  [.writeCall 0 b, .writeCopy 0, .writeCopy 0, .writeReturn 0, .writeNotify]

end Netstack.Tcp
