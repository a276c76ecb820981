import Netstack.Tcp.Reassembly
import Netstack.Tcp.Steps

/-! How data segments change a connection that has nothing to send.

    `View` is all that such a connection's receive side depends on: where the receiver stands, how
    much room there is in `readBuf`, whether `readBuf` will grow, and the out-of-order list. One
    segment moves a connection from one view to the next; nothing here supposes that the free space
    fits into the 32 bits of `rcvWnd`. -/

namespace Netstack.Tcp
open Netstack.Header Netstack.Serial TCPConn

/-- One entry before the insertion point, reached by the segment or not. -/
theorem mergeOOO_one {A : OOOSegment} {seq : UInt32} {data : List UInt8}
    (hlt : seqLessThan A.seq seq = true) :
    mergeOOO ([A].takeWhile fun e => seqLessThan e.seq seq)
      ([A].dropWhile fun e => seqLessThan e.seq seq) seq data
      = if seqLessThan A.stop seq then [A, ⟨seq, data⟩] else [A.extend seq data] := by
  simp only [List.takeWhile_cons, hlt, if_true, List.takeWhile_nil, List.dropWhile_cons,
    List.dropWhile_nil, mergeOOO, List.getLast?_singleton, List.dropLast_singleton, List.nil_append,
    absorb, replaced, List.singleton_append]
  cases seqLessThan A.stop seq <;> rfl

/-- What a view tells: the receiver's position, the state of `readBuf` and of its tuning, and
    the out-of-order list. -/
structure Snap where
  pos : ℕ
  free : ℕ
  cap : ℕ
  srtt : ℤ
  started : Bool
  ooo : List OOOSegment

/-- An ESTABLISHED connection with nothing to send that stands at `v`, and whose `readBuf` is tuned up
    to `size` bytes. -/
structure View (E : Env) (size : ℕ) (c : TCPConn) (v : Snap) : Prop where
  env : c.env = E
  state : c.ctl.state = .established
  synced : c.ctl.synced = true
  running : c.ctl.running = true
  handed : c.ctl.handedOver = true
  pending : c.ctl.finPending = false
  fault : c.fault = none
  shut : c.app.readShutdown = false
  unacked : c.tx.snd.unacked = []
  una : c.tx.snd.una = E.iss + 1
  probing : c.tx.zeroWindowProbing = false
  tsRecent : c.wire.tsRecent = 0
  fin : c.rx.rcv.finReceived = false
  isOpen : c.rx.readBuf.closed = false
  readBufSize : c.rx.rcv.autoTune.readBufSize = size
  maxBufSize : c.rx.rcv.autoTune.maxBufSize = size
  pos : c.pos = v.pos
  nxt : c.rx.rcv.nxt = seqAt (E.irs + 1) v.pos
  free : c.rx.readBuf.free = v.free
  cap : c.rx.readBuf.cap = v.cap
  srtt : c.tx.snd.srtt = v.srtt
  idle : v.started = false → c.rx.rcv.autoTune.measureStart = none
  start : v.started = true → ∃ n, n < c.ticks ∧
    c.rx.rcv.autoTune.measureStart = some (E.handler.clock n)
  ooo : c.rx.rcv.ooo = v.ooo

namespace View

section
variable {E : Env} {size : ℕ} {c c' : TCPConn} {v : Snap}

/-- Steps that only send, or touch timers. -/
theorem frame (h : View E size c v) (henv : c'.env = c.env) (hctl : c'.ctl = c.ctl)
    (happ : c'.app = c.app) (hrx : c'.rx = c.rx) (hsnd : c'.tx.snd = c.tx.snd)
    (hprobing : c'.tx.zeroWindowProbing = c.tx.zeroWindowProbing)
    (hts : c'.wire.tsRecent = c.wire.tsRecent) (hfault : c'.fault = c.fault)
    (hticks : c.ticks ≤ c'.ticks) : View E size c' v where
  env := henv.trans h.env
  state := hctl ▸ h.state
  synced := hctl ▸ h.synced
  running := hctl ▸ h.running
  handed := hctl ▸ h.handed
  pending := hctl ▸ h.pending
  fault := hfault.trans h.fault
  shut := happ ▸ h.shut
  unacked := hsnd ▸ h.unacked
  una := hsnd ▸ h.una
  probing := hprobing.trans h.probing
  tsRecent := hts.trans h.tsRecent
  fin := hrx ▸ h.fin
  isOpen := hrx ▸ h.isOpen
  readBufSize := hrx ▸ h.readBufSize
  maxBufSize := hrx ▸ h.maxBufSize
  pos := by rw [TCPConn.pos, hrx]; exact h.pos
  nxt := hrx ▸ h.nxt
  free := hrx ▸ h.free
  cap := hrx ▸ h.cap
  srtt := hsnd ▸ h.srtt
  idle := hrx ▸ h.idle
  start hs := by
    obtain ⟨n, hn, he⟩ := h.start hs
    exact ⟨n, lt_of_lt_of_le hn hticks, hrx ▸ he⟩
  ooo := hrx ▸ h.ooo

theorem stampTicks_le (c : TCPConn) : c.ticks ≤ c.stampTicks := by
  rw [stampTicks]; split <;> omega

theorem sendACK (h : View E size c v) (hsack : E.sackPermitted = false) :
    View E size c.sendACK v := by
  refine h.frame rfl rfl rfl ?_ rfl rfl rfl rfl (stampTicks_le c)
  rw [TCPConn.sendACK, h.env, hsack]; rfl

theorem scheduleACK (h : View E size c v) (hsack : E.sackPermitted = false) (seg : Segment) :
    View E size (c.scheduleACK seg) v := by
  have hnow : View E size c.countSegment.ackNow v :=
    ((h.frame rfl rfl rfl rfl rfl rfl rfl rfl (le_refl _) :
      View E size c.countSegment.cancelDelayedACK v).sendACK hsack).frame
      rfl rfl rfl rfl rfl rfl rfl rfl (le_refl _)
  rw [TCPConn.scheduleACK]
  split_ifs
  · exact h
  · exact hnow
  · exact hnow
  · exact h.frame rfl rfl rfl rfl rfl rfl rfl rfl (Nat.le_succ _)

/-- With nothing to send, the run loop adds nothing to `handleSegment` but stops a timer. -/
theorem settled {seg : Segment} (h : View E size (c.handleSegment seg) v) :
    View E size (c.onInbound seg) v := by
  have hrto : View E size (c.handleSegment seg).manageRTO v := by
    rw [manageRTO, h.synced, if_neg (by simp), hasUnacked, h.unacked]
    exact h.frame rfl rfl rfl rfl rfl rfl rfl rfl (le_refl _)
  rw [onInbound, drainForFIN, hrto.pending, if_neg (by simp)]
  exact hrto

/-- A segment without flags and options is handled as data. -/
theorem inbound {v' : Snap} (h : View E size c v) (hsack : E.sackPermitted = false)
    {seg : Segment} (hflags : seg.flags = 0) (hopts : seg.options = [])
    (hdata : View E size (c.resetKeepalive.handleData seg.seq seg.payload) v') :
    View E size (c.onInbound seg) v' := by
  have hts : seg.timestamp c.env = none := by simp [Segment.timestamp, hopts]
  have hno : ∀ f : TCPFlags, f ≠ 0 → seg.flags.has f = false := by
    intro f hf
    rw [hflags, TCPFlags.has, UInt8.zero_and]
    simpa using hf.symm
  have hACK := hno tcpFlagACK (by decide)
  have hFIN := hno tcpFlagFIN (by decide)
  have hseg : c.handleSegment seg
      = (c.resetKeepalive.handleData seg.seq seg.payload).scheduleACK seg := by
    rw [handleSegment, pawsDrop, updateTSRecent, hts, dispatch, h.state]
    simp only [hno tcpFlagRST (by decide), hno tcpFlagSYN (by decide), Bool.false_eq_true, if_false,
      false_and]
    rw [handleEstablished, establishedACK, hACK, if_neg (by simp), takePayload,
      if_pos (show c.resetKeepalive.ctl.synced = true from h.synced), establishedFIN, hFIN,
      if_neg (by simp)]
  refine settled ?_
  rw [hseg]
  exact hdata.scheduleACK hsack seg

theorem writeData (h : View E size c v) {data : List UInt8} (hd : data ≠ [])
    (hlen : data.length ≤ v.free) : c.deliverable data = data.length ∧
      View E size (c.writeData data)
        { v with pos := v.pos + data.length, free := v.free - data.length } := by
  have hall : c.deliverable data = data.length := by
    rw [deliverable_eq, h.isOpen, if_neg (by simp), h.free, min_eq_left hlen]
  have hfree := c.rx.readBuf.free_writeNoBlock hd
  have hn : (c.rx.readBuf.writeNoBlock data).2 = data.length := hall
  refine ⟨hall, { h with isOpen := ?_, pos := ?_, nxt := ?_, free := ?_, cap := ?_ }⟩
  · exact (c.rx.readBuf.closed_writeNoBlock data).trans h.isOpen
  · rw [TCPConn.pos, TCPConn.writeData, hall, List.take_length, List.length_append]
    exact congrArg (· + data.length) h.pos
  · rw [TCPConn.writeData, hall, seqAt_add]
    exact congrArg (· + UInt32.ofNat data.length) h.nxt
  · rw [hn, h.free] at hfree
    exact Nat.eq_sub_of_add_eq hfree
  · exact (c.rx.readBuf.cap_writeNoBlock data).trans h.cap

theorem countDelivered (h : View E size c v) (n : ℕ) :
    View E size (c.countDelivered n) { v with started := true } := by
  have hstart : ∃ k, k < c.ticks + 1 ∧
      some (c.rx.rcv.autoTune.measureStart.getD c.now) = some (E.handler.clock k) := by
    cases hv : v.started with
    | false =>
      refine ⟨c.ticks, Nat.lt_succ_self _, ?_⟩
      rw [h.idle hv, Option.getD_none, now, h.env]
    | true =>
      obtain ⟨k, hk, he⟩ := h.start hv
      exact ⟨k, Nat.lt_succ_of_lt hk, by rw [he, Option.getD_some]⟩
  exact { h with idle := (fun he => by cases he), start := fun _ => hstart }

theorem autoTuneCheck (h : View E size c v) {cap : ℕ} (hcap : c.autoTuneCap = cap)
    (hle : v.cap ≤ cap) : View E size c.autoTuneCheck
      { v with started := true, cap := cap, free := v.free + (cap - v.cap) } := by
  have hgrow : (c.rx.readBuf.grow cap).cap = cap := by
    rw [RingBuffer.cap_grow, h.cap, max_eq_right hle]
  have hfree : (c.rx.readBuf.grow cap).free = v.free + (cap - v.cap) := by
    have h1 := (c.rx.readBuf.grow cap).len_add_free
    have h2 := c.rx.readBuf.len_add_free
    rw [RingBuffer.len_grow, hgrow] at h1
    rw [h.free, h.cap] at h2
    omega
  rw [TCPConn.autoTuneCheck, hcap, Int.toNat_natCast]
  exact
    { h with
      isOpen := (c.rx.readBuf.closed_grow cap).trans h.isOpen
      free := hfree
      cap := hgrow
      idle := (fun he => by cases he)
      start := fun _ => ⟨c.ticks, Nat.lt_succ_self _, congrArg some (by rw [now, h.env])⟩ }

/-- At its full size, or without an RTT sample, `readBuf` does not grow. -/
theorem autoTuneAccumulate (h : View E size c v) (hsize : 0 < size)
    (hcalm : v.cap = size ∨ v.srtt ≤ 0) (n : ℕ) :
    View E size (c.autoTuneAccumulate n) { v with started := true } := by
  have hcount := h.countDelivered n
  rw [TCPConn.autoTuneAccumulate, h.maxBufSize, h.readBufSize, if_neg (by omega), h.srtt]
  rcases hcalm with hfull | hzero
  · have hcap : (c.countDelivered n).autoTuneCap = (v.cap : ℤ) := by
      rw [autoTuneCap, hcount.cap, hcount.readBufSize, hcount.maxBufSize, if_neg (by simp [hfull]),
        if_neg (by simp [hfull])]
    have hcheck := hcount.autoTuneCheck hcap (le_refl _)
    rw [Nat.sub_self] at hcheck
    split_ifs
    · exact hcount
    · exact hcount
    · exact hcheck
  · rw [if_pos hzero]
    exact hcount

/-- Once the measurement has run for a round trip, `readBuf` grows to its full size. -/
theorem autoTuneAccumulate_grow (h : View E size c v) (hstarted : v.started = true)
    (hclock : ∀ k n, k < n → E.handler.clock k + v.srtt ≤ E.handler.clock n) (hsrtt : 0 < v.srtt)
    (hlt : v.cap < size) {n : ℕ} (hn : 0 < n) : View E size (c.autoTuneAccumulate n)
      { v with
        cap := min (2 * v.cap) size
        free := v.free + (min (2 * v.cap) size - v.cap) } := by
  obtain ⟨k, hk, hstart⟩ := h.start hstarted
  have hcount := h.countDelivered n
  have hcap : (c.countDelivered n).autoTuneCap = ((min (2 * v.cap) size : ℕ) : ℤ) := by
    have hbytes : 0 < (c.countDelivered n).rx.rcv.autoTune.bytesDelivered := by
      rw [TCPConn.countDelivered]; exact Nat.add_pos_right _ hn
    rw [autoTuneCap, hcount.cap, hcount.readBufSize, if_pos (by simp; omega), if_pos hbytes]
    simp only
    omega
  have helapsed := hclock k c.ticks hk
  rw [TCPConn.autoTuneAccumulate, h.maxBufSize, h.readBufSize, if_neg (by omega), h.srtt,
    if_neg (by omega), hstart, Option.getD_some, now, h.env, if_neg (by omega)]
  have hcheck := hcount.autoTuneCheck hcap (show v.cap ≤ _ by omega)
  rwa [← hstarted] at hcheck

/-- `readBuf` takes what is in order. -/
theorem deliver (h : View E size c v) (hsize : 0 < size) (hcalm : v.cap = size ∨ v.srtt ≤ 0)
    {data : List UInt8} (hd : data ≠ []) (hlen : data.length ≤ v.free) :
    View E size (c.deliver data) { v with
      pos := v.pos + data.length, free := v.free - data.length, started := true } := by
  obtain ⟨hall, hw⟩ := h.writeData hd hlen
  rw [TCPConn.deliver, hall, if_pos (List.length_pos_iff.2 hd)]
  exact hw.autoTuneAccumulate hsize hcalm _

@[inherit_doc deliver]
theorem deliver_grow (h : View E size c v) (hstarted : v.started = true)
    (hclock : ∀ k n, k < n → E.handler.clock k + v.srtt ≤ E.handler.clock n) (hsrtt : 0 < v.srtt)
    (hlt : v.cap < size) {data : List UInt8} (hd : data ≠ []) (hlen : data.length ≤ v.free) :
    View E size (c.deliver data) { v with
      pos := v.pos + data.length, cap := min (2 * v.cap) size
      free := v.free - data.length + (min (2 * v.cap) size - v.cap) } := by
  obtain ⟨hall, hw⟩ := h.writeData hd hlen
  have hpos := List.length_pos_iff.2 hd
  rw [TCPConn.deliver, hall, if_pos hpos]
  exact hw.autoTuneAccumulate_grow hstarted hclock hsrtt hlt hpos

/-- The application reads everything there is. -/
theorem readAll (h : View E size c v) {n : ℕ} (hn : 0 < n) (hlen : c.rx.readBuf.len ≤ n) :
    View E size { c with rx.readBuf := (c.rx.readBuf.readNoBlock n).1 } { v with free := v.cap } := by
  have hcap := (c.rx.readBuf.cap_readNoBlock n).trans h.cap
  have hfree : (c.rx.readBuf.readNoBlock n).1.free = v.cap := by
    have h1 := (c.rx.readBuf.readNoBlock n).1.len_add_free
    rw [RingBuffer.len_readNoBlock _ hn, hcap] at h1
    omega
  exact { h with
    isOpen := (c.rx.readBuf.closed_readNoBlock n).trans h.isOpen
    free := hfree
    cap := hcap }

theorem inOrder (h : View E size c v) {W : ℕ} {data : List UInt8} (hd : data ≠ [])
    (hW : v.free % 2 ^ 32 = W) (hfit : data.length ≤ W) (hle : W ≤ 2 ^ 31) :
    c.handleData (seqAt (E.irs + 1) v.pos) data = (c.deliver data).deliverOOO := by
  have hpos := List.length_pos_iff.2 hd
  have hdata : c.handleData (seqAt (E.irs + 1) v.pos) data = _ :=
    handleData_inOrder h.nxt h.shut h.isOpen (h.free ▸ hW) hle (le_refl _) (by omega) (by omega)
      (by omega)
  rwa [Nat.sub_self, List.drop_zero] at hdata

theorem outOfOrder (h : View E size c v) {o W : ℕ} {data : List UInt8} {l : List OOOSegment}
    (hd : data ≠ []) (hW : v.free % 2 ^ 32 = W) (hgt : v.pos < o) (hahead : o < v.pos + 2 ^ 31)
    (hfit : o + data.length ≤ v.pos + W) (hnear : v.pos + W ≤ o + 2 ^ 31)
    (hcov : covered v.ooo (seqAt (E.irs + 1) o) (seqAt (E.irs + 1) (o + data.length)) = false)
    (hmerge : mergeOOO (v.ooo.takeWhile fun e => seqLessThan e.seq (seqAt (E.irs + 1) o))
      (v.ooo.dropWhile fun e => seqLessThan e.seq (seqAt (E.irs + 1) o)) (seqAt (E.irs + 1) o) data
      = l) : View E size (c.handleData (seqAt (E.irs + 1) o) data) { v with ooo := l } := by
  have hpos := List.length_pos_iff.2 hd
  have heq : c.handleData (seqAt (E.irs + 1) o) data
      = { c with rx.rcv := { c.rx.rcv with ooo := l } } := by
    rw [handleData_offsets h.nxt hd (by omega) hahead.le (by omega), if_pos (by omega),
      max_eq_left hgt.le, Nat.sub_eq_zero_of_le hgt.le, List.drop_zero,
      windowData_offsets h.nxt (h.free ▸ hW) (by omega) hgt.le hahead, if_pos (by omega),
      List.take_of_length_le (by omega), acceptData, h.shut, if_neg (by simp), h.nxt,
      if_neg (by rw [seqAt_inj _ (by omega) (by omega)]; omega),
      seqGreaterThan_seqAt _ (by omega) (by omega), if_pos (by simpa using hgt),
      Receiver.insertOOO, h.ooo, ← seqAt_add, hcov, if_neg (by simp), hmerge]
  rw [heq]
  exact { h with ooo := rfl }

/-! What `deliverOOO` does with the first entry: it waits while the entry is ahead, and delivers it
    when its turn has come. -/

theorem deliverOOO {v' : Snap} (h : View E size c v) (hdrain : View E size (drainOOO v.ooo c) v') :
    View E size c.deliverOOO v' := by
  rw [TCPConn.deliverOOO, h.ooo, deferredFIN, hdrain.fin, if_neg (by simp)]
  exact hdrain

theorem drain_nil (h : View E size c v) : View E size (drainOOO [] c) { v with ooo := [] } := by
  rw [drainOOO]
  exact { h with ooo := rfl }

theorem drain_waits (h : View E size c v) {e : OOOSegment} {rest : List OOOSegment}
    (hgt : seqGreaterThan e.seq (seqAt (E.irs + 1) v.pos) = true) :
    View E size (drainOOO (e :: rest) c) { v with ooo := e :: rest } := by
  rw [drainOOO, h.nxt, if_pos hgt]
  exact { h with ooo := rfl }

theorem drain_takes (h : View E size c v) {v' : Snap} {data : List UInt8} {rest : List OOOSegment}
    (hd : data ≠ []) (hlen : data.length ≤ v.free)
    (hrest : View E size (drainOOO rest (c.deliver data)) v') :
    View E size (drainOOO (⟨seqAt (E.irs + 1) v.pos, data⟩ :: rest) c) v' := by
  obtain ⟨hall, -⟩ := h.writeData hd hlen
  rw [drainOOO, h.nxt, seqGreaterThan_seqAt _ (by omega) (by omega), if_neg (by simp),
    seqLessThan_seqAt _ (by omega) (by omega)]
  simp only [Nat.lt_irrefl, decide_false, Bool.false_and, Bool.false_eq_true, if_false,
    UInt32.sub_self, UInt32.toNat_zero, List.drop_zero, hall]
  exact hrest

end
end View

end Netstack.Tcp
