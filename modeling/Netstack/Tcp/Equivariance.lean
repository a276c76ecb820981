import Netstack.Lib.Simulation
import Netstack.Tcp.Control
import Netstack.Tcp.Mss
import Netstack.Tcp.SeqShift

/-! The receive side, the state machine and whole runs of two connections whose sequence numbers
    differ by constants.

    Every comparison of sequence numbers is one of differences, so that two such connections take the
    same branches: the numbers of the second stay the shifted ones of the first, and everything else
    is equal. SACK is the exception, and is left out. -/

namespace Netstack.Tcp
open Netstack.Header Netstack.Serial Netstack.Trace Netstack.Simulation

variable {d : Shift} {b : Bool} {c c' : TCPConn}

/-! ### The out-of-order list -/

section List

variable (n : UInt32)

theorem OOOSegment.stop_shift (e : OOOSegment) : (e.shift n).stop = e.stop + n :=
  add_right_swap _ _ _

theorem covered_shift (l : List OOOSegment) (seq stop : UInt32) :
    covered (l.map (OOOSegment.shift n)) (seq + n) (stop + n) = covered l seq stop := by
  rw [covered, covered, List.any_map]
  congr 1
  funext e
  have hseq : (e.shift n).seq = e.seq + n := rfl
  rw [Function.comp_apply, e.stop_shift, hseq, seqLessThan_add, seqGreaterThan_add]

theorem OOOSegment.extend_shift (e : OOOSegment) (seq : UInt32) (data : List UInt8) :
    (e.shift n).extend (seq + n) data = (e.extend seq data).shift n := by
  rw [OOOSegment.extend, OOOSegment.extend, e.stop_shift, add_right_swap, seqGreaterThan_add,
    add_sub_add]
  split <;> rfl

theorem absorb_shift : ∀ (l : List OOOSegment) (cur : OOOSegment),
    absorb (cur.shift n) (l.map (OOOSegment.shift n)) = (absorb cur l).map (OOOSegment.shift n)
  | [], _ => rfl
  | next :: rest, cur => by
      have hseq : (next.shift n).seq = next.seq + n := rfl
      have hdata : (next.shift n).data = next.data := rfl
      rw [List.map_cons, absorb, absorb, cur.stop_shift, hseq, hdata, seqLessThan_add,
        cur.extend_shift, absorb_shift rest]
      split <;> rfl

theorem replaced_shift (seq : UInt32) : ∀ l : List OOOSegment,
    replaced (seq + n) (l.map (OOOSegment.shift n)) = (replaced seq l).map (OOOSegment.shift n)
  | [] => rfl
  | e :: rest => by
      have hseq : (e.shift n).seq = seq + n ↔ e.seq = seq := UInt32.add_left_inj n
      rw [List.map_cons, replaced, replaced]
      simp only [hseq]
      split <;> rfl

theorem mergeOOO_shift (before after : List OOOSegment) (seq : UInt32) (data : List UInt8) :
    mergeOOO (before.map (OOOSegment.shift n)) (after.map (OOOSegment.shift n)) (seq + n) data
      = (mergeOOO before after seq data).map (OOOSegment.shift n) := by
  have hfresh := absorb_shift n (replaced seq after) ⟨seq, data⟩
  rw [mergeOOO, mergeOOO, List.getLast?_map, replaced_shift]
  cases before.getLast? with
  | none =>
    dsimp only [Option.map]
    rw [List.map_append, ← hfresh]
    rfl
  | some prev =>
    dsimp only [Option.map]
    rw [prev.stop_shift, seqLessThan_add, prev.extend_shift, absorb_shift, ← List.map_dropLast]
    split
    · rw [List.map_append]
    · rw [List.map_append, ← hfresh]
      rfl

end List

/-! ### Segments, windows and the handshake -/

theorem Segment.finSeq_shift (seg : Segment) : (seg.shift d).finSeq = seg.finSeq + d.rcv :=
  add_right_swap _ _ _

theorem seqWithinWindow_add (seq start wnd n : UInt32) :
    seqWithinWindow (seq + n) (start + n) wnd = seqWithinWindow seq start wnd := by
  rw [seqWithinWindow, seqWithinWindow, add_right_swap start, seqLessThan_add, seqLessThan_add]

theorem newSender_shift (n iss : UInt32) (peerWnd : UInt16) (wndScale : ℕ) (mtu : ℤ) (peerMSS : UInt16)
    (cfg : Config) : newSender (iss + n) peerWnd wndScale mtu peerMSS cfg
      = (newSender iss peerWnd wndScale mtu peerMSS cfg).shift n Dead.new := by
  simp only [newSender, Sender.shift, Dead.new, add_right_swap iss 1, List.map_nil]

theorem newReceiver_shift (n irs : UInt32) (cap : ℕ) (readBufSize maxBufSize : ℤ) :
    newReceiver (irs + n) cap readBufSize maxBufSize
      = (newReceiver irs cap readBufSize maxBufSize).shift n Dead.new := by
  simp only [newReceiver, Receiver.shift, Dead.new, add_right_swap irs 1, List.map_nil]

namespace TCPConn

/-- Nothing reads the DSACK block. -/
theorem Shifted.noteDuplicate (h : Shifted d b c c') (start stop start' stop' : UInt32) :
    Shifted d b { c with rx.rcv := c.rx.rcv.noteDuplicate start stop }
      { c' with rx.rcv := c'.rx.rcv.noteDuplicate start' stop' } := by
  obtain ⟨x, hx, rfl⟩ := h.eq_shift
  exact ⟨h.noSACK, h.synced_eq, { x with dsackBlock := ⟨start', stop'⟩ },
    ⟨hx.recovery, hx.fin, hx.pre⟩, rfl⟩

theorem Shifted.setOOO (h : Shifted d b c c') {l l' : List OOOSegment}
    (hl : l' = l.map (OOOSegment.shift (d.rcvBy b))) :
    Shifted d b { c with rx.rcv.ooo := l } { c' with rx.rcv.ooo := l' } := by
  subst hl
  refine h.of_eq rfl ?_
  rintro x rfl
  rfl

theorem Shifted.ooo (h : Shifted d b c c') :
    c'.rx.rcv.ooo = c.rx.rcv.ooo.map (OOOSegment.shift (d.rcvBy b)) := by
  obtain ⟨x, -, rfl⟩ := h.eq_shift; rfl

theorem Shifted.insertOOO (h : Shifted d true c c') (seq : UInt32) (data : List UInt8) :
    Shifted d true { c with rx.rcv := c.rx.rcv.insertOOO seq data }
      { c' with rx.rcv := c'.rx.rcv.insertOOO (seq + d.rcv) data } := by
  have hooo : c'.rx.rcv.ooo = c.rx.rcv.ooo.map (OOOSegment.shift d.rcv) := h.ooo
  have hbefore : (fun e : OOOSegment => seqLessThan e.seq (seq + d.rcv)) ∘ OOOSegment.shift d.rcv
      = fun e => seqLessThan e.seq seq := by
    funext e
    exact seqLessThan_add _ _ _
  rw [Receiver.insertOOO, Receiver.insertOOO, hooo, add_right_swap, covered_shift, List.takeWhile_map,
    List.dropWhile_map, hbefore, mergeOOO_shift]
  split
  · exact h.noteDuplicate _ _ _ _
  · exact h.setOOO rfl

/-! ### Data -/

theorem Shifted.readBuf (h : Shifted d b c c') : c'.rx.readBuf = c.rx.readBuf := by
  obtain ⟨x, -, rfl⟩ := h.eq_shift; rfl

theorem Shifted.delivered (h : Shifted d b c c') : c'.rx.delivered = c.rx.delivered := by
  obtain ⟨x, -, rfl⟩ := h.eq_shift; rfl

theorem Shifted.autoTune (h : Shifted d b c c') : c'.rx.rcv.autoTune = c.rx.rcv.autoTune := by
  obtain ⟨x, -, rfl⟩ := h.eq_shift; rfl

theorem Shifted.srtt (h : Shifted d b c c') : c'.tx.snd.srtt = c.tx.snd.srtt := by
  obtain ⟨x, -, rfl⟩ := h.eq_shift; rfl

theorem Shifted.deliverable (h : Shifted d b c c') (data : List UInt8) :
    c'.deliverable data = c.deliverable data := by
  rw [TCPConn.deliverable, TCPConn.deliverable, h.readBuf]

theorem Shifted.countDelivered (h : Shifted d b c c') (n : ℕ) :
    Shifted d b (c.countDelivered n) (c'.countDelivered n) :=
  h.map (·.countDelivered n) (fun _ => rfl) rfl

theorem Shifted.autoTuneAccumulate (h : Shifted d b c c') (n : ℕ) :
    Shifted d b (c.autoTuneAccumulate n) (c'.autoTuneAccumulate n) := by
  rw [TCPConn.autoTuneAccumulate, TCPConn.autoTuneAccumulate, h.autoTune, h.srtt, h.now]
  split_ifs
  · exact h
  · exact h.countDelivered n
  · exact h.countDelivered n
  · exact (h.countDelivered n).map TCPConn.autoTuneCheck (fun _ => rfl) rfl

theorem Shifted.writeData (h : Shifted d b c c') (data : List UInt8) :
    Shifted d b (c.writeData data) (c'.writeData data) := by
  refine h.of_eq rfl ?_
  rintro x rfl
  rw [TCPConn.writeData, h.deliverable, h.rcvNxt, add_right_swap]
  rfl

theorem Shifted.deliver (h : Shifted d b c c') (data : List UInt8) :
    Shifted d b (c.deliver data) (c'.deliver data) := by
  rw [TCPConn.deliver, TCPConn.deliver, h.deliverable]
  split
  · exact (h.writeData data).autoTuneAccumulate _
  · exact h.writeData data

theorem Shifted.cancelDelayedACK (h : Shifted d b c c') :
    Shifted d b c.cancelDelayedACK c'.cancelDelayedACK :=
  h.map TCPConn.cancelDelayedACK (fun _ => rfl) rfl

theorem Shifted.closeReadBuf (h : Shifted d b c c') :
    Shifted d b c.closeReadBuf c'.closeReadBuf :=
  h.map TCPConn.closeReadBuf (fun _ => rfl) rfl

theorem Shifted.countFIN (h : Shifted d true c c') : Shifted d true c.countFIN c'.countFIN := by
  obtain ⟨x, hx, rfl⟩ := h.eq_shift
  refine ⟨h.noSACK, h.synced_eq, x, ⟨hx.recovery, hx.fin, by simp⟩, ?_⟩
  simp only [TCPConn.countFIN, TCPConn.shift, Receiver.shift, List.map_append, List.map_cons,
    List.map_nil, add_right_swap]

theorem Shifted.processFIN (h : Shifted d true c c') : Shifted d true c.processFIN c'.processFIN :=
  h.countFIN.cancelDelayedACK.sendACK.closeReadBuf.setState .closeWait

/-- The loop over the out-of-order list. -/
theorem Shifted.drainOOO : ∀ (l : List OOOSegment) {c c' : TCPConn}, Shifted d b c c' →
    Shifted d b (TCPConn.drainOOO l c) (TCPConn.drainOOO (l.map (OOOSegment.shift (d.rcvBy b))) c')
  | [], _, _, h => h.setOOO rfl
  | seg :: rest, c, c', h => by
      have hseq : (seg.shift (d.rcvBy b)).seq = seg.seq + d.rcvBy b := rfl
      have hdata : (seg.shift (d.rcvBy b)).data = seg.data := rfl
      rw [List.map_cons, TCPConn.drainOOO, TCPConn.drainOOO, h.rcvNxt, hseq, hdata, seqGreaterThan_add,
        seqLessThan_add, add_sub_add]
      simp only [h.deliverable]
      split_ifs
      · exact h.setOOO rfl
      · exact h.drainOOO rest
      · refine (h.deliver _).setOOO ?_
        rw [add_right_swap]
        rfl
      · exact (h.deliver _).drainOOO rest

theorem Shifted.clearFIN (h : Shifted d b c c') : Shifted d b c.clearFIN c'.clearFIN := by
  obtain ⟨x, hx, rfl⟩ := h.eq_shift
  exact ⟨h.noSACK, h.synced_eq, x, ⟨hx.recovery, by simp [TCPConn.clearFIN], hx.pre⟩, rfl⟩

/-- The position of a deferred FIN is looked at only while there is one. -/
theorem Shifted.deferredFIN (h : Shifted d true c c') :
    Shifted d true c.deferredFIN c'.deferredFIN := by
  obtain ⟨x, hx, hc⟩ := h.eq_shift
  have hcond : c'.rx.rcv.finReceived = true ∧ c'.rx.rcv.nxt = c'.rx.rcv.finSeq ↔
      c.rx.rcv.finReceived = true ∧ c.rx.rcv.nxt = c.rx.rcv.finSeq := by
    rw [hc]
    refine and_congr_right fun hfin => ?_
    show c.rx.rcv.nxt + d.rcv = x.finSeq ↔ _
    rw [hx.fin hfin]
    exact UInt32.add_left_inj _
  rw [TCPConn.deferredFIN, TCPConn.deferredFIN]
  simp only [hcond]
  split
  · exact h.clearFIN.processFIN
  · exact h

theorem Shifted.deliverOOO (h : Shifted d true c c') :
    Shifted d true c.deliverOOO c'.deliverOOO := by
  rw [TCPConn.deliverOOO, TCPConn.deliverOOO, h.ooo]
  exact (h.drainOOO _).deferredFIN

theorem Shifted.skipData (h : Shifted d true c c') (seq : UInt32) (data : List UInt8) :
    Shifted d true (c.skipData seq data) (c'.skipData (seq + d.rcv) data) := by
  have hnxt : (if seq + d.rcv = c'.rx.rcv.nxt then c'.rx.rcv.nxt + UInt32.ofNat data.length
      else c'.rx.rcv.nxt) = (if seq = c.rx.rcv.nxt then c.rx.rcv.nxt + UInt32.ofNat data.length
        else c.rx.rcv.nxt) + d.rcv := by
    have hsum : c'.rx.rcv.nxt = c.rx.rcv.nxt + d.rcv := h.rcvNxt
    simp only [hsum, UInt32.add_left_inj]
    split
    · exact add_right_swap _ _ _
    · rfl
  rw [TCPConn.skipData, TCPConn.skipData, hnxt]
  refine h.of_eq rfl ?_
  rintro x rfl
  rfl

theorem Shifted.acceptData (h : Shifted d true c c') (seq : UInt32) (data : List UInt8) :
    Shifted d true (c.acceptData seq data) (c'.acceptData (seq + d.rcv) data) := by
  have hshut : c'.app.readShutdown = c.app.readShutdown := by rw [h.app]
  have hnxt : c'.rx.rcv.nxt = c.rx.rcv.nxt + d.rcv := h.rcvNxt
  rw [TCPConn.acceptData, TCPConn.acceptData, hshut, hnxt, seqGreaterThan_add, h.deliverable]
  simp only [UInt32.add_left_inj]
  split_ifs
  · exact h.skipData seq data
  · exact (h.deliver data).deliverOOO
  · exact h.deliver data
  · exact h.insertOOO seq data
  · exact h

theorem Shifted.windowData (h : Shifted d true c c') (seq : UInt32) (data : List UInt8) :
    Shifted d true (c.windowData seq data) (c'.windowData (seq + d.rcv) data) := by
  have hend : c'.rx.rcv.nxt + c.rcvWnd = c.rx.rcv.nxt + c.rcvWnd + d.rcv := by
    rw [h.rcvNxt]
    exact add_right_swap _ _ _
  rw [TCPConn.windowData, TCPConn.windowData, h.rcvWnd, hend, add_right_swap seq, seqLessThan_add,
    seqGreaterThan_add, add_sub_add]
  split_ifs
  · exact h
  · exact h
  · exact h.acceptData seq _
  · exact h.acceptData seq _

theorem Shifted.handleData (h : Shifted d true c c') (seq : UInt32) (data : List UInt8) :
    Shifted d true (c.handleData seq data) (c'.handleData (seq + d.rcv) data) := by
  have hnxt : c'.rx.rcv.nxt = c.rx.rcv.nxt + d.rcv := h.rcvNxt
  rw [TCPConn.handleData, TCPConn.handleData, hnxt, seqLessThan_add, add_sub_add]
  split_ifs
  · exact h
  · exact h.noteDuplicate _ _ _ _
  · exact h.windowData _ _
  · exact h.windowData seq data

/-! ### The parts of the handlers -/

theorem Shifted.resetKeepalive (h : Shifted d b c c') :
    Shifted d b c.resetKeepalive c'.resetKeepalive :=
  h.map TCPConn.resetKeepalive (fun _ => rfl) rfl

theorem Shifted.handleRST (h : Shifted d b c c') : Shifted d b c.handleRST c'.handleRST :=
  (h.setState .closed).closeDone

theorem Shifted.resetTimeWait (h : Shifted d b c c') :
    Shifted d b c.resetTimeWait c'.resetTimeWait :=
  h.map TCPConn.resetTimeWait (fun _ => rfl) rfl

theorem Shifted.enterTimeWait (h : Shifted d b c c') :
    Shifted d b c.enterTimeWait c'.enterTimeWait := (h.setState .timeWait).closeReadBuf.resetTimeWait

theorem Shifted.clearPending (h : Shifted d b c c') :
    Shifted d b c.clearPending c'.clearPending :=
  h.map TCPConn.clearPending (fun _ => rfl) rfl

theorem Shifted.finalizeFIN (h : Shifted d true c c') :
    Shifted d true c.finalizeFIN c'.finalizeFIN := by
  rw [finalizeFIN.eq_def, finalizeFIN.eq_def, h.ctl]
  split
  · exact h.clearPending.sendFIN.setState .finWait1
  · exact h.clearPending.sendFIN.setState .lastAck
  · exact h.clearPending

theorem Shifted.flush (h : Shifted d true c c') : Shifted d true c.flush c'.flush := by
  rw [TCPConn.flush, TCPConn.flush, h.ctl]
  split
  · exact h.sendPending
  · exact h

theorem Shifted.finOrDefer (h : Shifted d true c c') :
    Shifted d true c.finOrDefer c'.finOrDefer := by
  rw [TCPConn.finOrDefer, TCPConn.finOrDefer, h.ctl, h.writeBuf]
  split
  · exact h.of_eq rfl fun x hx => by rw [hx]; rfl
  · exact h.finalizeFIN

/-- Before the handshake has ended, and after the end, there is nothing to close. -/
theorem handleClose_outside (h : c.ctl.state = .synRcvd ∨ c.ctl.state = .closed) :
    c.handleClose = c := by
  rw [handleClose.eq_def]
  rcases h with h | h <;> rw [h]

theorem Shifted.handleClose (h : Shifted d true c c') :
    Shifted d true c.handleClose c'.handleClose := by
  rw [handleClose.eq_def, handleClose.eq_def, h.ctl]
  split
  · exact h.flush.finOrDefer
  · exact h.flush.finOrDefer
  · exact h

theorem Shifted.timestamp (h : Shifted d b c c') (seg : Segment) :
    (seg.shift d).timestamp c'.env = seg.timestamp c.env := by
  rw [h.env]
  rfl

theorem Shifted.measureRTTM (h : Shifted d b c c') (seg : Segment) :
    Shifted d b (c.measureRTTM seg) (c'.measureRTTM (seg.shift d)) := by
  have hnow : c'.handlerNow = c.handlerNow := by
    obtain ⟨x, -, rfl⟩ := h.eq_shift; rfl
  rw [measureRTTM.eq_def, measureRTTM.eq_def, h.timestamp, hnow]
  cases seg.timestamp c.env with
  | none => exact h
  | some ts =>
    dsimp only
    split_ifs
    · exact h
    · exact h.of_eq rfl fun x hx => by rw [hx]; rfl
    · exact h.of_eq rfl fun x hx => by rw [hx]; rfl

theorem Shifted.setWnd (h : Shifted d b c c') (seg : Segment) :
    Shifted d b (c.setWnd seg) (c'.setWnd (seg.shift d)) :=
  h.of_eq rfl fun x hx => by rw [hx]; rfl

theorem Shifted.noteMaxWnd (h : Shifted d b c c') : Shifted d b c.noteMaxWnd c'.noteMaxWnd :=
  h.map TCPConn.noteMaxWnd (fun _ => rfl) rfl

/-- Without SACK, blocks are not looked at. -/
theorem Shifted.handleSACK (h : Shifted d b c c') (seg : Segment) :
    Shifted d b (c.handleSACK seg) (c'.handleSACK (seg.shift d)) := by
  have hno : c'.env.sackPermitted = false := by
    rw [h.env]
    exact h.noSACK
  simp only [TCPConn.handleSACK, hno, h.noSACK, Bool.false_and, Bool.false_eq_true, if_false]
  exact h

theorem Shifted.manageZeroWindow (h : Shifted d true c c') :
    Shifted d true c.manageZeroWindow c'.manageZeroWindow := by
  rw [TCPConn.manageZeroWindow, TCPConn.manageZeroWindow, h.sndWnd, h.probing, h.writeBuf]
  split_ifs
  · exact h.cancelZeroWindowProbe.sendPending
  · exact h.checkZeroWindow
  · exact h

theorem Shifted.processACK (h : Shifted d true c c') (seg : Segment) :
    Shifted d true (c.processACK seg) (c'.processACK (seg.shift d)) :=
  (((h.setWnd seg).noteMaxWnd.measureRTTM seg).handleSACK seg).handleACK seg.ack

theorem Shifted.sndWndScale (h : Shifted d b c c') : c'.env.sndWndScale = c.env.sndWndScale := by
  rw [h.env]
  rfl

theorem Shifted.sendOnUpdate (h : Shifted d true c c') (seg : Segment) (oldWnd : UInt32) :
    Shifted d true (c.sendOnUpdate seg oldWnd) (c'.sendOnUpdate (seg.shift d) oldWnd) := by
  have hack : (seg.shift d).ack = c'.tx.snd.una ↔ seg.ack = c.tx.snd.una := by
    rw [h.una]
    exact UInt32.add_left_inj d.snd
  have hwnd : (seg.shift d).wnd = seg.wnd := rfl
  rw [TCPConn.sendOnUpdate, TCPConn.sendOnUpdate, h.sndWndScale, hwnd]
  simp only [hack]
  split
  · exact h.sendPending
  · exact h

theorem Shifted.establishedACK (h : Shifted d true c c') (seg : Segment) :
    Shifted d true (c.establishedACK seg) (c'.establishedACK (seg.shift d)) := by
  have hflags : (seg.shift d).flags = seg.flags := rfl
  rw [TCPConn.establishedACK, TCPConn.establishedACK, h.ctl, h.sndWnd, hflags]
  split
  · exact ((h.processACK seg).sendOnUpdate seg _).manageZeroWindow
  · exact h

theorem Shifted.takePayload (h : Shifted d true c c') (seg : Segment) :
    Shifted d true (c.takePayload seg) (c'.takePayload (seg.shift d)) := by
  rw [TCPConn.takePayload, TCPConn.takePayload, h.ctl]
  split
  · exact h.handleData seg.seq seg.payload
  · exact h

theorem Shifted.clearSegs (h : Shifted d b c c') : Shifted d b c.clearSegs c'.clearSegs :=
  h.map TCPConn.clearSegs (fun _ => rfl) rfl

theorem Shifted.ackNow (h : Shifted d b c c') : Shifted d b c.ackNow c'.ackNow :=
  h.cancelDelayedACK.sendACK.clearSegs

theorem Shifted.countSegment (h : Shifted d b c c') :
    Shifted d b c.countSegment c'.countSegment :=
  h.map TCPConn.countSegment (fun _ => rfl) rfl

theorem Shifted.scheduleACK (h : Shifted d true c c') (seg : Segment) :
    Shifted d true (c.scheduleACK seg) (c'.scheduleACK (seg.shift d)) := by
  have hgap : seqGreaterThan (seg.shift d).seq c'.rx.rcv.nxt = seqGreaterThan seg.seq c.rx.rcv.nxt := by
    rw [h.rcvNxt]
    exact seqGreaterThan_add _ _ _
  have hpayload : (seg.shift d).payload = seg.payload := rfl
  rw [TCPConn.scheduleACK, TCPConn.scheduleACK, h.ctl, h.timers, hgap, hpayload]
  split_ifs
  · exact h
  · exact h.countSegment.ackNow
  · exact h.countSegment.ackNow
  · exact h.countSegment.map TCPConn.delayACK (fun _ => rfl) rfl

/-- The position of the FIN comes to life. -/
theorem Shifted.deferFIN (h : Shifted d true c c') (finSeq : UInt32) :
    Shifted d true (c.deferFIN finSeq) (c'.deferFIN (finSeq + d.rcv)) := by
  obtain ⟨x, hx, rfl⟩ := h.eq_shift
  exact ⟨h.noSACK, h.synced_eq, { x with finSeq := finSeq + d.rcv },
    ⟨hx.recovery, fun _ => rfl, hx.pre⟩, rfl⟩

theorem Shifted.establishedFIN (h : Shifted d true c c') (seg : Segment) :
    Shifted d true (c.establishedFIN seg) (c'.establishedFIN (seg.shift d)) := by
  have hflags : (seg.shift d).flags = seg.flags := rfl
  have hnxt : c'.rx.rcv.nxt = c.rx.rcv.nxt + d.rcv := h.rcvNxt
  rw [TCPConn.establishedFIN, TCPConn.establishedFIN, h.ctl, hflags, hnxt, Segment.finSeq_shift]
  simp only [UInt32.add_left_inj]
  split_ifs
  · exact h.processFIN
  · exact (h.deferFIN seg.finSeq).scheduleACK seg
  · exact h.scheduleACK seg

/-! ### The handlers -/

theorem Shifted.handleEstablished (h : Shifted d true c c') (seg : Segment) :
    Shifted d true (c.handleEstablished seg) (c'.handleEstablished (seg.shift d)) :=
  ((h.resetKeepalive.establishedACK seg).takePayload seg).establishedFIN seg

theorem Shifted.finWait1ACK (h : Shifted d true c c') (seg : Segment) :
    Shifted d true (c.finWait1ACK seg) (c'.finWait1ACK (seg.shift d)) := by
  have hflags : (seg.shift d).flags = seg.flags := rfl
  rw [TCPConn.finWait1ACK, TCPConn.finWait1ACK, h.ctl, hflags]
  split
  · exact ((h.setWnd seg).measureRTTM seg).handleACK seg.ack
  · exact h

theorem Shifted.ackOfFIN (h : Shifted d b c c') (seg : Segment) :
    c'.ackOfFIN (seg.shift d) = c.ackOfFIN seg := by
  rw [TCPConn.ackOfFIN, TCPConn.ackOfFIN, h.ctl, h.hasUnacked]
  rfl

theorem Shifted.resetFinWait2 (h : Shifted d b c c') :
    Shifted d b c.resetFinWait2 c'.resetFinWait2 :=
  h.map TCPConn.resetFinWait2 (fun _ => rfl) rfl

theorem Shifted.finWait1FIN (h : Shifted d true c c') (ackOfFIN : Bool) :
    Shifted d true (c.finWait1FIN ackOfFIN) (c'.finWait1FIN ackOfFIN) := by
  rw [TCPConn.finWait1FIN, TCPConn.finWait1FIN]
  split
  · exact h.countFIN.sendACK.closeReadBuf.enterTimeWait
  · exact h.countFIN.sendACK.closeReadBuf.setState .closing

theorem Shifted.ackPayload (h : Shifted d b c c') (seg : Segment) :
    Shifted d b (c.ackPayload seg) (c'.ackPayload (seg.shift d)) := by
  have hpayload : (seg.shift d).payload = seg.payload := rfl
  rw [TCPConn.ackPayload, TCPConn.ackPayload, hpayload]
  split
  · exact h
  · exact h.sendACK

theorem Shifted.finWait1End (h : Shifted d true c c') (seg : Segment) (ackOfFIN : Bool) :
    Shifted d true (c.finWait1End seg ackOfFIN) (c'.finWait1End (seg.shift d) ackOfFIN) := by
  rw [TCPConn.finWait1End, TCPConn.finWait1End]
  split
  · exact ((h.ackPayload seg).setState .finWait2).resetFinWait2
  · exact h.ackPayload seg

theorem Shifted.handleFinWait1 (h : Shifted d true c c') (seg : Segment) :
    Shifted d true (c.handleFinWait1 seg) (c'.handleFinWait1 (seg.shift d)) := by
  have hflags : (seg.shift d).flags = seg.flags := rfl
  have hack := h.finWait1ACK seg
  rw [TCPConn.handleFinWait1, TCPConn.handleFinWait1, h.ctl, hflags, hack.ackOfFIN]
  split
  · exact (hack.takePayload seg).finWait1FIN _
  · exact (hack.takePayload seg).finWait1End seg _

theorem Shifted.finWait2ACK (h : Shifted d b c c') (seg : Segment) :
    Shifted d b (c.finWait2ACK seg) (c'.finWait2ACK (seg.shift d)) := by
  have hflags : (seg.shift d).flags = seg.flags := rfl
  rw [TCPConn.finWait2ACK, TCPConn.finWait2ACK, h.ctl, hflags]
  split
  · exact h.setWnd seg
  · exact h

theorem Shifted.finWait2Data (h : Shifted d true c c') (seg : Segment) :
    Shifted d true (c.finWait2Data seg) (c'.finWait2Data (seg.shift d)) := by
  have hpayload : (seg.shift d).payload = seg.payload := rfl
  rw [TCPConn.finWait2Data, TCPConn.finWait2Data, h.ctl, hpayload]
  split
  · exact h
  · exact (h.takePayload seg).resetFinWait2

theorem Shifted.handleFinWait2 (h : Shifted d true c c') (seg : Segment) :
    Shifted d true (c.handleFinWait2 seg) (c'.handleFinWait2 (seg.shift d)) := by
  have hflags : (seg.shift d).flags = seg.flags := rfl
  have hdata := (h.finWait2ACK seg).finWait2Data seg
  rw [TCPConn.handleFinWait2, TCPConn.handleFinWait2, h.ctl, hflags]
  split
  · exact hdata.countFIN.sendACK.enterTimeWait
  · exact hdata.ackPayload seg

theorem Shifted.handleCloseWait (h : Shifted d true c c') (seg : Segment) :
    Shifted d true (c.handleCloseWait seg) (c'.handleCloseWait (seg.shift d)) := by
  have hflags : (seg.shift d).flags = seg.flags := rfl
  rw [TCPConn.handleCloseWait, TCPConn.handleCloseWait, h.ctl, hflags]
  split
  · exact ((h.setWnd seg).noteMaxWnd.measureRTTM seg).handleACK seg.ack
  · exact h

theorem Shifted.reACKFIN (h : Shifted d b c c') (seg : Segment) :
    Shifted d b (c.reACKFIN seg) (c'.reACKFIN (seg.shift d)) := by
  have hflags : (seg.shift d).flags = seg.flags := rfl
  rw [TCPConn.reACKFIN, TCPConn.reACKFIN, hflags]
  split
  · exact h.sendACK
  · exact h

theorem Shifted.closingACK (h : Shifted d true c c') (seg : Segment) :
    Shifted d true (c.closingACK seg) (c'.closingACK (seg.shift d)) :=
  (h.measureRTTM seg).handleACK seg.ack

theorem Shifted.handleClosing (h : Shifted d true c c') (seg : Segment) :
    Shifted d true (c.handleClosing seg) (c'.handleClosing (seg.shift d)) := by
  have hflags : (seg.shift d).flags = seg.flags := rfl
  have hack := h.closingACK seg
  rw [TCPConn.handleClosing, TCPConn.handleClosing, h.ctl, hflags, hack.hasUnacked]
  split_ifs
  · exact hack.enterTimeWait
  · exact hack.reACKFIN seg
  · exact h.reACKFIN seg

theorem Shifted.handleLastAck (h : Shifted d true c c') (seg : Segment) :
    Shifted d true (c.handleLastAck seg) (c'.handleLastAck (seg.shift d)) := by
  have hflags : (seg.shift d).flags = seg.flags := rfl
  have hnew : seqGreaterThan (seg.shift d).ack c'.tx.snd.una = seqGreaterThan seg.ack c.tx.snd.una := by
    rw [h.una]
    exact seqGreaterThan_add _ _ _
  rw [TCPConn.handleLastAck, TCPConn.handleLastAck, h.ctl, hflags, h.hasUnacked, hnew]
  split_ifs
  · exact (h.handleACK seg.ack).closeDone
  · exact h
  · exact h

theorem Shifted.handleTimeWait (h : Shifted d b c c') (seg : Segment) :
    Shifted d b (c.handleTimeWait seg) (c'.handleTimeWait (seg.shift d)) := by
  have hflags : (seg.shift d).flags = seg.flags := rfl
  rw [TCPConn.handleTimeWait, TCPConn.handleTimeWait, hflags]
  split
  · exact h.sendACK.resetTimeWait
  · exact h

/-! ### The handshake -/

theorem Shifted.handshakeSender (h : Shifted d b c c') (seg : Segment) :
    c'.handshakeSender (seg.shift d) = (c.handshakeSender seg).shift d.snd Dead.new := by
  have hsnd := newSender_shift d.snd c.env.iss seg.wnd c.env.sndWndScale c.env.handler.mtu
    c.env.peerMSS c.env.cfg
  rw [TCPConn.handshakeSender, TCPConn.handshakeSender, h.env]
  show (if c.env.tsEnabled then _ else _) = _
  split
  · exact congrArg (fun s : Sender => { s with mss := s.mss - 12 }) hsnd
  · exact hsnd

theorem handshakeSender_inRecovery (c : TCPConn) (seg : Segment) :
    (c.handshakeSender seg).inRecovery = false := by
  rw [handshakeSender]
  split <;> rfl

/-- The sender and the receiver are created with shifted numbers. -/
theorem Shifted.establish (h : Shifted d false c c') (seg : Segment) :
    Shifted d true (c.establish seg) (c'.establish (seg.shift d)) := by
  have hsnd := (h.setState .established).handshakeSender seg
  have hts := (h.setState .established).timestamp seg
  have hrec := (c.setState .established).handshakeSender_inRecovery seg
  obtain ⟨x, hx, rfl⟩ := h.eq_shift
  refine ⟨h.noSACK, rfl, Dead.new, ⟨?_, ?_, by simp⟩, ?_⟩
  · intro he
    exact absurd (hrec.symm.trans he) (by simp)
  · intro he
    cases he
  · have hat : c.rx.finAt = [] := hx.pre rfl
    have hrcv := newReceiver_shift d.rcv c.env.irs c.rx.readBuf.cap c.env.cfg.readBufferSize
      c.env.cfg.maxReadBufferSize
    have hlast : (if c.env.tsEnabled then c.env.irs + d.rcv + 1
          else c.wire.tsLastAckSent + d.tsBy false c.env.tsEnabled)
        = (if c.env.tsEnabled then c.env.irs + 1 else c.wire.tsLastAckSent)
          + d.tsBy true c.env.tsEnabled := by
      cases c.env.tsEnabled
      · rfl
      · exact add_right_swap _ _ _
    rw [TCPConn.establish, hsnd, hts]
    simp only [TCPConn.establish, TCPConn.shift, TCPConn.setState, hat, List.map_nil]
    refine congr (congr (congr (congr (congr rfl ?_) rfl) ?_) rfl) rfl
    · exact congrArg (fun r => Rx.mk r _ _ _) hrcv
    · exact congrArg (fun t => Wire.mk _ _ t _) hlast

theorem Shifted.synPayload (h : Shifted d true c c') (seg : Segment) :
    Shifted d true (c.synPayload seg) (c'.synPayload (seg.shift d)) := by
  have hpayload : (seg.shift d).payload = seg.payload := rfl
  rw [TCPConn.synPayload, TCPConn.synPayload, hpayload]
  split
  · exact h
  · exact (h.handleData seg.seq seg.payload).sendACK

/-- The two connections, at the same stage of the handshake. -/
def InStep (d : Shift) (c c' : TCPConn) : Prop := ∃ b, Shifted d b c c'

theorem Shifted.handleSynRcvd (h : Shifted d false c c') (seg : Segment) :
    InStep d (c.handleSynRcvd seg) (c'.handleSynRcvd (seg.shift d)) := by
  have hflags : (seg.shift d).flags = seg.flags := rfl
  have hcfg : c'.env.cfg = c.env.cfg := by rw [h.env]; rfl
  have hseq : (seg.shift d).seq - (c'.env.irs + 1) = seg.seq - (c.env.irs + 1) := by
    rw [h.env]
    show seg.seq + d.rcv - (c.env.irs + d.rcv + 1) = _
    rw [add_right_swap, add_sub_add]
  have hack : (seg.shift d).ack = c'.env.iss + 1 ↔ seg.ack = c.env.iss + 1 := by
    rw [h.env]
    show seg.ack + d.snd = c.env.iss + d.snd + 1 ↔ _
    rw [add_right_swap, UInt32.add_left_inj]
  rw [TCPConn.handleSynRcvd, TCPConn.handleSynRcvd, hflags, hseq, hcfg]
  simp only [ne_eq, hack]
  split_ifs
  · exact ⟨false, h.sendACK⟩
  · exact ⟨true, ((h.establish seg).resetKeepalive.synPayload seg).map TCPConn.handOver
      (fun _ => rfl) rfl⟩
  · exact ⟨false, (h.sendRSTSegment seg.ack).handleRST⟩
  · exact ⟨false, h.sendSYNACK⟩
  · exact ⟨false, h⟩

/-! ### Segments -/

theorem Shifted.pawsDrop (h : Shifted d b c c') (seg : Segment) :
    c'.pawsDrop (seg.shift d) = c.pawsDrop seg := by
  have hrecent : c'.wire.tsRecent = c.wire.tsRecent := by
    obtain ⟨x, -, rfl⟩ := h.eq_shift; rfl
  rw [pawsDrop.eq_def, pawsDrop.eq_def, h.timestamp, hrecent]
  rfl

theorem Shifted.handleRSTSegment (h : Shifted d b c c') (seg : Segment) :
    Shifted d b (c.handleRSTSegment seg) (c'.handleRSTSegment (seg.shift d)) := by
  have hwnd : c'.rstWnd = c.rstWnd := by
    rw [rstWnd, rstWnd, h.ctl, h.rcvWnd, h.env]
    rfl
  have hexact : (seg.shift d).seq = c'.ackNum ↔ seg.seq = c.ackNum := by
    rw [h.ackNum]
    exact UInt32.add_left_inj d.rcv
  have hin : seqWithinWindow (seg.shift d).seq c'.ackNum c.rstWnd
      = seqWithinWindow seg.seq c.ackNum c.rstWnd := by
    rw [h.ackNum]
    exact seqWithinWindow_add _ _ _ _
  rw [TCPConn.handleRSTSegment, TCPConn.handleRSTSegment, hwnd, hin, h.ctl]
  simp only [hexact]
  split_ifs
  · exact h
  · exact h.handleRST
  · exact h.sendACK
  · exact h

/-- `tsLastAckSent` is looked at once the handshake has set it. -/
theorem Shifted.updateTSRecent (h : Shifted d b c c') (seg : Segment) :
    Shifted d b (c.updateTSRecent seg) (c'.updateTSRecent (seg.shift d)) := by
  rw [updateTSRecent.eq_def, updateTSRecent.eq_def, h.timestamp]
  cases hts : seg.timestamp c.env with
  | none => exact h
  | some ts =>
    have hon : c.env.tsEnabled = true := by
      by_contra hoff
      rw [Segment.timestamp, if_neg (by simp [hoff])] at hts
      cases hts
    have hcond : c'.ctl.synced = true ∧ ¬seqGreaterThan (seg.shift d).seq c'.wire.tsLastAckSent = true ↔
        c.ctl.synced = true ∧ ¬seqGreaterThan seg.seq c.wire.tsLastAckSent = true := by
      rw [h.ctl]
      refine and_congr_right fun hs => ?_
      obtain rfl : b = true := h.synced_eq.symm.trans hs
      have hlast : c'.wire.tsLastAckSent = c.wire.tsLastAckSent + d.rcv := by
        obtain ⟨x, -, rfl⟩ := h.eq_shift
        show _ + d.tsBy true c.env.tsEnabled = _
        rw [hon]
        rfl
      rw [hlast]
      exact not_congr (Eq.congr_left (seqGreaterThan_add _ _ _))
    dsimp only
    simp only [hcond]
    split
    · exact h.map (fun c => { c with wire.tsRecent := ts.val }) (fun _ => rfl) rfl
    · exact h

/-- The switch on the state. Without a sender the connection is in SYN_RCVD or closed. -/
theorem Shifted.dispatch (h : Shifted d b c c') (hin : c.ctl.SyncedInside) (hun : Unsynced c)
    (seg : Segment) : InStep d (c.dispatch seg) (c'.dispatch (seg.shift d)) := by
  have hsync := h.synced_eq
  rw [dispatch.eq_def, dispatch.eq_def, h.ctl]
  cases b with
  | false =>
    rcases hin with hs | hst | hst
    · exact absurd (hsync.symm.trans hs) (by simp)
    · rw [hst]
      exact h.handleSynRcvd seg
    · rw [hst]
      exact ⟨false, h⟩
  | true =>
    cases hst : c.ctl.state with
    | synRcvd => exact absurd (hsync.symm.trans (hun hst)) (by simp)
    | established => exact ⟨true, h.handleEstablished seg⟩
    | finWait1 => exact ⟨true, h.handleFinWait1 seg⟩
    | finWait2 => exact ⟨true, h.handleFinWait2 seg⟩
    | closeWait => exact ⟨true, h.handleCloseWait seg⟩
    | closing => exact ⟨true, h.handleClosing seg⟩
    | lastAck => exact ⟨true, h.handleLastAck seg⟩
    | timeWait => exact ⟨true, h.handleTimeWait seg⟩
    | closed => exact ⟨true, h⟩

theorem Shifted.handleSegment (h : Shifted d b c c') (hin : c.ctl.SyncedInside) (hun : Unsynced c)
    (seg : Segment) : InStep d (c.handleSegment seg) (c'.handleSegment (seg.shift d)) := by
  have hflags : (seg.shift d).flags = seg.flags := rfl
  have hctl := (TxOnly.updateTSRecent c seg).ctl
  rw [TCPConn.handleSegment, TCPConn.handleSegment, h.pawsDrop, hflags, h.ctl]
  split_ifs
  · exact ⟨b, h⟩
  · exact ⟨b, h.handleRSTSegment seg⟩
  · exact ⟨b, h.sendACK⟩
  · refine (h.updateTSRecent seg).dispatch ?_ ?_ seg
    · rw [hctl]
      exact hin
    · rw [Unsynced, hctl]
      exact hun

/-! ### The select loop -/

theorem Shifted.armRTO (h : Shifted d b c c') : Shifted d b c.armRTO c'.armRTO := by
  rw [TCPConn.armRTO, TCPConn.armRTO, h.hasUnacked]
  split
  · exact h.map (fun c => { c with tx.rtoTimer := c.after c.tx.snd.rto, ticks := c.ticks + 1 })
      (fun _ => rfl) rfl
  · exact h

theorem Shifted.stopRTO (h : Shifted d b c c') : Shifted d b c.stopRTO c'.stopRTO :=
  h.map TCPConn.stopRTO (fun _ => rfl) rfl

theorem Shifted.manageRTO (h : Shifted d b c c') : Shifted d b c.manageRTO c'.manageRTO := by
  have hsync : c'.ctl.synced = c.ctl.synced := by rw [h.ctl]
  rw [TCPConn.manageRTO, TCPConn.manageRTO, hsync, h.hasUnacked]
  split_ifs
  · exact h
  · exact h.armRTO
  · exact h.stopRTO

theorem Shifted.finIfDrained (h : Shifted d true c c') :
    Shifted d true c.finIfDrained c'.finIfDrained := by
  rw [TCPConn.finIfDrained, TCPConn.finIfDrained, h.writeBuf]
  split
  · exact h.finalizeFIN
  · exact h

theorem Shifted.drainForFIN (h : Shifted d b c c') : Shifted d b c.drainForFIN c'.drainForFIN := by
  rw [TCPConn.drainForFIN, TCPConn.drainForFIN, h.ctl]
  split
  · rename_i hs
    obtain rfl : b = true := h.synced_eq.symm.trans hs.2
    exact h.sendPending.finIfDrained
  · exact h

theorem Shifted.onInbound (h : Shifted d b c c') (hin : c.ctl.SyncedInside) (hun : Unsynced c)
    (seg : Segment) : InStep d (c.onInbound seg) (c'.onInbound (seg.shift d)) := by
  obtain ⟨b', hseg⟩ := h.handleSegment hin hun seg
  exact ⟨b', hseg.manageRTO.drainForFIN⟩

theorem Shifted.onRTO (h : Shifted d b c c') : Shifted d b c.onRTO c'.onRTO := by
  rw [TCPConn.onRTO, TCPConn.onRTO, h.ctl]
  split
  · rename_i hs
    obtain rfl : b = true := h.synced_eq.symm.trans hs
    have hrto := h.stopRTO.handleRTO
    rw [TCPConn.rearmRTO, TCPConn.rearmRTO, hrto.ctl]
    split
    · exact hrto.armRTO
    · exact hrto
  · exact h.stopRTO

theorem Shifted.onDelayedACK (h : Shifted d b c c') :
    Shifted d b c.onDelayedACK c'.onDelayedACK := h.ackNow

theorem Shifted.onZeroWindow (h : Shifted d b c c') :
    Shifted d b c.onZeroWindow c'.onZeroWindow := by
  have hstop := h.map TCPConn.stopZeroWindow (fun _ => rfl) rfl
  rw [TCPConn.onZeroWindow, TCPConn.onZeroWindow, h.ctl, h.probing]
  split
  · rename_i hs
    obtain rfl : b = true := h.synced_eq.symm.trans hs.1
    exact hstop.sendZeroWindowProbe.map TCPConn.nextProbe (fun _ => rfl) rfl
  · exact hstop

theorem Shifted.exitRun (h : Shifted d b c c') : Shifted d b c.exitRun c'.exitRun :=
  h.closeDone.map (fun c => { c with
    ctl.running := false
    timers := { c.timers with
      delayedACKTimer := Timer.stopped
      keepaliveTimer := Timer.stopped
      timeWaitTimer := Timer.stopped
      finWait2Timer := Timer.stopped
      synRcvdTimer := Timer.stopped }
    tx := { c.tx with rtoTimer := Timer.stopped, zeroWindowTimer := Timer.stopped } }) (fun _ => rfl) rfl

theorem Shifted.keepaliveFired (h : Shifted d b c c') (probes : ℤ) :
    Shifted d b (c.keepaliveFired probes) (c'.keepaliveFired probes) :=
  h.map (·.keepaliveFired probes) (fun _ => rfl) rfl

theorem Shifted.setKeepalive (h : Shifted d b c c') (t : ℤ) :
    Shifted d b (c.setKeepalive t) (c'.setKeepalive t) :=
  h.map (·.setKeepalive t) (fun _ => rfl) rfl

theorem Shifted.cfg (h : Shifted d b c c') : c'.env.cfg = c.env.cfg := by
  rw [h.env]
  rfl

theorem Shifted.onKeepalive (h : Shifted d b c c') :
    Shifted d b c.onKeepalive c'.onKeepalive := by
  simp only [TCPConn.onKeepalive, h.ctl, h.timers, h.hasUnacked, h.cfg]
  split_ifs with hs
  · exact (h.keepaliveFired _).setKeepalive _
  · obtain rfl : b = true := h.synced_eq.symm.trans hs.2
    have hnxt : c'.tx.snd.nxt = c.tx.snd.nxt + d.snd := h.nxt
    rw [hnxt]
    exact ((h.keepaliveFired _).sendRSTSegment _).exitRun
  · obtain rfl : b = true := h.synced_eq.symm.trans hs.2
    exact (h.keepaliveFired _).sendKeepaliveProbe.setKeepalive _
  · exact h.keepaliveFired _

theorem Shifted.onWriteNotifySend (h : Shifted d true c c') :
    Shifted d true c.onWriteNotifySend c'.onWriteNotifySend := by
  have htaken := h.map (fun c => { c with app.writeNotify := false }) (fun _ => rfl) rfl
  have hsent := htaken.sendPending.resetKeepalive.checkZeroWindow
  refine Shifted.armRTO ?_
  rw [TCPConn.piggyback, TCPConn.piggyback, hsent.timers]
  split
  · exact hsent.cancelDelayedACK.clearSegs
  · exact hsent

theorem Shifted.onWriteNotify (h : Shifted d b c c') :
    Shifted d b c.onWriteNotify c'.onWriteNotify := by
  have hsync : c'.ctl.synced = c.ctl.synced := by rw [h.ctl]
  have hpend : c'.ctl.finPending = c.ctl.finPending := by rw [h.ctl]
  rw [TCPConn.onWriteNotify, TCPConn.onWriteNotify, hsync, hpend]
  split_ifs with hs
  · obtain rfl : b = true := h.synced_eq.symm.trans hs
    exact h.onWriteNotifySend.finIfDrained
  · obtain rfl : b = true := h.synced_eq.symm.trans hs
    exact h.onWriteNotifySend
  · exact h.map (fun c => { c with app.writeNotify := false }) (fun _ => rfl) rfl

theorem Shifted.onWindowNotify (h : Shifted d b c c') :
    Shifted d b c.onWindowNotify c'.onWindowNotify := by
  have hsync : c'.ctl.synced = c.ctl.synced := by rw [h.ctl]
  have htaken := h.map (fun c => { c with app.windowNotify := false }) (fun _ => rfl) rfl
  simp only [TCPConn.onWindowNotify, hsync, h.wnd, h.lastWndZero]
  split
  · have hcleared := htaken.map (fun c => { c with wire.lastWndZero := false }) (fun _ => rfl) rfl
    exact hcleared.sendACK.clearSegs
  · exact htaken

theorem Shifted.onClose (h : Shifted d b c c') (hin : c.ctl.SyncedInside) :
    Shifted d b c.onClose c'.onClose := by
  have hsync : c'.ctl.synced = c.ctl.synced := by rw [h.ctl]
  have htaken := h.map (fun c => { c with app.closeCh := false }) (fun _ => rfl) rfl
  rw [TCPConn.onClose, TCPConn.onClose, hsync]
  cases b with
  | true =>
    split
    · exact htaken.handleClose.armRTO
    · exact htaken.handleClose
  | false =>
    have hs := h.synced_eq
    have hst := hin.resolve_left (by simp [hs])
    have hst' : c'.ctl.state = .synRcvd ∨ c'.ctl.state = .closed := by
      rw [h.ctl]
      exact hst
    rw [if_neg (by simp [hs]), if_neg (by simp [hs]),
      handleClose_outside (c := { c with app.closeCh := false }) hst,
      handleClose_outside (c := { c' with app.closeCh := false }) hst']
    exact htaken

theorem Shifted.onForceClose (h : Shifted d b c c') :
    Shifted d b c.onForceClose c'.onForceClose := by
  rw [TCPConn.onForceClose, TCPConn.onForceClose, h.ctl]
  split
  · rename_i hs
    obtain rfl : b = true := h.synced_eq.symm.trans hs.2
    have hnxt : c'.tx.snd.nxt = c.tx.snd.nxt + d.snd := h.nxt
    rw [hnxt]
    exact ((h.sendRSTSegment _).map TCPConn.forceCloseBufs (fun _ => rfl) rfl).exitRun
  · exact (h.map TCPConn.forceCloseBufs (fun _ => rfl) rfl).exitRun

theorem Shifted.onSynRcvdTimer (h : Shifted d b c c') :
    Shifted d b c.onSynRcvdTimer c'.onSynRcvdTimer := by
  have hfired := h.map (fun c => { c with timers.synRcvdTimer := Timer.stopped }) (fun _ => rfl) rfl
  have hstate : c'.ctl.state = c.ctl.state := by rw [h.ctl]
  rw [TCPConn.onSynRcvdTimer, TCPConn.onSynRcvdTimer, hstate]
  split
  · exact hfired.exitRun
  · exact hfired

theorem Shifted.onFinWait2Timer (h : Shifted d b c c') :
    Shifted d b c.onFinWait2Timer c'.onFinWait2Timer := by
  have hfired := h.map (fun c => { c with timers.finWait2Timer := Timer.stopped }) (fun _ => rfl) rfl
  have hstate : c'.ctl.state = c.ctl.state := by rw [h.ctl]
  rw [TCPConn.onFinWait2Timer, TCPConn.onFinWait2Timer, hstate]
  split
  · exact hfired.exitRun
  · exact hfired

/-! ### The application's calls -/

theorem Shifted.closeWrite (h : Shifted d b c c') : Shifted d b c.closeWrite c'.closeWrite := by
  have honce : c'.app.closeOnce = c.app.closeOnce := by rw [h.app]
  rw [TCPConn.closeWrite, TCPConn.closeWrite, honce]
  split
  · exact h
  · exact h.map (fun c => { c with
      app := { c.app with closeOnce := true, writeShutdown := true, closeCh := true }
      tx.writeBuf := c.tx.writeBuf.closeWrite }) (fun _ => rfl) rfl

theorem Shifted.closeRead (h : Shifted d b c c') : Shifted d b c.closeRead c'.closeRead := by
  have hshut : c'.app.readShutdown = c.app.readShutdown := by rw [h.app]
  rw [TCPConn.closeRead, TCPConn.closeRead, hshut]
  split
  · exact h
  · exact h.map
      (fun c => { c with app.readShutdown := true, rx.readBuf := c.rx.readBuf.closeWrite })
      (fun _ => rfl) rfl

theorem Shifted.growWriteBuf (h : Shifted d b c c') :
    Shifted d b c.growWriteBuf c'.growWriteBuf := by
  have hcap : c'.tx.writeBuf.cap = c.tx.writeBuf.cap := by rw [h.writeBuf]
  rw [TCPConn.growWriteBuf, TCPConn.growWriteBuf, h.cfg, hcap]
  split
  · exact h.of_eq rfl fun x hx => by rw [hx]; rfl
  · exact h

end TCPConn

open TCPConn

/-! ### Runs -/

/-- Two systems whose connections are in step; the application's calls stand at the same places. -/
structure SysShifted (d : Shift) (s s' : Sys) : Prop where
  conn : InStep d s.conn s'.conn
  writers : s'.writers = s.writers
  readers : s'.readers = s.readers

variable {s s' : Sys}

/-- A step of one connection alone. -/
theorem SysShifted.setConn (h : SysShifted d s s') {c c' : TCPConn} (hc : InStep d c c') :
    SysShifted d { s with conn := c } { s' with conn := c' } := ⟨hc, h.writers, h.readers⟩

theorem SysShifted.setWriter (h : SysShifted d s s') (g : ℕ) (w : Writer) :
    SysShifted d (s.setWriter g w) (s'.setWriter g w) := by
  refine ⟨h.conn, ?_, h.readers⟩
  show Function.update s'.writers g w = Function.update s.writers g w
  rw [h.writers]

/-- A select case is enabled in both systems or in none. -/
theorem SysShifted.onLoop (h : SysShifted d s s') {enabled enabled' : Bool} (he : enabled' = enabled)
    {c c' : TCPConn} (hc : InStep d c c') :
    Option.Rel (SysShifted d) (s.onLoop enabled c) (s'.onLoop enabled' c') := by
  obtain ⟨b, hs⟩ := h.conn
  rw [Sys.onLoop, Sys.onLoop, he, hs.ctl]
  split
  · exact .some (h.setConn hc)
  · exact .none

theorem SysShifted.loopStep (h : SysShifted d s s') (hin : s.conn.ctl.SyncedInside)
    (hun : Unsynced s.conn) (e : Event) :
    Option.Rel (SysShifted d) (s.loopStep e) (s'.loopStep (e.shift d)) := by
  obtain ⟨b, hc⟩ := h.conn
  have hrto : s'.conn.tx.rtoTimer = s.conn.tx.rtoTimer := by
    obtain ⟨x, -, hx⟩ := hc.eq_shift
    rw [hx]
    rfl
  have hzero : s'.conn.tx.zeroWindowTimer = s.conn.tx.zeroWindowTimer := by
    obtain ⟨x, -, hx⟩ := hc.eq_shift
    rw [hx]
    rfl
  cases e
  case inbound seg => exact h.onLoop rfl (hc.onInbound hin hun seg)
  case rtoTimer => exact h.onLoop (by rw [hrto]) ⟨b, hc.onRTO⟩
  case delayedACKTimer => exact h.onLoop (by rw [hc.timers]) ⟨b, hc.onDelayedACK⟩
  case zeroWindowTimer => exact h.onLoop (by rw [hzero]) ⟨b, hc.onZeroWindow⟩
  case keepaliveTimer => exact h.onLoop (by rw [hc.timers]) ⟨b, hc.onKeepalive⟩
  case writeNotify => exact h.onLoop (by rw [hc.app]) ⟨b, hc.onWriteNotify⟩
  case windowNotify => exact h.onLoop (by rw [hc.app]) ⟨b, hc.onWindowNotify⟩
  case closeCh => exact h.onLoop (by rw [hc.app]) ⟨b, hc.onClose hin⟩
  case forceCloseCh => exact h.onLoop (by rw [hc.app]) ⟨b, hc.onForceClose⟩
  case synRcvdTimer => exact h.onLoop (by rw [hc.timers]) ⟨b, hc.onSynRcvdTimer⟩
  case finWait2Timer => exact h.onLoop (by rw [hc.timers]) ⟨b, hc.onFinWait2Timer⟩
  case timeWaitTimer => exact h.onLoop (by rw [hc.timers]) ⟨b, hc.exitRun⟩
  case done => exact h.onLoop (by rw [hc.ctl]) ⟨b, hc.exitRun⟩
  all_goals exact .none

theorem SysShifted.copyStep (h : SysShifted d s s') (g : ℕ) (rest : List UInt8) (written : ℕ) :
    SysShifted d (s.copyStep g rest written) (s'.copyStep g rest written) := by
  obtain ⟨b, hc⟩ := h.conn
  rw [Sys.copyStep, Sys.copyStep, hc.writeBuf]
  dsimp only
  split_ifs
  · exact h.setWriter g _
  · exact h.setWriter g _
  · exact (h.setConn ⟨b, hc.map (·.copyChunk rest) (fun _ => rfl) rfl⟩).setWriter g _

theorem SysShifted.writeStep (h : SysShifted d s s') (e : Event) :
    Option.Rel (SysShifted d) (s.writeStep e) (s'.writeStep e) := by
  obtain ⟨b, hc⟩ := h.conn
  have hpc : ∀ g, s'.writers g = s.writers g := fun g => congrFun h.writers g
  have hshut : s'.conn.app.writeShutdown = s.conn.app.writeShutdown := by rw [hc.app]
  cases e
  case writeCall g data =>
    rw [Sys.writeStep, Sys.writeStep, hpc, hshut]
    split_ifs
    · exact .some h
    · exact .some ((h.setConn ⟨b, hc.growWriteBuf⟩).setWriter g _)
    · exact .none
  case writeCopy g =>
    rw [Sys.writeStep, Sys.writeStep, hpc]
    split
    · exact .some (h.copyStep g _ _)
    · exact .none
  case writeWake g =>
    rw [Sys.writeStep, Sys.writeStep, hpc, hc.writeBuf]
    split
    · split_ifs
      · exact .some (h.setWriter g _)
      · exact .none
    · exact .none
  case writeAbort g =>
    rw [Sys.writeStep, Sys.writeStep, hpc, hc.ctl]
    split
    · split_ifs
      · exact .some (h.setWriter g _)
      · exact .none
    · exact .none
  case writeReturn g =>
    have hnotify : s'.conn.app.writeNotify = s.conn.app.writeNotify := by rw [hc.app]
    rw [Sys.writeStep, Sys.writeStep, hpc, hnotify]
    split
    · rename_i written _
      have hset := hc.map (fun c => { c with
        app.writeNotify := s.conn.app.writeNotify || decide (written > 0) }) (fun _ => rfl) rfl
      exact .some ((h.setConn ⟨b, hset⟩).setWriter g _)
    · exact .none
  all_goals exact .none

theorem SysShifted.appStep (h : SysShifted d s s') (e : Event) :
    Option.Rel (SysShifted d) (s.appStep e) (s'.appStep e) := by
  obtain ⟨b, hc⟩ := h.conn
  cases e
  case readCall n =>
    have hread : Shifted d b { s.conn with rx.readBuf := (s.conn.rx.readBuf.readNoBlock n).1 }
        { s'.conn with rx.readBuf := (s'.conn.rx.readBuf.readNoBlock n).1 } :=
      hc.map (fun c => { c with rx.readBuf := (c.rx.readBuf.readNoBlock n).1 }) (fun _ => rfl) rfl
    have hlen : s'.conn.rx.readBuf.len = s.conn.rx.readBuf.len := by rw [hc.readBuf]
    rw [Sys.appStep, Sys.appStep, hlen, h.readers]
    split
    · exact .some ⟨⟨b, hread⟩, h.writers, rfl⟩
    · exact .none
  case readReturn =>
    rw [Sys.appStep, Sys.appStep, h.readers]
    split
    · have hset := hc.map (fun c => { c with app.windowNotify := true }) (fun _ => rfl) rfl
      exact .some ⟨⟨b, hset⟩, h.writers, rfl⟩
    · exact .none
  case closeWrite => exact .some (h.setConn ⟨b, hc.closeWrite⟩)
  case closeRead => exact .some (h.setConn ⟨b, hc.closeRead⟩)
  case setNoDelay on =>
    exact .some (h.setConn ⟨b, hc.map (fun c => { c with app.noDelay := on }) (fun _ => rfl) rfl⟩)
  all_goals exact .none

/-- Every event does the same in both systems, or happens in neither. -/
theorem SysShifted.step (h : SysShifted d s s') (hin : s.conn.ctl.SyncedInside)
    (hun : Unsynced s.conn) (e : Event) :
    Option.Rel (SysShifted d) (s.step e) (s'.step (e.shift d)) := by
  obtain ⟨b, hc⟩ := h.conn
  have hfault : s'.conn.fault = s.conn.fault := by
    obtain ⟨x, -, hx⟩ := hc.eq_shift
    rw [hx]
    rfl
  have hover : s'.conn.ctl.handedOver = s.conn.ctl.handedOver := by rw [hc.ctl]
  rw [Sys.step.eq_def, Sys.step.eq_def, hfault]
  split
  · exact .none
  · cases e
    case forceClose =>
      have hset := hc.map (fun c => { c with app.forceCloseCh := true }) (fun _ => rfl) rfl
      exact .some (h.setConn ⟨b, hset⟩)
    case writeCall | writeCopy | writeWake | writeAbort | writeReturn =>
      dsimp only [Event.shift]
      rw [hover]
      split
      · exact h.writeStep _
      · exact .none
    case readCall | readReturn | closeWrite | closeRead | setNoDelay =>
      dsimp only [Event.shift]
      rw [hover]
      split
      · exact h.appStep _
      · exact .none
    all_goals exact h.loopStep hin hun _

/-- The SYN that opens the second connection, and the answer to it, are shifted. -/
theorem sysShifted_start {h : TCPHandler} {options : List UInt8}
    (hsack : (parseSynOptions options).sackPermit = false) (d : Shift) (irs iss : UInt32)
    (hr : 0 < h.cfg.initialReadBufferSize.toNat) (hw : 0 < h.cfg.initialWriteBufferSize.toNat) :
    SysShifted d (Sys.start h irs iss options hr hw)
      (Sys.start h (irs + d.rcv) (iss + d.snd) options hr hw) := by
  refine ⟨⟨false, Shifted.sendSYNACK ?_⟩, rfl, rfl⟩
  exact ⟨hsack, rfl, Dead.new, ⟨by simp [nilSender], by simp [nilReceiver], fun _ => rfl⟩, rfl⟩

/-- The run of a SYN starts where `handleSYN` leaves the connection. -/
theorem AfterSYN.eq_start {h : TCPHandler} {irs iss : UInt32} {options : List UInt8} {s : Sys}
    (hs : AfterSYN h irs iss options s) : ∃ (hr : 0 < h.cfg.initialReadBufferSize.toNat)
      (hw : 0 < h.cfg.initialWriteBufferSize.toNat),
      (∃ cfg : Config, h.cfg = cfg.clamp) ∧ s = Sys.start h irs iss options hr hw := by
  obtain ⟨h', irs', iss', options', hr', hw', hcfg, rfl⟩ := Sys.init_iff.1 hs.1
  obtain rfl : h' = h := congrArg Env.handler hs.env.1
  have hsyn := hs.2
  rw [TCPHandler.handleSYN, dif_pos hr', dif_pos hw'] at hsyn
  exact ⟨hr', hw', hcfg, congrArg (fun c => Sys.mk c _ _) (Option.some.inj hsyn).symm⟩

/-- Two systems in step, the first in a state that it can reach. -/
def ReachShifted (d : Shift) (s s' : Sys) : Prop :=
  Reach Sys.Init Sys.step (fun _ _ => True) s ∧ SysShifted d s s'

/-- A step of the first system is answered by the shifted step of the second. -/
theorem simulates_shift (d : Shift) :
    Simulates Sys.step (fun _ _ => True) Sys.step (ReachShifted d) (Event.shift d) := by
  rintro s t e s' ⟨hr, h⟩ - hstep
  have hrel := h.step (syncedInside_reach hr) (unsynced_reach hr) e
  rw [hstep] at hrel
  generalize t.step (e.shift d) = o at hrel ⊢
  cases hrel with
  | some hnext => exact ⟨_, rfl, hr.next trivial hstep, hnext⟩

/-- SAFE: the sequence numbers are a choice of coordinates. Without SACK, for every run and all
    constants, the connection with shifted initial numbers that gets the shifted segments makes the
    shifted run: the same bytes, states, timers and packets, with only the numbers shifted, and the
    same events are possible at its end. -/
theorem shift_equivariant (d : Shift) {h : TCPHandler} {irs iss : UInt32} {options : List UInt8}
    (hsack : (parseSynOptions options).sackPermit = false) {s₀ : Sys}
    (h₀ : AfterSYN h irs iss options s₀) {es : List Event} {s : Sys}
    (hrun : Run Sys.step (fun _ _ => True) s₀ es s) :
    ∃ s₀' s', AfterSYN h (irs + d.rcv) (iss + d.snd) options s₀' ∧
      Run Sys.step (fun _ _ => True) s₀' (es.map (Event.shift d)) s' ∧ SysShifted d s s' ∧
      ∀ e, (s'.step (e.shift d)).isSome = (s.step e).isSome := by
  obtain ⟨hr, hw, hcfg, rfl⟩ := h₀.eq_start
  have hstart := sysShifted_start hsack d irs iss hr hw
  obtain ⟨s', hrun', hreach, hend⟩ := Simulates.run (R := ReachShifted d) (g := Event.shift d)
    (simulates_shift d) hrun ⟨.start h₀.1, hstart⟩
  refine ⟨_, s', ⟨Sys.init_iff.2 ⟨h, _, _, _, hr, hw, hcfg, rfl⟩, ?_⟩, hrun', hend, fun e => ?_⟩
  · rw [TCPHandler.handleSYN, dif_pos hr, dif_pos hw]
    rfl
  · have hrel := hend.step (syncedInside_reach hreach) (unsynced_reach hreach) e
    generalize s.step e = o, s'.step (e.shift d) = o' at hrel ⊢
    cases hrel <;> rfl

/-- Our numbers start at 0, and the peer's run past the largest one with the second byte. -/
def Shift.toWrap : Shift := ⟨0xFFFFFF38, 0xFFFFFF99⟩

/-- Four bytes across the wrap. -/
theorem shift_equivariant_wrap : ∃ s₀ s s₀' s' : Sys,
    AfterSYN (Sys.sampleHandler 8 4) 100 200 [] s₀ ∧
    Run Sys.step (fun _ _ => True) s₀
      [Sys.sampleACK, .inbound (Sys.sampleSegment tcpFlagACK 101 201 1000 [1, 2, 3, 4])] s ∧
    AfterSYN (Sys.sampleHandler 8 4) (100 + Shift.toWrap.rcv) (200 + Shift.toWrap.snd) [] s₀' ∧
    Run Sys.step (fun _ _ => True) s₀'
      [Event.shift .toWrap Sys.sampleACK,
        Event.shift .toWrap (.inbound (Sys.sampleSegment tcpFlagACK 101 201 1000 [1, 2, 3, 4]))] s' ∧
    SysShifted .toWrap s s' ∧ s.conn.rx.rcv.nxt = 105 ∧ s'.conn.rx.rcv.nxt = 2 ∧
    s'.conn.rx.delivered = [1, 2, 3, 4] := by
  have hsyn : AfterSYN (Sys.sampleHandler 8 4) 100 200 [] (Sys.sampleSYN []) :=
    ⟨Sys.init_iff.2 ⟨_, _, _, _, _, _, ⟨(Sys.sampleHandler 8 4).cfg, rfl⟩, rfl⟩, rfl⟩
  obtain ⟨s, hrun, hsync, hnxt, hdata⟩ := exists_run_exec Sys.step (fun _ _ => True)
    (Sys.sampleSYN [])
    [Sys.sampleACK, .inbound (Sys.sampleSegment tcpFlagACK 101 201 1000 [1, 2, 3, 4])]
    (fun s => s.conn.ctl.synced = true ∧ s.conn.rx.rcv.nxt = 105 ∧
      s.conn.rx.delivered = [1, 2, 3, 4]) (by decide +kernel)
  obtain ⟨s₀', s', hsyn', hrun', hshift, -⟩ := shift_equivariant .toWrap (by decide) hsyn hrun
  obtain ⟨b, hc⟩ := hshift.conn
  obtain rfl : b = true := hc.synced_eq.symm.trans hsync
  refine ⟨_, s, s₀', s', hsyn, hrun, hsyn', hrun', hshift, hnxt, ?_, ?_⟩
  · rw [hc.rcvNxt, hnxt]
    rfl
  · rw [hc.delivered]
    exact hdata

end Netstack.Tcp
