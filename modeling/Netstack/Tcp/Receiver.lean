import Netstack.Tcp.Sender

/-! The receive side (`rcv.go`, `processFIN` of `conn.go`).

    `handleData` trims a segment to what is new and inside the window and then either delivers it to
    `readBuf`, together with the out-of-order data it makes contiguous, or files it in the
    out-of-order list. The list is handled as the source's slice is: the entry before the insertion
    point, the entry at it, and the ones after it that are absorbed. -/

namespace Netstack.Tcp
open Netstack.Header

/-- The sequence number after an out-of-order entry. -/
def OOOSegment.stop (e : OOOSegment) : UInt32 := e.seq + UInt32.ofNat e.data.length

/-- `newReceiver`, for a `readBuf` of capacity `cap`. -/
def newReceiver (irs : UInt32) (cap : ℕ) (readBufSize maxBufSize : ℤ) : Receiver :=
  let tuned := readBufSize > cap ∨ maxBufSize > cap
  { nxt := irs + 1
    ooo := []
    finReceived := false
    finSeq := 0
    dsackBlock := ⟨0, 0⟩
    hasDSACKBlock := false
    autoTune :=
      { measureStart := none
        bytesDelivered := 0
        readBufSize := if tuned then readBufSize else 0
        maxBufSize := if tuned then maxBufSize else 0 } }

/-- Whether the range `[seq, stop)` is judged to lie inside an entry already stored. -/
def covered (ooo : List OOOSegment) (seq stop : UInt32) : Bool :=
  ooo.any fun e => !seqLessThan seq e.seq && !seqGreaterThan stop e.stop

/-- `e` extended by what `[seq, seq + len)` has beyond its end. -/
def OOOSegment.extend (e : OOOSegment) (seq : UInt32) (data : List UInt8) : OOOSegment :=
  if seqGreaterThan (seq + UInt32.ofNat data.length) e.stop then
    { e with data := e.data ++ data.drop (e.stop - seq).toNat }
  else e

/-- The forward merge of `insertOOO`: `cur` takes in the entries it reaches. -/
def absorb (cur : OOOSegment) : List OOOSegment → List OOOSegment
  | [] => [cur]
  | next :: rest =>
    if seqLessThan cur.stop next.seq then cur :: next :: rest
    else absorb (cur.extend next.seq next.data) rest

/-- The entries after the insertion point, without one that the new entry replaces. -/
def replaced (seq : UInt32) : List OOOSegment → List OOOSegment
  | [] => []
  | e :: rest => if e.seq = seq then rest else e :: rest

/-- The list after the insertion of `insertOOO`: `before` are the entries that start before `seq`,
    `after` the others. -/
def mergeOOO (before after : List OOOSegment) (seq : UInt32) (data : List UInt8) :
    List OOOSegment :=
  let fresh := before ++ absorb ⟨seq, data⟩ (replaced seq after)
  match before.getLast? with
  | some prev =>
    if !seqLessThan prev.stop seq then before.dropLast ++ absorb (prev.extend seq data) after
    else fresh
  | none => fresh

namespace Receiver

/-- The DSACK block a duplicate segment leaves for the next ACK. -/
def noteDuplicate (r : Receiver) (start stop : UInt32) : Receiver :=
  { r with dsackBlock := ⟨start, stop⟩, hasDSACKBlock := true }

/-- `insertOOO`. -/
def insertOOO (r : Receiver) (seq : UInt32) (data : List UInt8) : Receiver :=
  let stop := seq + UInt32.ofNat data.length
  if covered r.ooo seq stop then r.noteDuplicate seq stop
  else
    { r with
      ooo := mergeOOO (r.ooo.takeWhile fun e => seqLessThan e.seq seq)
        (r.ooo.dropWhile fun e => seqLessThan e.seq seq) seq data }

end Receiver

namespace TCPConn

/-- `autoTuneCheck`: the capacity it asks `Grow` for. -/
def autoTuneCap (c : TCPConn) : ℤ :=
  let t := c.rx.rcv.autoTune
  let curCap : ℤ := c.rx.readBuf.cap
  if t.readBufSize > 0 ∧ curCap < t.readBufSize then
    if t.bytesDelivered > 0 then min (curCap * 2) t.readBufSize else curCap
  else if t.bytesDelivered > curCap / 2 ∧ curCap < t.maxBufSize then min (curCap * 2) t.maxBufSize
  else curCap

/-- `autoTuneCheck`. -/
def autoTuneCheck (c : TCPConn) : TCPConn :=
  { c with
    rx.readBuf := c.rx.readBuf.grow c.autoTuneCap.toNat
    rx.rcv.autoTune :=
      { c.rx.rcv.autoTune with measureStart := some c.now, bytesDelivered := 0 }
    ticks := c.ticks + 1 }

/-- The bytes are counted, and the measurement is started if it was not. -/
def countDelivered (c : TCPConn) (n : ℕ) : TCPConn :=
  { c with
    rx.rcv.autoTune := { c.rx.rcv.autoTune with
      measureStart := some (c.rx.rcv.autoTune.measureStart.getD c.now)
      bytesDelivered := c.rx.rcv.autoTune.bytesDelivered + n }
    ticks := c.ticks + 1 }

/-- `autoTuneAccumulate`: the check is due once the measurement has run for a round trip. -/
def autoTuneAccumulate (c : TCPConn) (n : ℕ) : TCPConn :=
  let t := c.rx.rcv.autoTune
  if t.maxBufSize ≤ 0 ∧ t.readBufSize ≤ 0 then c
  else if c.tx.snd.srtt ≤ 0 then c.countDelivered n
  else if c.now - t.measureStart.getD c.now < c.tx.snd.srtt then c.countDelivered n
  else (c.countDelivered n).autoTuneCheck

/-- The count `deliver` returns: how much of `data` `readBuf` takes. -/
def deliverable (c : TCPConn) (data : List UInt8) : ℕ := (c.rx.readBuf.writeNoBlock data).2

/-- `data` written to `readBuf`, and `rcv.nxt` advanced by what was written. -/
def writeData (c : TCPConn) (data : List UInt8) : TCPConn :=
  { c with
    rx.readBuf := (c.rx.readBuf.writeNoBlock data).1
    rx.delivered := c.rx.delivered ++ data.take (c.deliverable data)
    rx.rcv.nxt := c.rx.rcv.nxt + UInt32.ofNat (c.deliverable data) }

/-- `deliver`, and the advance of `rcv.nxt` that follows each call of it. -/
def deliver (c : TCPConn) (data : List UInt8) : TCPConn :=
  if c.deliverable data > 0 then (c.writeData data).autoTuneAccumulate (c.deliverable data)
  else c.writeData data

/-- `cancelDelayedACK`. -/
def cancelDelayedACK (c : TCPConn) : TCPConn := { c with timers.delayedACKTimer := Timer.stopped }

/-- The FIN is counted: `rcv.nxt++`. -/
def countFIN (c : TCPConn) : TCPConn :=
  { c with rx.rcv.nxt := c.rx.rcv.nxt + 1, rx.finAt := c.rx.finAt ++ [c.rx.rcv.nxt] }

/-- `readBuf.CloseWrite()`, unless the application has shut down reading. -/
def closeReadBuf (c : TCPConn) : TCPConn :=
  { c with rx.readBuf := if c.app.readShutdown then c.rx.readBuf else c.rx.readBuf.closeWrite }

/-- `processFIN`. -/
def processFIN (c : TCPConn) : TCPConn :=
  c.countFIN.cancelDelayedACK.sendACK.closeReadBuf.setState .closeWait

/-- The loop of `deliverOOO`, over the entries left. -/
def drainOOO : List OOOSegment → TCPConn → TCPConn
  | [], c => { c with rx.rcv.ooo := [] }
  | seg :: rest, c =>
    if seqGreaterThan seg.seq c.rx.rcv.nxt then { c with rx.rcv.ooo := seg :: rest }
    else
      let overlap := c.rx.rcv.nxt - seg.seq
      if seqLessThan seg.seq c.rx.rcv.nxt && decide (overlap ≥ UInt32.ofNat seg.data.length) then
        drainOOO rest c
      else
        -- `overlap` is zero when the entry starts at `rcv.nxt`
        let data := seg.data.drop overlap.toNat
        let n := c.deliverable data
        if n < data.length then
          { c.deliver data with
            rx.rcv.ooo := ⟨c.rx.rcv.nxt + UInt32.ofNat n, data.drop n⟩ :: rest }
        else drainOOO rest (c.deliver data)

/-- `rcv.finReceived = false`. -/
def clearFIN (c : TCPConn) : TCPConn := { c with rx.rcv.finReceived := false }

/-- The end of `deliverOOO`: a deferred FIN that the data has caught up with. -/
def deferredFIN (c : TCPConn) : TCPConn :=
  if c.rx.rcv.finReceived ∧ c.rx.rcv.nxt = c.rx.rcv.finSeq then c.clearFIN.processFIN else c

/-- `deliverOOO`. -/
def deliverOOO (c : TCPConn) : TCPConn := (drainOOO c.rx.rcv.ooo c).deferredFIN

/-- What `handleData` does with data after `CloseRead`: it counts what is in order. -/
def skipData (c : TCPConn) (seq : UInt32) (data : List UInt8) : TCPConn :=
  { c with
    rx.rcv.nxt :=
      if seq = c.rx.rcv.nxt then c.rx.rcv.nxt + UInt32.ofNat data.length else c.rx.rcv.nxt }

/-- The part of `handleData` after the trimming: in order, or out of order. -/
def acceptData (c : TCPConn) (seq : UInt32) (data : List UInt8) : TCPConn :=
  if c.app.readShutdown then c.skipData seq data
  else if seq = c.rx.rcv.nxt then
    if c.deliverable data > 0 then (c.deliver data).deliverOOO else c.deliver data
  else if seqGreaterThan seq c.rx.rcv.nxt then { c with rx.rcv := c.rx.rcv.insertOOO seq data }
  else c

/-- The part of `handleData` on the receive window: trims the tail beyond it. -/
def windowData (c : TCPConn) (seq : UInt32) (data : List UInt8) : TCPConn :=
  let wndEnd := c.rx.rcv.nxt + c.rcvWnd
  let segEnd := seq + UInt32.ofNat data.length
  if c.rcvWnd = 0 then c
  else if !seqLessThan seq wndEnd then c
  else c.acceptData seq
    (if seqGreaterThan segEnd wndEnd then data.take (wndEnd - seq).toNat else data)

/-- `handleData`. -/
def handleData (c : TCPConn) (seq : UInt32) (data : List UInt8) : TCPConn :=
  let nxt := c.rx.rcv.nxt
  if data.isEmpty then c
  else if seqLessThan seq nxt then
    if nxt - seq ≥ UInt32.ofNat data.length then
      { c with rx.rcv := c.rx.rcv.noteDuplicate seq (seq + UInt32.ofNat data.length) }
    else c.windowData nxt (data.drop (nxt - seq).toNat)
  else c.windowData seq data

end TCPConn
end Netstack.Tcp
