import Netstack.Lib.Loop
import Netstack.Tcp.Segment

/-! The send side (`snd.go`, and the zero-window probe of `conn.go`).

    A panic of the source is recorded in `fault`: a slice of a pooled buffer outside its bounds, a
    division by a zero `cwnd`, the GSO loop that does not advance. The bytes a segment shares with
    the transmit path are the list in its queue entry. -/

namespace Netstack.Tcp
open Netstack.Header Netstack.Loop

/-- `packet.MaxPayloadSize`, the size of a pooled segment buffer. -/
def maxPayloadSize : ℤ := 1500

/-- `packet.GSOBufSize`. -/
def gsoBufSize : ℤ := 65536

/-- `segEnd` of a queue entry: the sequence number after it. -/
def UnackedSegment.segEnd (seg : UnackedSegment) : UInt32 :=
  if seg.fin then seg.seq + 1 else seg.seq + UInt32.ofNat seg.data.length

/-- An entry without its SACK mark. -/
def UnackedSegment.unmarked (seg : UnackedSegment) : UnackedSegment := { seg with sacked := false }

/-- A window field scaled to bytes. -/
def scaledWnd (wnd : UInt16) (wndScale : ℕ) : UInt32 := UInt32.ofNat (wnd.toNat <<< wndScale)

/-- `newSender`. -/
def newSender (iss : UInt32) (peerWnd : UInt16) (wndScale : ℕ) (mtu : ℤ) (peerMSS : UInt16)
    (cfg : Config) : Sender :=
  let mss := mtu - ipv4MinHeaderSize - tcpMinHeaderSize
  let mss := if mss ≤ 0 then 536 else mss
  let pmss : ℤ := if peerMSS = 0 then 536 else peerMSS.toNat
  let mss := if pmss < mss then pmss else mss
  let iw := min (10 * UInt32.ofInt mss) (max (2 * UInt32.ofInt mss) 14600)
  let initialWnd := scaledWnd peerWnd wndScale
  { nxt := iss + 1
    una := iss + 1
    wnd := initialWnd
    mss := mss
    rto := cfg.initialRTO
    srtt := 0
    rttvar := 0
    unacked := []
    retries := 0
    cwnd := iw
    ssthresh := cfg.initialSSThresh
    dupACKCount := 0
    inRecovery := false
    recoveryPoint := 0
    dsackSeen := false
    maxWnd := initialWnd }

namespace Sender

/-- `updateMaxWnd`. -/
def updateMaxWnd (s : Sender) (wnd : UInt32) : Sender :=
  { s with maxWnd := if wnd > s.maxWnd then wnd else s.maxWnd }

/-- `effectiveWindow`. -/
def effectiveWindow (s : Sender) : ℤ :=
  min (s.cwnd.toNat : ℤ) (s.wnd.toNat : ℤ) - ((s.nxt - s.una).toNat : ℤ)

/-- `updateRTT`. -/
def updateRTT (s : Sender) (cfg : Config) (measured : ℤ) : Sender :=
  let srtt := if s.srtt = 0 then measured else (7 * s.srtt + measured).tdiv 8
  let rttvar :=
    if s.srtt = 0 then measured.tdiv 2 else (3 * s.rttvar + |s.srtt - measured|).tdiv 4
  { s with
    srtt := srtt
    rttvar := rttvar
    rto := min (max (srtt + 4 * rttvar) cfg.minRTO) cfg.maxRTO }

/-- The marking loop of `processSACKBlocks`, on one entry. It compares plain numbers, and the end it
    takes for a FIN entry is its start. -/
def markSACKed (blocks : List SACKBlock) (seg : UnackedSegment) : UnackedSegment :=
  let segEnd := seg.seq + UInt32.ofNat seg.data.length
  if seg.sacked then seg
  else { seg with sacked := blocks.any fun b => decide (seg.seq ≥ b.start) && decide (segEnd ≤ b.stop) }

/-- `processSACKBlocks`. -/
def processSACKBlocks (s : Sender) (blocks : List SACKBlock) (ack : UInt32) : Sender :=
  match blocks with
  | [] => { s with unacked := s.unacked.map (markSACKed []) }
  | b :: rest =>
    if !seqGreaterThan b.stop ack then
      { s with dsackSeen := true, unacked := s.unacked.map (markSACKed rest) }
    else { s with unacked := s.unacked.map (markSACKed (b :: rest)) }

end Sender

/-- The loop of `removeAcked`: drops the entries acknowledged in full. -/
def dropAcked (ack : UInt32) : List UnackedSegment → List UnackedSegment
  | [] => []
  | seg :: rest =>
    if !seqGreaterThan ack seg.seq then seg :: rest
    else if seqLessThan seg.segEnd ack || seg.segEnd == ack then dropAcked ack rest
    else seg :: rest

/-- The entry the loop of `removeAcked` measures: the first one it visits that was never
    retransmitted. -/
def rttSample (ack : UInt32) : List UnackedSegment → Option ℤ
  | [] => none
  | seg :: rest =>
    if !seqGreaterThan ack seg.seq then none
    else if !seg.retransmitted then some seg.sentAt
    else if seqLessThan seg.segEnd ack || seg.segEnd == ack then rttSample ack rest
    else none

/-- The entries `recordSentGSO` appends, `mss` bytes each but the last. -/
def gsoSegments (mss : ℕ) (sentAt : ℤ) : ℕ → UInt32 → List UInt8 → List UnackedSegment
  | 0, _, _ => []
  | _, _, [] => []
  | fuel + 1, seq, b :: data =>
    let chunk := (b :: data).take mss
    { seq := seq, data := chunk, fin := false, sentAt := sentAt, retransmitted := false,
      sacked := false }
      :: gsoSegments mss sentAt fuel (seq + UInt32.ofNat chunk.length) ((b :: data).drop mss)

namespace TCPConn

/-- `recordSent`. -/
def recordSent (c : TCPConn) (seq : UInt32) (data : List UInt8) : TCPConn :=
  { c with
    tx.snd.unacked := c.tx.snd.unacked ++ [{
      seq := seq, data := data, fin := false, sentAt := c.now, retransmitted := false,
      sacked := false }]
    ticks := c.ticks + 1 }

/-- `recordSentFIN`. -/
def recordSentFIN (c : TCPConn) (seq : UInt32) : TCPConn :=
  { c with
    tx.snd.unacked := c.tx.snd.unacked ++ [{
      seq := seq, data := [], fin := true, sentAt := c.now, retransmitted := false,
      sacked := false }]
    ticks := c.ticks + 1 }

/-- How `recordSentGSO` ends: its chunk buffers are pooled segment buffers, and it does not advance
    with an `mss` of zero. -/
def recordSentGSOFault (mss : ℤ) (n : ℕ) : Option Fault :=
  if n = 0 then none
  else if mss = 0 then some .endlessLoop
  else if mss < 0 ∨ min (n : ℤ) mss > maxPayloadSize then some .sliceBounds
  else none

/-- `recordSentGSO`. -/
def recordSentGSO (c : TCPConn) (seq : UInt32) (data : List UInt8) (mss : ℤ) : TCPConn :=
  { c with
    tx.snd.unacked := c.tx.snd.unacked ++ gsoSegments mss.toNat c.now data.length seq data
    ticks := c.ticks + 1
    fault := c.fault <|> recordSentGSOFault mss data.length }

/-- Up to `k` bytes are taken from `writeBuf`. -/
def takeBytes (c : TCPConn) (k : ℕ) : TCPConn :=
  { c with tx.writeBuf := (c.tx.writeBuf.readNoBlock k).1 }

/-- `snd.nxt += n`. -/
def advanceNxt (c : TCPConn) (n : ℕ) : TCPConn :=
  { c with tx.snd.nxt := c.tx.snd.nxt + UInt32.ofNat n }

/-- Takes up to `segSize` bytes from `writeBuf` and, unless there are none, sends them at `snd.nxt`
    and records them: what the plain path of `sendPending`, `limitedTransmit` and
    `sendZeroWindowProbe` share. The flag says whether something was sent. -/
def sendNew (c : TCPConn) (segSize : ℕ) : TCPConn × Bool :=
  let data := (c.tx.writeBuf.readNoBlock segSize).2
  let seq := c.tx.snd.nxt
  if data = [] then (c.takeBytes segSize, false)
  else ((((c.takeBytes segSize).sendData data seq).recordSent seq data).advanceNxt data.length, true)

/-- The size of a GSO batch. -/
def gsoBatchSize (c : TCPConn) (windowLeft available gsoMaxSize : ℤ) : ℤ :=
  min windowLeft (min available (min gsoMaxSize
    (min (0xffff - c.gsoDataOffset) (gsoBufSize - c.gsoDataOffset))))

/-- The GSO path of `sendPending`, for a batch of `gsoSize` bytes. -/
def sendGSO (c : TCPConn) (gsoSize : ℤ) : TCPConn × Bool :=
  let data := (c.tx.writeBuf.readNoBlock gsoSize.toNat).2
  let seq := c.tx.snd.nxt
  if gsoSize < 0 then (c.raise .sliceBounds, false)
  else if data = [] then (c.takeBytes gsoSize.toNat, false)
  else ((((c.takeBytes gsoSize.toNat).recordSentGSO seq data c.tx.snd.mss).sendDataGSO data
    seq).advanceNxt data.length, true)

/-- Sender-side SWS avoidance: too little window for a segment worth sending. -/
def swsHold (c : TCPConn) (windowLeft available : ℤ) : Bool :=
  !c.tx.zeroWindowProbing
    && decide (windowLeft < min c.tx.snd.mss ((c.tx.snd.maxWnd / 2).toNat : ℤ))
    && decide (available > windowLeft)

/-- Nagle: a sub-MSS write waits while data is in flight. -/
def nagleHold (c : TCPConn) (available : ℤ) : Bool :=
  !c.app.noDelay && c.hasUnacked && decide (available < c.tx.snd.mss)

/-- The plain path of `sendPending`: one segment into a pooled buffer. -/
def sendSegment (c : TCPConn) (segSize : ℤ) : TCPConn × Bool :=
  if segSize < 0 ∨ segSize > maxPayloadSize then (c.raise .sliceBounds, false)
  else c.sendNew segSize.toNat

/-- What a turn of `sendPending` sends: a GSO batch, or one segment. -/
def sendBatch (c : TCPConn) (windowLeft available : ℤ) : TCPConn × Bool :=
  let plain := c.sendSegment (min (min windowLeft available) c.tx.snd.mss)
  match c.env.handler.gsoMaxSize with
  | some gsoMaxSize =>
    if available > c.tx.snd.mss ∧ windowLeft > c.tx.snd.mss then
      c.sendGSO (c.gsoBatchSize windowLeft available gsoMaxSize)
    else plain
  | none => plain

/-- One turn of the loop of `sendPending`. -/
def sendPendingStep (c : TCPConn) : TCPConn × Bool :=
  let windowLeft := c.tx.snd.effectiveWindow
  let available : ℤ := c.tx.writeBuf.len
  if windowLeft ≤ 0 then (c, false)
  else if available ≤ 0 then (c, false)
  else if c.swsHold windowLeft available then (c, false)
  else if c.nagleHold available then (c, false)
  else c.sendBatch windowLeft available

/-- `sendPending`. Every turn that goes round takes at least one byte out of `writeBuf`. -/
def sendPending (c : TCPConn) : TCPConn :=
  loop sendPendingStep (fun c => c.raise .endlessLoop) (c.tx.writeBuf.len + 1) c

/-- `removeAcked`. -/
def removeAcked (c : TCPConn) (ack : UInt32) : TCPConn :=
  let sample := if c.env.tsEnabled then none else rttSample ack c.tx.snd.unacked
  let snd := match sample with
    | some sentAt => c.tx.snd.updateRTT c.env.cfg (c.now - sentAt)
    | none => c.tx.snd
  { c with
    tx.snd := { snd with unacked := dropAcked ack c.tx.snd.unacked }
    ticks := if sample.isSome then c.ticks + 1 else c.ticks }

/-- A retransmission: the entry with its marks, and the segment sent again. -/
def retransmit (c : TCPConn) (seg : UnackedSegment) : TCPConn :=
  let c := { c with ticks := c.ticks + 1 }
  if seg.fin then c.sendFINSegment seg.seq else c.sendData seg.data seg.seq

/-- `seg` marked as sent again now. -/
def resent (c : TCPConn) (seg : UnackedSegment) : UnackedSegment :=
  { seg with retransmitted := true, sentAt := c.now }

/-- `retransmitOldest`. -/
def retransmitOldest (c : TCPConn) : TCPConn :=
  match c.tx.snd.unacked with
  | [] => c
  | seg :: rest => { c with tx.snd.unacked := c.resent seg :: rest }.retransmit seg

/-- `retransmitFirstUnSACKed`. -/
def retransmitFirstUnSACKed (c : TCPConn) : TCPConn :=
  match c.tx.snd.unacked.dropWhile UnackedSegment.sacked with
  | [] => c
  | seg :: rest =>
    { c with
      tx.snd.unacked := c.tx.snd.unacked.takeWhile UnackedSegment.sacked ++ c.resent seg :: rest }.retransmit seg

/-- The loop of `sackLossDetection` over the queue: an entry with three or more SACKed entries above
    it is sent again. A FIN entry has no buffer to send from. -/
def sackLossLoop : List UnackedSegment → TCPConn → List UnackedSegment × TCPConn
  | [], c => ([], c)
  | seg :: rest, c =>
    if seg.sacked || seg.retransmitted then
      let r := sackLossLoop rest c
      (seg :: r.1, r.2)
    else if rest.countP UnackedSegment.sacked ≥ 3 then
      let c' := if seg.fin then c.raise .nilDereference else c.retransmit seg
      let r := sackLossLoop rest c'
      (c.resent seg :: r.1, r.2)
    else
      let r := sackLossLoop rest c
      (seg :: r.1, r.2)

/-- `sackLossDetection`. -/
def sackLossDetection (c : TCPConn) : TCPConn :=
  let r := sackLossLoop c.tx.snd.unacked c
  { r.2 with tx.snd.unacked := r.1 }

/-- `abort`. -/
def abort (c : TCPConn) : TCPConn :=
  (if c.ctl.synced then c.sendRSTSegment c.tx.snd.nxt else c).closeDone

/-- The part of `handleRTO` after the retry limit. -/
def backOff (c : TCPConn) : TCPConn :=
  let s := c.tx.snd
  { c with
    tx.snd := { s with
      inRecovery := false
      dupACKCount := 0
      ssthresh := max (s.cwnd / 2) (2 * UInt32.ofInt s.mss)
      cwnd := UInt32.ofInt s.mss
      rto := min (s.rto * 2) c.env.cfg.maxRTO
      unacked := s.unacked.map UnackedSegment.unmarked } }.retransmitOldest

/-- `s.retries++`. -/
def countRetry (c : TCPConn) : TCPConn := { c with tx.snd.retries := c.tx.snd.retries + 1 }

/-- `handleRTO`. While a zero window is probed, retries are not counted. -/
def handleRTO (c : TCPConn) : TCPConn :=
  if c.tx.snd.unacked.isEmpty then c
  else if c.tx.zeroWindowProbing then c.backOff
  else if c.tx.snd.retries + 1 > c.env.cfg.maxRetries then c.countRetry.abort
  else c.countRetry.backOff

/-- `limitedTransmit`. -/
def limitedTransmit (c : TCPConn) : TCPConn :=
  let available : ℤ := c.tx.writeBuf.len
  let flightSize : ℤ := (c.tx.snd.nxt - c.tx.snd.una).toNat
  if available ≤ 0 then c
  else if flightSize ≥ c.tx.snd.wnd.toNat then c
  else
    let segSize := min (min available c.tx.snd.mss) (c.tx.snd.wnd.toNat - flightSize)
    if segSize ≤ 0 then c else (c.sendSegment segSize).1

/-- `s.dupACKCount++`. -/
def countDup (c : TCPConn) : TCPConn := { c with tx.snd.dupACKCount := c.tx.snd.dupACKCount + 1 }

/-- A duplicate ACK in recovery inflates the window. -/
def inflate (c : TCPConn) : TCPConn :=
  { c with tx.snd.cwnd := c.tx.snd.cwnd + UInt32.ofInt c.tx.snd.mss }

/-- The third duplicate ACK starts recovery. -/
def enterRecovery (c : TCPConn) : TCPConn :=
  let s := c.tx.snd
  let ssthresh := max (s.cwnd / 2) (2 * UInt32.ofInt s.mss)
  { c with
    tx.snd := { s with
      ssthresh := ssthresh
      cwnd := ssthresh + 3 * UInt32.ofInt s.mss
      inRecovery := true
      recoveryPoint := s.nxt } }

/-- `handleDupACK`. -/
def handleDupACK (c : TCPConn) : TCPConn :=
  let dups := c.tx.snd.dupACKCount + 1
  if c.tx.snd.inRecovery then c.countDup.inflate.sendPending
  else if dups ≤ 2 then c.countDup.limitedTransmit
  else if dups = 3 then c.countDup.enterRecovery.retransmitFirstUnSACKed
  else c.countDup

/-- The congestion-window update of `handleACK` outside recovery: slow start up to `ssthresh`, then
    congestion avoidance. -/
def growCwnd (c : TCPConn) (acked : UInt32) : TCPConn :=
  let s := c.tx.snd
  if s.cwnd < s.ssthresh then
    { c with tx.snd := { s with dupACKCount := 0, cwnd := min (s.cwnd + acked) s.ssthresh } }
  else if s.cwnd = 0 then c.raise .divideByZero
  else
    let increment := UInt32.ofInt s.mss * acked / s.cwnd
    { c with
      tx.snd := { s with
        dupACKCount := 0
        cwnd := s.cwnd + if increment = 0 then 1 else increment } }

/-- The branch of `handleACK` for an ACK in recovery: a partial one, or the full one that ends it. -/
def recoveryACK (c : TCPConn) (ack : UInt32) : TCPConn :=
  if seqLessThan ack c.tx.snd.recoveryPoint then
    let c := c.retransmitFirstUnSACKed
    { c with tx.snd := { c.tx.snd with cwnd := c.tx.snd.ssthresh, dupACKCount := 0 } }
  else
    { c with
      tx.snd := { c.tx.snd with inRecovery := false, cwnd := c.tx.snd.ssthresh, dupACKCount := 0 } }

/-- `s.una = ack; s.retries = 0`. -/
def advanceUna (c : TCPConn) (ack : UInt32) : TCPConn :=
  { c with tx.snd := { c.tx.snd with una := ack, retries := 0 } }

/-- The congestion response of `handleACK` to `acked` new bytes. -/
def updateCwnd (c : TCPConn) (ack acked : UInt32) : TCPConn :=
  if c.tx.snd.inRecovery then c.recoveryACK ack else c.growCwnd acked

/-- The part of `handleACK` for an ACK that acknowledges something new. -/
def handleNewACK (c : TCPConn) (ack : UInt32) : TCPConn :=
  (((c.advanceUna ack).removeAcked ack).updateCwnd ack (ack - c.tx.snd.una)).sendPending

/-- `handleACK`. -/
def handleACK (c : TCPConn) (ack : UInt32) : TCPConn :=
  if ack = c.tx.snd.una then c.handleDupACK
  else if !seqGreaterThan ack c.tx.snd.una || seqGreaterThan ack c.tx.snd.nxt then c
  else c.handleNewACK ack

/-- `cancelZeroWindowProbe`. -/
def cancelZeroWindowProbe (c : TCPConn) : TCPConn :=
  if c.tx.zeroWindowProbing then
    { c with tx.zeroWindowProbing := false, tx.zeroWindowTimer := Timer.stopped }
  else c

/-- `checkZeroWindow`. -/
def checkZeroWindow (c : TCPConn) : TCPConn :=
  if !c.ctl.synced || c.tx.zeroWindowProbing then c
  else if c.tx.snd.wnd = 0 ∧ c.tx.writeBuf.len > 0 then
    { c with
      tx.zeroWindowProbing := true
      tx.probeInterval := c.tx.snd.rto
      tx.zeroWindowTimer := c.after c.tx.snd.rto
      ticks := c.ticks + 1 }
  else c

/-- `sendZeroWindowProbe`: one byte, taken from `writeBuf` and recorded like any other. -/
def sendZeroWindowProbe (c : TCPConn) : TCPConn :=
  if !c.ctl.synced then c
  else
    let r := c.sendNew 1
    if r.2 then r.1 else r.1.cancelZeroWindowProbe

/-- `sendFIN`. -/
def sendFIN (c : TCPConn) : TCPConn :=
  let seq := c.tx.snd.nxt
  let c := (c.sendFINSegment seq).recordSentFIN seq
  { c with tx.snd.nxt := seq + 1 }

end TCPConn
end Netstack.Tcp
