import Netstack.Tcp.Receiver

/-! The connection's state machine: the handlers of inbound segments, one for each state, and the
    cases of the select loop of `run` (`conn.go`, `conn_established.go`, `conn_closing.go`,
    `conn_synrcvd.go`, `handler.go`).

    Each case of the select loop is one function from connection to connection; what the
    application's goroutines do in between is in `Netstack.Tcp.System`. -/

namespace Netstack.Tcp
open Netstack.Header

/-- The sequence number of a segment's FIN. -/
def Segment.finSeq (seg : Segment) : UInt32 := seg.seq + UInt32.ofNat seg.payload.length

namespace TCPConn

/-- `resetKeepalive`. -/
def resetKeepalive (c : TCPConn) : TCPConn :=
  { c with
    timers.keepaliveProbes := 0
    timers.keepaliveTimer := c.after c.env.cfg.keepaliveIdle
    ticks := c.ticks + 1 }

/-- `handleRST`. -/
def handleRST (c : TCPConn) : TCPConn := (c.setState .closed).closeDone

/-- `timeWaitTimer.Reset(timeWaitDuration)`. -/
def resetTimeWait (c : TCPConn) : TCPConn :=
  { c with timers.timeWaitTimer := c.after c.env.cfg.timeWaitDuration, ticks := c.ticks + 1 }

/-- `enterTimeWait`. -/
def enterTimeWait (c : TCPConn) : TCPConn := (c.setState .timeWait).closeReadBuf.resetTimeWait

/-- `finPending = false`. -/
def clearPending (c : TCPConn) : TCPConn := { c with ctl.finPending := false }

/-- `finalizeFIN`. -/
def finalizeFIN (c : TCPConn) : TCPConn :=
  match c.ctl.state with
  | .established => c.clearPending.sendFIN.setState .finWait1
  | .closeWait => c.clearPending.sendFIN.setState .lastAck
  | _ => c.clearPending

/-- `if c.snd != nil { c.snd.sendPending(c) }`. -/
def flush (c : TCPConn) : TCPConn := if c.ctl.synced then c.sendPending else c

/-- The end of `handleClose`: the FIN is deferred while data is queued. -/
def finOrDefer (c : TCPConn) : TCPConn :=
  if c.ctl.synced ∧ c.tx.writeBuf.len > 0 then { c with ctl.finPending := true } else c.finalizeFIN

/-- `handleClose`. -/
def handleClose (c : TCPConn) : TCPConn :=
  match c.ctl.state with
  | .established | .closeWait => c.flush.finOrDefer
  | _ => c

/-- `measureRTTM`: an RTT sample from the echoed timestamp. -/
def measureRTTM (c : TCPConn) (seg : Segment) : TCPConn :=
  match seg.timestamp c.env with
  | some ts =>
    if ts.ecr = 0 then c
    else
      let rtt := ((c.handlerNow - ts.ecr).toNat : ℤ) * millisecond
      { c with
        tx.snd := if rtt > 0 then c.tx.snd.updateRTT c.env.cfg rtt else c.tx.snd
        ticks := c.ticks + 1 }
  | none => c

/-- `snd.wnd = uint32(seg.wnd) << sndWndScale`. -/
def setWnd (c : TCPConn) (seg : Segment) : TCPConn :=
  { c with tx.snd.wnd := scaledWnd seg.wnd c.env.sndWndScale }

/-- `snd.updateMaxWnd(snd.wnd)`. -/
def noteMaxWnd (c : TCPConn) : TCPConn :=
  { c with tx.snd := c.tx.snd.updateMaxWnd c.tx.snd.wnd }

/-- The SACK part of `handleEstablished`. -/
def handleSACK (c : TCPConn) (seg : Segment) : TCPConn :=
  let blocks := (parseSegmentOptions seg.options).sackBlocks
  if c.env.sackPermitted && !seg.options.isEmpty && !blocks.isEmpty then
    { c with tx.snd := c.tx.snd.processSACKBlocks blocks seg.ack }.sackLossDetection
  else c

/-- The zero-window part of `handleEstablished`. -/
def manageZeroWindow (c : TCPConn) : TCPConn :=
  if c.tx.snd.wnd > 0 ∧ c.tx.zeroWindowProbing then c.cancelZeroWindowProbe.sendPending
  else if c.tx.snd.wnd = 0 ∧ c.tx.writeBuf.len > 0 ∧ ¬c.tx.zeroWindowProbing then c.checkZeroWindow
  else c

/-- `handleEstablished` up to and including `handleACK`. -/
def processACK (c : TCPConn) (seg : Segment) : TCPConn :=
  (((c.setWnd seg).noteMaxWnd.measureRTTM seg).handleSACK seg).handleACK seg.ack

/-- A pure window update triggers sending. -/
def sendOnUpdate (c : TCPConn) (seg : Segment) (oldWnd : UInt32) : TCPConn :=
  if seg.ack = c.tx.snd.una ∧ scaledWnd seg.wnd c.env.sndWndScale > oldWnd then c.sendPending else c

/-- The ACK part of `handleEstablished`. -/
def establishedACK (c : TCPConn) (seg : Segment) : TCPConn :=
  if seg.flags.has tcpFlagACK ∧ c.ctl.synced then
    ((c.processACK seg).sendOnUpdate seg c.tx.snd.wnd).manageZeroWindow
  else c

/-- `len(seg.payload) > 0 && c.rcv != nil`: hand the payload to the receiver. -/
def takePayload (c : TCPConn) (seg : Segment) : TCPConn :=
  if c.ctl.synced then c.handleData seg.seq seg.payload else c

/-- `unackedSegs = 0`. -/
def clearSegs (c : TCPConn) : TCPConn := { c with timers.unackedSegs := 0 }

/-- An immediate ACK instead of the delayed one. -/
def ackNow (c : TCPConn) : TCPConn := c.cancelDelayedACK.sendACK.clearSegs

/-- `delayedACKTimer.Reset(delayedACKTimeout)`. -/
def delayACK (c : TCPConn) : TCPConn :=
  { c with timers.delayedACKTimer := c.after c.env.cfg.delayedACKTimeout, ticks := c.ticks + 1 }

/-- `unackedSegs++`. -/
def countSegment (c : TCPConn) : TCPConn :=
  { c with timers.unackedSegs := c.timers.unackedSegs + 1 }

/-- The delayed-ACK part of `handleEstablished`. -/
def scheduleACK (c : TCPConn) (seg : Segment) : TCPConn :=
  if seg.payload.isEmpty then c
  else if c.ctl.synced ∧ seqGreaterThan seg.seq c.rx.rcv.nxt then c.countSegment.ackNow
  else if c.timers.unackedSegs + 1 ≥ 2 then c.countSegment.ackNow
  else c.countSegment.delayACK

/-- `rcv.finReceived = true; rcv.finSeq = finSeq`. -/
def deferFIN (c : TCPConn) (finSeq : UInt32) : TCPConn :=
  { c with rx.rcv := { c.rx.rcv with finReceived := true, finSeq := finSeq } }

/-- The FIN part of `handleEstablished`: at once when all data before the FIN is there, deferred
    otherwise. -/
def establishedFIN (c : TCPConn) (seg : Segment) : TCPConn :=
  if seg.flags.has tcpFlagFIN ∧ c.ctl.synced then
    if c.rx.rcv.nxt = seg.finSeq then c.processFIN
    else (c.deferFIN seg.finSeq).scheduleACK seg
  else c.scheduleACK seg

/-- `handleEstablished`. -/
def handleEstablished (c : TCPConn) (seg : Segment) : TCPConn :=
  ((c.resetKeepalive.establishedACK seg).takePayload seg).establishedFIN seg

/-- The ACK part of `handleFinWait1`. -/
def finWait1ACK (c : TCPConn) (seg : Segment) : TCPConn :=
  if seg.flags.has tcpFlagACK ∧ c.ctl.synced then ((c.setWnd seg).measureRTTM seg).handleACK seg.ack
  else c

/-- `ackOfFIN`, after the ACK part: nothing is outstanding any more. -/
def ackOfFIN (c : TCPConn) (seg : Segment) : Bool :=
  seg.flags.has tcpFlagACK && c.ctl.synced && !c.hasUnacked

/-- `finWait2Timer.Reset(finWait2Timeout)`. -/
def resetFinWait2 (c : TCPConn) : TCPConn :=
  { c with timers.finWait2Timer := c.after c.env.cfg.finWait2Timeout, ticks := c.ticks + 1 }

/-- The FIN part of `handleFinWait1`. The FIN is counted wherever it stands. -/
def finWait1FIN (c : TCPConn) (ackOfFIN : Bool) : TCPConn :=
  if ackOfFIN then c.countFIN.sendACK.closeReadBuf.enterTimeWait
  else c.countFIN.sendACK.closeReadBuf.setState .closing

/-- An ACK for data without a FIN. -/
def ackPayload (c : TCPConn) (seg : Segment) : TCPConn :=
  if seg.payload.isEmpty then c else c.sendACK

/-- The end of `handleFinWait1`, for a segment without FIN. -/
def finWait1End (c : TCPConn) (seg : Segment) (ackOfFIN : Bool) : TCPConn :=
  if ackOfFIN then ((c.ackPayload seg).setState .finWait2).resetFinWait2 else c.ackPayload seg

/-- `handleFinWait1`. -/
def handleFinWait1 (c : TCPConn) (seg : Segment) : TCPConn :=
  let ackOfFIN := (c.finWait1ACK seg).ackOfFIN seg
  if seg.flags.has tcpFlagFIN ∧ c.ctl.synced then
    ((c.finWait1ACK seg).takePayload seg).finWait1FIN ackOfFIN
  else ((c.finWait1ACK seg).takePayload seg).finWait1End seg ackOfFIN

/-- The ACK part of `handleFinWait2`. -/
def finWait2ACK (c : TCPConn) (seg : Segment) : TCPConn :=
  if seg.flags.has tcpFlagACK ∧ c.ctl.synced then c.setWnd seg else c

/-- The data part of `handleFinWait2`. -/
def finWait2Data (c : TCPConn) (seg : Segment) : TCPConn :=
  if seg.payload.isEmpty ∨ ¬c.ctl.synced then c else (c.takePayload seg).resetFinWait2

/-- `handleFinWait2`. A FIN is counted wherever it stands. -/
def handleFinWait2 (c : TCPConn) (seg : Segment) : TCPConn :=
  if seg.flags.has tcpFlagFIN ∧ c.ctl.synced then
    ((c.finWait2ACK seg).finWait2Data seg).countFIN.sendACK.enterTimeWait
  else ((c.finWait2ACK seg).finWait2Data seg).ackPayload seg

/-- The CLOSE_WAIT case of `handleSegment`. -/
def handleCloseWait (c : TCPConn) (seg : Segment) : TCPConn :=
  if seg.flags.has tcpFlagACK ∧ c.ctl.synced then
    ((c.setWnd seg).noteMaxWnd.measureRTTM seg).handleACK seg.ack
  else c

/-- The end of `handleClosing`. -/
def reACKFIN (c : TCPConn) (seg : Segment) : TCPConn :=
  if seg.flags.has tcpFlagFIN then c.sendACK else c

/-- The ACK part of `handleClosing`. -/
def closingACK (c : TCPConn) (seg : Segment) : TCPConn := (c.measureRTTM seg).handleACK seg.ack

/-- `handleClosing`. -/
def handleClosing (c : TCPConn) (seg : Segment) : TCPConn :=
  if seg.flags.has tcpFlagACK ∧ c.ctl.synced then
    if !(c.closingACK seg).hasUnacked then (c.closingACK seg).enterTimeWait
    else (c.closingACK seg).reACKFIN seg
  else c.reACKFIN seg

/-- `handleLastAck`. -/
def handleLastAck (c : TCPConn) (seg : Segment) : TCPConn :=
  if seg.flags.has tcpFlagACK ∧ c.ctl.synced then
    if !c.hasUnacked || seqGreaterThan seg.ack c.tx.snd.una then (c.handleACK seg.ack).closeDone
    else c
  else c

/-- `handleTimeWait`. -/
def handleTimeWait (c : TCPConn) (seg : Segment) : TCPConn :=
  if seg.flags.has tcpFlagFIN then c.sendACK.resetTimeWait else c

/-- `newSender` as `handleSynRcvd` adjusts it: the timestamp option takes 12 bytes of each
    segment. -/
def handshakeSender (c : TCPConn) (seg : Segment) : Sender :=
  let s := newSender c.env.iss seg.wnd c.env.sndWndScale c.env.handler.mtu c.env.peerMSS c.env.cfg
  if c.env.tsEnabled then { s with mss := s.mss - 12 } else s

/-- The part of `handleSynRcvd` that creates the sender and the receiver. -/
def establish (c : TCPConn) (seg : Segment) : TCPConn :=
  let c := c.setState .established
  { c with
    ctl.synced := true
    timers.synRcvdTimer := Timer.stopped
    tx.snd := c.handshakeSender seg
    rx.rcv := newReceiver c.env.irs c.rx.readBuf.cap c.env.cfg.readBufferSize
      c.env.cfg.maxReadBufferSize
    wire.tsLastAckSent := if c.env.tsEnabled then c.env.irs + 1 else c.wire.tsLastAckSent
    wire.tsRecent :=
      match seg.timestamp c.env with
      | some ts => ts.val
      | none => c.wire.tsRecent }

/-- Data piggybacked on the completing ACK. -/
def synPayload (c : TCPConn) (seg : Segment) : TCPConn :=
  if seg.payload.isEmpty then c else (c.handleData seg.seq seg.payload).sendACK

/-- The send on `acceptCh`: the application gets the connection. -/
def handOver (c : TCPConn) : TCPConn := { c with ctl.handedOver := true }

/-- `handleSynRcvd`. -/
def handleSynRcvd (c : TCPConn) (seg : Segment) : TCPConn :=
  if seg.flags.has tcpFlagACK then
    if seg.seq - (c.env.irs + 1) ≥ c.env.cfg.receiveWindowSize.toUInt32 then c.sendACK
    else if seg.ack ≠ c.env.iss + 1 then (c.sendRSTSegment seg.ack).handleRST
    else ((c.establish seg).resetKeepalive.synPayload seg).handOver
  else if seg.flags.has tcpFlagSYN then c.sendSYNACK
  else c

/-- The PAWS check: the segment's timestamp is older than the last valid one. -/
def pawsDrop (c : TCPConn) (seg : Segment) : Bool :=
  match seg.timestamp c.env with
  | some ts => !seg.flags.has tcpFlagRST && decide ((ts.val - c.wire.tsRecent).toInt32 < 0)
  | none => false

/-- The window a RST is validated against. -/
def rstWnd (c : TCPConn) : UInt32 :=
  if c.ctl.synced then c.rcvWnd else c.env.cfg.receiveWindowSize.toUInt32

/-- The RST branch of `handleSegment`; `rcvNxt` there is `ackNum`. -/
def handleRSTSegment (c : TCPConn) (seg : Segment) : TCPConn :=
  if c.ctl.state = .timeWait then c
  else if seg.seq = c.ackNum then c.handleRST
  else if seqWithinWindow seg.seq c.ackNum c.rstWnd then c.sendACK
  else c

/-- The update of `tsRecent`. -/
def updateTSRecent (c : TCPConn) (seg : Segment) : TCPConn :=
  match seg.timestamp c.env with
  | some ts =>
    if c.ctl.synced ∧ ¬seqGreaterThan seg.seq c.wire.tsLastAckSent then
      { c with wire.tsRecent := ts.val }
    else c
  | none => c

/-- The switch of `handleSegment` on the state. -/
def dispatch (c : TCPConn) (seg : Segment) : TCPConn :=
  match c.ctl.state with
  | .synRcvd => c.handleSynRcvd seg
  | .established => c.handleEstablished seg
  | .finWait1 => c.handleFinWait1 seg
  | .finWait2 => c.handleFinWait2 seg
  | .closeWait => c.handleCloseWait seg
  | .closing => c.handleClosing seg
  | .lastAck => c.handleLastAck seg
  | .timeWait => c.handleTimeWait seg
  | .closed => c

/-- `handleSegment`. -/
def handleSegment (c : TCPConn) (seg : Segment) : TCPConn :=
  if c.pawsDrop seg then c
  else if seg.flags.has tcpFlagRST then c.handleRSTSegment seg
  else if seg.flags.has tcpFlagSYN ∧ c.ctl.state ≠ .synRcvd then c.sendACK
  else (c.updateTSRecent seg).dispatch seg

end TCPConn
end Netstack.Tcp
