import Netstack.Tcp.State

/-! The functions that put segments on the wire (`segment.go`, and the keepalive probe of `conn.go`).

    All of them append one packet to `wire.out`; the acknowledgment number they carry is `rcv.nxt`
    at that moment. Only `sendACK` also changes the receiver: it reports a pending DSACK block and
    forgets it. -/

namespace Netstack.Tcp
open Netstack.Header

/-- `timestamp` of a segment, as `handleSegment` fills it in. -/
structure Timestamp where
  val : UInt32
  ecr : UInt32
  deriving DecidableEq

/-- The timestamp option of a segment; `none` is `hasTS = false`. -/
def Segment.timestamp (seg : Segment) (env : Env) : Option Timestamp :=
  if env.tsEnabled && !seg.options.isEmpty then
    let so := parseSegmentOptions seg.options
    if so.tsEnabled then some ⟨so.tsVal, so.tsEcr⟩ else none
  else none

/-- The coalescing loop of `sackBlocks` over the entries after the first. -/
def coalesce (cur : SACKBlock) : List OOOSegment → List SACKBlock
  | [] => [cur]
  | seg :: rest =>
    let segEnd := seg.seq + UInt32.ofNat seg.data.length
    if seg.seq ≤ cur.stop then
      coalesce { cur with stop := if segEnd > cur.stop then segEnd else cur.stop } rest
    else cur :: coalesce ⟨seg.seq, segEnd⟩ rest

/-- The coalesced ranges of the out-of-order list. -/
def sackRanges : List OOOSegment → List SACKBlock
  | [] => []
  | seg :: rest => coalesce ⟨seg.seq, seg.seq + UInt32.ofNat seg.data.length⟩ rest

/-- `sackBlocks`: the blocks it returns. -/
def Receiver.sackBlocks (r : Receiver) (tsEnabled : Bool) : List SACKBlock :=
  let maxBlocks := if tsEnabled then 3 else 4
  let blocks := if r.hasDSACKBlock then [r.dsackBlock] else []
  blocks ++ (sackRanges r.ooo).reverse.take (maxBlocks - blocks.length)

/-- `sackBlocks`: the receiver it leaves, without the DSACK block it reported. -/
def Receiver.clearDSACK (r : Receiver) : Receiver :=
  { r with hasDSACKBlock := false, dsackBlock := if r.hasDSACKBlock then ⟨0, 0⟩ else r.dsackBlock }

namespace TCPConn

/-- `rcvWnd`: the free space of `readBuf`, cut to 32 bits. -/
def rcvWnd (c : TCPConn) : UInt32 := UInt32.ofNat c.rx.readBuf.free

/-- `wnd`: the window to advertise, zero while the free space is below `min(MSS, cap/2)`. -/
def wnd (c : TCPConn) : UInt16 :=
  let free := c.rx.readBuf.free
  let mss := if c.ctl.synced then c.tx.snd.mss else 536
  if (free : ℤ) < min mss (c.rx.readBuf.cap / 2 : ℕ) then 0
  else
    let scaled := free >>> c.env.rcvWndScale
    if scaled > 0xFFFF then 0xFFFF else UInt16.ofNat scaled

/-- The acknowledgment number of an outgoing segment: `rcv.nxt` once there is a receiver. -/
def ackNum (c : TCPConn) : UInt32 := if c.ctl.synced then c.rx.rcv.nxt else c.env.irs + 1

/-- The window field of an outgoing segment. -/
def ackWnd (c : TCPConn) : UInt16 :=
  if c.ctl.synced then c.wnd else c.env.cfg.receiveWindowSize

/-- `TCPHandler.now`: the timestamp clock, in milliseconds. -/
def handlerNow (c : TCPConn) : UInt32 :=
  UInt32.ofInt ((c.now - c.env.handler.tsEpoch).tdiv millisecond) + c.env.handler.tsOffset

/-- The timestamp option of an outgoing segment, when timestamps are on. -/
def tsOption (c : TCPConn) : List UInt8 :=
  if c.env.tsEnabled then encodeTimestampOption c.handlerNow c.wire.tsRecent else []

/-- The clock readings after a segment has been stamped. -/
def stampTicks (c : TCPConn) : ℕ := if c.env.tsEnabled then c.ticks + 1 else c.ticks

/-- `updateTSLastAckSent`: the value it leaves. -/
def lastAckSent (c : TCPConn) : UInt32 :=
  if c.env.tsEnabled && c.ctl.synced then c.rx.rcv.nxt else c.wire.tsLastAckSent

/-- `sendSYNACK`. -/
def sendSYNACK (c : TCPConn) : TCPConn :=
  let mss := UInt16.ofInt (c.env.handler.mtu - ipv4MinHeaderSize - tcpMinHeaderSize)
  let ws := if c.env.rcvWndScale > 0 then tcpOptionNOP :: encodeWSOption c.env.rcvWndScale else []
  let sack := if c.env.sackPermitted then encodeSACKPermittedOption else []
  { c with
    wire.out := c.wire.out ++ [{
      flags := tcpFlagSYN ||| tcpFlagACK
      seq := c.env.iss
      ack := c.env.irs + 1
      wnd := c.env.cfg.receiveWindowSize
      options := padOptions (encodeMSSOption mss ++ ws ++ sack ++ c.tsOption)
      payload := []
      gsoSize := none }]
    ticks := c.stampTicks }

/-- The options of `sendACK`: timestamp and SACK blocks, padded, in a buffer of 48 bytes. -/
def ackOptions (c : TCPConn) : List UInt8 :=
  let sack :=
    if c.env.sackPermitted && c.ctl.synced then
      encodeSACKBlocks (48 - c.tsOption.length) (c.rx.rcv.sackBlocks c.env.tsEnabled)
    else []
  padOptions (c.tsOption ++ sack)

/-- `sendACK`. -/
def sendACK (c : TCPConn) : TCPConn :=
  { c with
    rx.rcv := if c.env.sackPermitted && c.ctl.synced then c.rx.rcv.clearDSACK else c.rx.rcv
    wire.out := c.wire.out ++ [{
      flags := tcpFlagACK
      seq := if c.ctl.synced then c.tx.snd.nxt else c.env.iss + 1
      ack := c.ackNum
      wnd := c.ackWnd
      options := c.ackOptions
      payload := []
      gsoSize := none }]
    wire.tsLastAckSent := c.lastAckSent
    wire.lastWndZero := c.ackWnd == 0
    ticks := c.stampTicks }

/-- A data segment, plain or GSO. -/
def dataSegment (c : TCPConn) (data : List UInt8) (seq : UInt32) (gsoSize : Option UInt16) :
    OutSegment where
  flags := tcpFlagACK
  seq := seq
  ack := c.rx.rcv.nxt
  wnd := c.wnd
  options := c.tsOption
  payload := data
  gsoSize := gsoSize

/-- What `sendData` and `sendDataGSO` share. -/
def transmitData (c : TCPConn) (p : OutSegment) : TCPConn :=
  { c with
    wire.out := c.wire.out ++ [p]
    wire.tsLastAckSent := c.lastAckSent
    wire.lastWndZero := c.wnd == 0
    ticks := c.stampTicks }

/-- `sendData`. -/
def sendData (c : TCPConn) (data : List UInt8) (seq : UInt32) : TCPConn :=
  c.transmitData (c.dataSegment data seq none)

/-- `gsoDataOffset`. -/
def gsoDataOffset (c : TCPConn) : ℤ :=
  ipv4MinHeaderSize + tcpMinHeaderSize + if c.env.tsEnabled then 12 else 0

/-- `sendDataGSO`. -/
def sendDataGSO (c : TCPConn) (data : List UInt8) (seq : UInt32) : TCPConn :=
  c.transmitData (c.dataSegment data seq (some (UInt16.ofInt c.tx.snd.mss)))

/-- `sendFINSegment`. Unlike the data senders it leaves `lastWndZero` alone. -/
def sendFINSegment (c : TCPConn) (seq : UInt32) : TCPConn :=
  { c with
    wire.out := c.wire.out ++ [{
      flags := tcpFlagFIN ||| tcpFlagACK
      seq := seq
      ack := c.ackNum
      wnd := c.ackWnd
      options := c.tsOption
      payload := []
      gsoSize := none }]
    wire.tsLastAckSent := c.lastAckSent
    ticks := c.stampTicks }

/-- `sendRSTSegment`. -/
def sendRSTSegment (c : TCPConn) (seqNum : UInt32) : TCPConn :=
  { c with
    wire.out := c.wire.out ++ [{
      flags := tcpFlagRST
      seq := seqNum
      ack := 0
      wnd := 0
      options := []
      payload := []
      gsoSize := none }] }

/-- `sendKeepaliveProbe`: sequence number `snd.una - 1`, no data. -/
def sendKeepaliveProbe (c : TCPConn) : TCPConn :=
  { c with
    wire.out := c.wire.out ++ [{
      flags := tcpFlagACK
      seq := c.tx.snd.una - 1
      ack := c.rx.rcv.nxt
      wnd := c.wnd
      options := c.tsOption
      payload := []
      gsoSize := none }]
    wire.tsLastAckSent := c.lastAckSent
    ticks := c.stampTicks }

end TCPConn
end Netstack.Tcp
