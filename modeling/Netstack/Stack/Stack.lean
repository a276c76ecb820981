import Netstack.Header.Transport
import Netstack.Lib.Simulation
import Netstack.Stack.Fragmentation
import Netstack.Stack.Split

/-! The network stack (`stack/stack.go`, `stack/icmp.go`): a read loop that validates, reassembles and
    hands on what the channel delivers and answers pings itself, and a write loop that takes packets
    from the outbound queue.

    The state keeps, beside the source's fields, what has been handed to the channel and what has been
    handed to transport handlers, in order. One event is one turn of a loop or one call of
    `SendPacket`. -/

namespace Netstack.Stack

def maxPacketSize : ℕ := 1560

/-- `channel.PacketOptions`; `none` of the offloads is the zero value. -/
structure PacketOptions where
  gsoType : UInt8
  gsoSize : UInt16
  hdrLen : UInt16
  csumStart : UInt16
  csumOffset : UInt16
  deriving DecidableEq

/-- The zero value. -/
def PacketOptions.none : PacketOptions := ⟨0, 0, 0, 0, 0⟩

/-- `outboundItem`. -/
inductive OutboundItem where
  | packet (data : List UInt8)
  | gso (data : List UInt8) (opts : PacketOptions)
  deriving DecidableEq

/-- What is handed to the channel by `WritePacket` (then without options) or `WritePacketGSO`. -/
structure Write where
  data : List UInt8
  opts : PacketOptions
  deriving DecidableEq

/-- What is handed to a transport handler. -/
structure Delivery where
  proto : UInt8
  networkHeader : List UInt8
  data : List UInt8
  deriving DecidableEq

end Netstack.Stack

/-- `Stack`: the channel's MTU and whether it is a GSO writer, the configuration, and the state.
    `outboundCh` also holds the packet the write loop has taken and is about to write. -/
structure Netstack.Stack where
  mtu : ℤ
  gsoOK : Bool
  ttl : UInt8
  queueSize : ℕ
  handlers : List UInt8
  ipv4ID : UInt32
  outboundCh : List Netstack.Stack.OutboundItem
  fragments : Netstack.Stack.Reassembler
  done : Bool
  written : List Netstack.Stack.Write
  delivered : List Netstack.Stack.Delivery
  deriving DecidableEq

namespace Netstack.Stack
open Netstack.Copy Netstack.Header Netstack.Trace Netstack.Simulation

/-- `New`, which refuses an MTU above 1500, and `RegisterHandler`. -/
def newStack (mtu : ℤ) (gsoOK : Bool) (ttl : UInt8) (queueSize : ℕ) (handlers : List UInt8) : Option Stack :=
  if mtu > 1500 then none
  else some {
    mtu := mtu
    gsoOK := gsoOK
    ttl := ttl
    queueSize := queueSize
    handlers := handlers
    ipv4ID := 0
    outboundCh := []
    fragments := newIPv4Reassembler
    done := false
    written := []
    delivered := [] }

/-- The checks of `readLoop` on what `ReadPacket` returned. -/
def parsePacket (raw : List UInt8) : Option PacketBuffer :=
  let hdrLen := IPv4.headerLength raw
  let totalLen := (IPv4.totalLength raw).toNat
  if raw.length < ipv4MinHeaderSize then none
  else if h : hdrLen < ipv4MinHeaderSize ∨ hdrLen > raw.length then none
  else if h' : totalLen < hdrLen ∨ totalLen > raw.length then none
  else if checksum ((raw.take totalLen).take hdrLen) 0 ≠ 0 then none
  else some {
    networkHeader := (raw.take totalLen).take hdrLen
    data := (raw.take totalLen).drop hdrLen
    header_len := by rw [List.length_take, List.length_take]; omega }

/-- `ipHdr.More() || ipHdr.FragmentOffset() != 0`. -/
def isFragment (pb : PacketBuffer) : Bool :=
  IPv4.more pb.networkHeader || IPv4.fragmentOffset pb.networkHeader != 0

/-- The length of the header `assemble` puts in front of the datagram. -/
def Reassembler.headerLen (r : Reassembler) (pb : PacketBuffer) (now : ℤ) : ℕ :=
  match r.intake pb now with
  | .stored _ _ set => (set.header.getD []).length
  | .dropped _ => 0

/-- `channel.WritePacket`. -/
def channelWrite (s : Stack) (data : List UInt8) : Stack :=
  { s with written := s.written ++ [⟨data, .none⟩] }

/-- The header of an echo reply: the addresses swapped, a new TTL and checksum. -/
def replyHeader (hdr : List UInt8) : List UInt8 :=
  let src := IPv4.sourceAddress hdr
  let dst := IPv4.destinationAddress hdr
  let hdr := IPv4.setSourceAddress hdr dst
  let hdr := IPv4.setDestinationAddress hdr src
  let hdr := IPv4.setTTL hdr 64
  let hdr := IPv4.setChecksum hdr 0
  IPv4.setChecksum hdr (checksum hdr 0)

/-- The ICMP part of an echo reply: a new type and checksum. -/
def replyData (data : List UInt8) : List UInt8 :=
  let data := ICMPv4.setType data icmpv4EchoReply
  let data := ICMPv4.setChecksum data 0
  ICMPv4.setChecksum data (checksum data 0)

/-- `handleICMP`: an echo request is turned into the reply in place and written at once. -/
def handleICMP (s : Stack) (hdr data : List UInt8) : Stack :=
  if data.length < icmpv4HeaderSize then s
  else if ICMPv4.type data ≠ icmpv4Echo then s
  else s.channelWrite (replyHeader hdr ++ replyData data)

/-- The switch at the end of `readLoop`. -/
def dispatch (s : Stack) (hdr data : List UInt8) : Stack :=
  let proto := IPv4.protocol hdr
  if proto = icmpv4ProtocolNumber then s.handleICMP hdr data
  else if proto ∈ s.handlers then { s with delivered := s.delivered ++ [⟨proto, hdr, data⟩] }
  else s

/-- One turn of `readLoop` on the bytes read, at time `now`, with the order in which the map of
    pending sets happens to be walked. -/
def read (s : Stack) (raw : List UInt8) (now : ℤ) (order : List (FragmentKey × FragmentSet)) :
    Option Stack :=
  match parsePacket raw with
  | none => some s
  | some pb =>
    if isFragment pb then
      if order.Perm s.fragments.sets then
        let r := { s.fragments with sets := order }
        match r.process pb now with
        | none => none
        | some (r', none) => some { s with fragments := r' }
        | some (r', some bytes) =>
          let hdrLen := r.headerLen pb now
          some ({ s with fragments := r' }.dispatch (bytes.take hdrLen) (bytes.drop hdrLen))
      else none
    else some (s.dispatch pb.networkHeader pb.data)

/-- The header `SendPacket` and `SendPacketGSO` put in front of `segment`. -/
def ipHeader (s : Stack) (segment : List UInt8) (src dst : UInt32) (proto : UInt8) : List UInt8 :=
  let hdr := IPv4.encode {
    tos := 0
    totalLength := UInt16.ofNat (ipv4MinHeaderSize + segment.length)
    id := (s.ipv4ID + 1).toUInt16
    flags := 0
    fragmentOffset := 0
    ttl := s.ttl
    protocol := proto
    checksum := 0
    srcAddr := src
    dstAddr := dst }
  let hdr := IPv4.setChecksum hdr 0
  IPv4.setChecksum hdr (checksum hdr 0)

/-- The `select` at the end of `SendPacket`: the item is taken, or the stack has been stopped. -/
def enqueue (s : Stack) (item : OutboundItem) (sent : Bool) : Option Stack :=
  let s := { s with ipv4ID := s.ipv4ID + 1 }
  if sent then
    if s.outboundCh.length ≤ s.queueSize then some { s with outboundCh := s.outboundCh ++ [item] }
    else none
  else if s.done then some s
  else none

/-- `SendPacket`, on the bytes behind the IPv4 header. -/
def sendPacket (s : Stack) (segment : List UInt8) (src dst : UInt32) (proto : UInt8) (sent : Bool) :
    Option Stack :=
  if ipv4MinHeaderSize + segment.length > 0xffff then some s
  else s.enqueue (.packet (s.ipHeader segment src dst proto ++ segment)) sent

/-- `SendPacketGSO`. -/
def sendPacketGSO (s : Stack) (segment : List UInt8) (src dst : UInt32) (proto : UInt8)
    (opts : PacketOptions) (sent : Bool) : Option Stack :=
  if ipv4MinHeaderSize + segment.length > 0xffff then some s
  else s.enqueue (.gso (s.ipHeader segment src dst proto ++ segment) opts) sent

/-- `writeWirePacket`: `WritePacketGSO` with zero options does what `WritePacket` does. -/
def writeWirePacket (s : Stack) (data : List UInt8) : Stack := s.channelWrite data

/-- `writePacket`. -/
def writePacket (s : Stack) (data : List UInt8) : Stack :=
  if s.mtu ≤ 0 ∨ (data.length : ℤ) ≤ s.mtu then s.writeWirePacket data
  else
    match fragmentIPv4Packet data s.mtu with
    | none => s
    | some frags => frags.foldl writeWirePacket s

/-- `writeGSOItem`. -/
def writeGSOItem (s : Stack) (data : List UInt8) (opts : PacketOptions) : Stack :=
  if s.gsoOK then { s with written := s.written ++ [⟨data, opts⟩] } else s

/-- One turn of `writeLoop`. -/
def write (s : Stack) : Option Stack :=
  match s.outboundCh with
  | [] => none
  | .gso data opts :: rest => some ({ s with outboundCh := rest }.writeGSOItem data opts)
  | .packet data :: rest => some ({ s with outboundCh := rest }.writePacket data)

/-- What can happen. A GSO packet comes with offload options. -/
inductive Event where
  | read (raw : List UInt8) (now : ℤ) (order : List (FragmentKey × FragmentSet))
    (h : raw.length ≤ maxPacketSize)
  | sendPacket (segment : List UInt8) (src dst : UInt32) (proto : UInt8) (sent : Bool)
  | sendPacketGSO (segment : List UInt8) (src dst : UInt32) (proto : UInt8) (opts : PacketOptions)
    (sent : Bool) (h : opts ≠ .none)
  | write
  | stop
  deriving DecidableEq

def step (s : Stack) : Event → Option Stack
  | .read raw now order _ => s.read raw now order
  | .sendPacket segment src dst proto sent => s.sendPacket segment src dst proto sent
  | .sendPacketGSO segment src dst proto opts sent _ => s.sendPacketGSO segment src dst proto opts sent
  | .write => s.write
  | .stop => some { s with done := true }

/-- A stack as `New` and `RegisterHandler` leave it. -/
def Init (s : Stack) : Prop :=
  ∃ mtu gsoOK ttl queueSize handlers, newStack mtu gsoOK ttl queueSize handlers = some s

end Netstack.Stack
