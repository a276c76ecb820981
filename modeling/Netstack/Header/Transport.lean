import Netstack.Header.IPv4

/-! The ICMP and UDP header views and the pseudo-header (`header/icmp.go`, `header/udp.go`,
    `header/checksum.go`). -/

namespace Netstack.Header
open Netstack.Copy

def icmpv4ProtocolNumber : UInt8 := 1
def udpProtocolNumber : UInt8 := 17

def icmpv4HeaderSize : ℕ := 8
def icmpv4EchoReply : UInt8 := 0
def icmpv4Echo : UInt8 := 8

def udpHeaderSize : ℕ := 8

/-- `PseudoHeaderChecksum`: the sum, not its complement. -/
def pseudoHeaderChecksum (proto : UInt8) (src dst : UInt32) (totalLen : UInt16) : UInt16 :=
  ~~~ checksum (bytes32 src ++ bytes32 dst ++ [0, proto] ++ bytes16 totalLen) 0

namespace ICMPv4

/-- `Type`. -/
def type (b : List UInt8) : UInt8 := b.getD 0 0

/-- `SetType`. -/
def setType (b : List UInt8) (typ : UInt8) : List UInt8 := blit b 0 [typ]

/-- `SetChecksum`. -/
def setChecksum (b : List UInt8) (v : UInt16) : List UInt8 := blit b 2 (bytes16 v)

end ICMPv4

namespace UDP

/-- `SourcePort`. -/
def sourcePort (b : List UInt8) : UInt16 := uint16At b 0

/-- `DestinationPort`. -/
def destinationPort (b : List UInt8) : UInt16 := uint16At b 2

/-- `Length`. -/
def length (b : List UInt8) : UInt16 := uint16At b 4

/-- `Checksum`. -/
def checksum (b : List UInt8) : UInt16 := uint16At b 6

/-- `SetChecksum`. -/
def setChecksum (b : List UInt8) (v : UInt16) : List UInt8 := blit b 6 (bytes16 v)

/-- `UDPFields`. -/
structure Fields where
  srcPort : UInt16
  dstPort : UInt16
  length : UInt16
  checksum : UInt16

/-- `Encode`. -/
def encode (f : Fields) : List UInt8 :=
  bytes16 f.srcPort ++ bytes16 f.dstPort ++ bytes16 f.length ++ bytes16 f.checksum

end UDP
end Netstack.Header
