import Netstack.Header.Checksum
import Netstack.Tcp.State

/-! A TCP segment as bytes: the header view (`header/tcp.go`), `parseSeg` and the checksum functions
    of `segment.go`, and the checks `HandlePacket` makes first (`handler.go`). -/

namespace Netstack.Header
open Netstack.Copy

def tcpProtocolNumber : UInt8 := 6

namespace TCP

/-- `SourcePort`. -/
def sourcePort (b : List UInt8) : UInt16 := uint16At b 0

/-- `DestinationPort`. -/
def destinationPort (b : List UInt8) : UInt16 := uint16At b 2

/-- `SequenceNumber`. -/
def sequenceNumber (b : List UInt8) : UInt32 := uint32At b 4

/-- `AckNumber`. -/
def ackNumber (b : List UInt8) : UInt32 := uint32At b 8

/-- `DataOffset`, in bytes. -/
def dataOffset (b : List UInt8) : UInt8 := (b.getD 12 0 >>> 4) * 4

/-- `Flags`. -/
def flags (b : List UInt8) : TCPFlags := b.getD 13 0 &&& 0x3f

/-- `WindowSize`. -/
def windowSize (b : List UInt8) : UInt16 := uint16At b 14

/-- `SetChecksum`. -/
def setChecksum (b : List UInt8) (v : UInt16) : List UInt8 := blit b 16 (bytes16 v)

/-- `Options`: the bytes between the fixed header and the data offset. -/
def options (b : List UInt8) : List UInt8 :=
  let offset := (dataOffset b).toNat
  if offset ≤ tcpMinHeaderSize ∨ offset > b.length then [] else (b.take offset).drop tcpMinHeaderSize

/-- `TCPFields`; the senders leave checksum and urgent pointer zero. -/
structure Fields where
  srcPort : UInt16
  dstPort : UInt16
  seqNum : UInt32
  ackNum : UInt32
  dataOffset : UInt8
  flags : TCPFlags
  windowSize : UInt16
  checksum : UInt16
  urgentPointer : UInt16

/-- `Encode`. -/
def encode (f : Fields) : List UInt8 :=
  bytes16 f.srcPort ++ bytes16 f.dstPort ++ bytes32 f.seqNum ++ bytes32 f.ackNum
    ++ [f.dataOffset <<< 4, f.flags] ++ bytes16 f.windowSize ++ bytes16 f.checksum
    ++ bytes16 f.urgentPointer

end TCP
end Netstack.Header

namespace Netstack.Tcp
open Netstack.Copy Netstack.Header

/-- `parseSeg`, on the bytes behind the IPv4 header. -/
def parseSeg (data : List UInt8) (h : data.length < 2 ^ 16) : Segment where
  flags := TCP.flags data
  seq := TCP.sequenceNumber data
  ack := TCP.ackNumber data
  wnd := TCP.windowSize data
  options := TCP.options data
  payload :=
    let dataOffset := (TCP.dataOffset data).toNat
    if dataOffset < data.length then data.drop dataOffset else []
  payload_lt := by
    dsimp only
    split_ifs
    · rw [List.length_drop]
      omega
    · exact Nat.pow_pos (by decide)

/-- `setTCPChecksum`, on a whole segment. -/
def setTCPChecksum (seg : List UInt8) (src dst : UInt32) : List UInt8 :=
  let tcpLen := UInt16.ofNat seg.length
  let seg := TCP.setChecksum seg 0
  let sum := pseudoHeaderChecksum tcpProtocolNumber src dst tcpLen
  TCP.setChecksum seg (checksum seg sum)

/-- `setTCPPartialChecksum`: only the pseudo-header goes into the field. -/
def setTCPPartialChecksum (hdr : List UInt8) (src dst : UInt32) (tcpLen : UInt16) : List UInt8 :=
  TCP.setChecksum hdr (pseudoHeaderChecksum tcpProtocolNumber src dst tcpLen)

/-- The checks at the start of `HandlePacket`: the length and the checksum. -/
def TCPHandler.verifies (ipHdr data : List UInt8) : Bool :=
  let tcpLen := min (IPv4.totalLength ipHdr - UInt16.ofNat (IPv4.headerLength ipHdr))
    (UInt16.ofNat data.length)
  let sum := pseudoHeaderChecksum tcpProtocolNumber (IPv4.sourceAddress ipHdr)
    (IPv4.destinationAddress ipHdr) tcpLen
  !decide (data.length < tcpMinHeaderSize) && checksum (data.take tcpLen.toNat) sum == 0

@[simp] theorem length_setTCPChecksum (seg : List UInt8) (src dst : UInt32)
    (h : tcpMinHeaderSize ≤ seg.length) : (setTCPChecksum seg src dst).length = seg.length := by
  rw [tcpMinHeaderSize] at h
  dsimp only [setTCPChecksum, TCP.setChecksum]
  rw [length_blit _ (by rw [length_blit _ (by omega)]; omega), length_blit _ (by omega)]

/-- A segment sealed by `setTCPChecksum` sums to zero with its pseudo-header. -/
theorem checksum_setTCPChecksum {seg : List UInt8} (src dst : UInt32)
    (hlen : tcpMinHeaderSize ≤ seg.length) (hmax : seg.length ≤ 65535) :
    checksum (setTCPChecksum seg src dst)
      (pseudoHeaderChecksum tcpProtocolNumber src dst (UInt16.ofNat seg.length)) = 0 := by
  rw [tcpMinHeaderSize] at hlen
  dsimp only [setTCPChecksum, TCP.setChecksum]
  rw [blit_blit (by rw [length_bytes16, length_bytes16]) (by rw [length_bytes16]; omega)]
  exact checksum_sealed (by decide) (by omega) hmax

/-- `HandlePacket` passes it on, if the IPv4 header has the addresses and the length. -/
theorem verifies_setTCPChecksum {ipHdr seg : List UInt8} (hlen : tcpMinHeaderSize ≤ seg.length)
    (hmax : seg.length ≤ 65535)
    (htotal : (IPv4.totalLength ipHdr).toNat = IPv4.headerLength ipHdr + seg.length) :
    TCPHandler.verifies ipHdr
      (setTCPChecksum seg (IPv4.sourceAddress ipHdr) (IPv4.destinationAddress ipHdr)) = true := by
  have hlt := (IPv4.totalLength ipHdr).toNat_lt
  have hsub : IPv4.totalLength ipHdr - UInt16.ofNat (IPv4.headerLength ipHdr) = UInt16.ofNat seg.length := by
    rw [← UInt16.toNat_inj, UInt16.toNat_sub, UInt16.toNat_ofNat', UInt16.toNat_ofNat', htotal]
    omega
  have hmin : ∀ v : UInt16, min v v = v := fun _ => ite_self _
  dsimp only [TCPHandler.verifies]
  rw [length_setTCPChecksum _ _ _ hlen, hsub, hmin, UInt16.toNat_ofNat', Nat.mod_eq_of_lt (by omega),
    List.take_of_length_le (by rw [length_setTCPChecksum _ _ _ hlen]),
    checksum_setTCPChecksum _ _ hlen hmax, decide_eq_false (by omega)]
  rfl

end Netstack.Tcp
