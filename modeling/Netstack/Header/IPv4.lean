import Netstack.Lib.Copy

/-! Big-endian fields, the internet checksum and the IPv4 header view (`header/checksum.go`,
    `header/ipv4.go`).

    A header is the list of its bytes. The accessors read the fields at the source's offsets;
    a byte past the end reads as zero here, so every use is made on at least 20 bytes, which is
    what the packet reader checks first. -/

namespace Netstack.Header
open Netstack.Copy

def ipv4MinHeaderSize : ℕ := 20
def ipv4FlagMoreFragments : UInt8 := 1
def ipv4FlagDontFragment : UInt8 := 2

/-- `binary.BigEndian.Uint16(b[i:])`. -/
def uint16At (b : List UInt8) (i : ℕ) : UInt16 :=
  (b.getD i 0).toUInt16 <<< 8 ||| (b.getD (i + 1) 0).toUInt16

/-- `binary.BigEndian.Uint32(b[i:])`. -/
def uint32At (b : List UInt8) (i : ℕ) : UInt32 :=
  (b.getD i 0).toUInt32 <<< 24 ||| (b.getD (i + 1) 0).toUInt32 <<< 16
    ||| (b.getD (i + 2) 0).toUInt32 <<< 8 ||| (b.getD (i + 3) 0).toUInt32

/-- The two bytes of `binary.BigEndian.PutUint16`. -/
def bytes16 (v : UInt16) : List UInt8 := [(v >>> 8).toUInt8, v.toUInt8]

/-- The four bytes of `binary.BigEndian.PutUint32`. -/
def bytes32 (v : UInt32) : List UInt8 :=
  [(v >>> 24).toUInt8, (v >>> 16).toUInt8, (v >>> 8).toUInt8, v.toUInt8]

/-- The word loop of `Checksum`, with the odd byte at the end. -/
def checksumSum : List UInt8 → UInt32 → UInt32
  | a :: b :: rest, sum => checksumSum rest (sum + (a.toUInt32 <<< 8 ||| b.toUInt32))
  | [a], sum => sum + (a.toUInt32 <<< 8)
  | [], sum => sum

/-- The folding loop of `Checksum`; a 32-bit sum folds at most twice. -/
def checksumFold (sum : UInt32) : UInt32 :=
  let fold (s : UInt32) := if s > 0xffff then (s >>> 16) + (s &&& 0xffff) else s
  fold (fold sum)

/-- `Checksum`. -/
def checksum (b : List UInt8) (initial : UInt16) : UInt16 :=
  ~~~ (checksumFold (checksumSum b initial.toUInt32)).toUInt16

namespace IPv4

/-- `HeaderLength`: IHL times four. -/
def headerLength (b : List UInt8) : ℕ := (b.getD 0 0 &&& 0x0f).toNat * 4

/-- `TotalLength`. -/
def totalLength (b : List UInt8) : UInt16 := uint16At b 2

/-- `ID`. -/
def id (b : List UInt8) : UInt16 := uint16At b 4

/-- `Flags`. -/
def flags (b : List UInt8) : UInt8 := b.getD 6 0 >>> 5

/-- `More`. -/
def more (b : List UInt8) : Bool := flags b &&& ipv4FlagMoreFragments != 0

/-- `FragmentOffset`, in units of eight bytes. -/
def fragmentOffset (b : List UInt8) : UInt16 := uint16At b 6 &&& 0x1fff

/-- `Protocol`. -/
def protocol (b : List UInt8) : UInt8 := b.getD 9 0

/-- `SourceAddress`. -/
def sourceAddress (b : List UInt8) : UInt32 := uint32At b 12

/-- `DestinationAddress`. -/
def destinationAddress (b : List UInt8) : UInt32 := uint32At b 16

/-- `SetTotalLength`. -/
def setTotalLength (b : List UInt8) (v : UInt16) : List UInt8 := blit b 2 (bytes16 v)

/-- `SetFlagsFragmentOffset`. -/
def setFlagsFragmentOffset (b : List UInt8) (flags : UInt8) (offset : UInt16) : List UInt8 :=
  blit b 6 (bytes16 (flags.toUInt16 <<< 13 ||| (offset &&& 0x1fff)))

/-- `SetTTL`. -/
def setTTL (b : List UInt8) (ttl : UInt8) : List UInt8 := blit b 8 [ttl]

/-- `SetChecksum`. -/
def setChecksum (b : List UInt8) (v : UInt16) : List UInt8 := blit b 10 (bytes16 v)

/-- `SetSourceAddress`. -/
def setSourceAddress (b : List UInt8) (addr : UInt32) : List UInt8 := blit b 12 (bytes32 addr)

/-- `SetDestinationAddress`. -/
def setDestinationAddress (b : List UInt8) (addr : UInt32) : List UInt8 := blit b 16 (bytes32 addr)

/-- `IPv4Fields`. -/
structure Fields where
  tos : UInt8
  totalLength : UInt16
  id : UInt16
  flags : UInt8
  fragmentOffset : UInt16
  ttl : UInt8
  protocol : UInt8
  checksum : UInt16
  srcAddr : UInt32
  dstAddr : UInt32

/-- `Encode`, on a header of 20 bytes: version 4, no options. -/
def encode (f : Fields) : List UInt8 :=
  [0x45, f.tos] ++ bytes16 f.totalLength ++ bytes16 f.id
    ++ bytes16 (f.flags.toUInt16 <<< 13 ||| (f.fragmentOffset &&& 0x1fff)) ++ [f.ttl, f.protocol]
    ++ bytes16 f.checksum ++ bytes32 f.srcAddr ++ bytes32 f.dstAddr

end IPv4
end Netstack.Header
