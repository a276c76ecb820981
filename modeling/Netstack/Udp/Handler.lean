import Netstack.Stack.HeaderChecksums

/-! The UDP handler (`transport/udp/handler.go`).

    Inbound datagrams wait in a bounded queue for `ReadFrom`; `WriteTo` puts a UDP header in front of
    the payload and hands the segment to the stack. `HandlePacket` looks at no field but the ports,
    and `WriteTo` stores the checksum as it comes out of the sum, which for some datagrams is the zero
    that stands for no checksum. -/

namespace Netstack.Udp
open Netstack.Copy Netstack.Header Netstack.OnesComplement

/-- `tcpip.FullAddress`. -/
structure FullAddress where
  addr : UInt32
  port : UInt16
  deriving DecidableEq

/-- `udpDatagram`, with the bytes of its buffer. -/
structure UDPDatagram where
  payload : List UInt8
  src : FullAddress
  dst : FullAddress
  deriving DecidableEq

/-- `UDPHandler`: the queue of inbound datagrams with its capacity, and whether `done` is closed. -/
structure UDPHandler where
  inbound : List UDPDatagram
  inboundQueueSize : ℕ
  done : Bool
  deriving DecidableEq

/-- What `ReadFrom` and `WriteTo` fail with. -/
inductive Error where
  | closed
  | messageTooLong
  deriving DecidableEq

def maxIPv4UDPPayload : ℕ := 0xffff - ipv4MinHeaderSize - udpHeaderSize

namespace UDPHandler

/-- `NewUDPHandler`. -/
def new (inboundQueueSize : ℕ) : UDPHandler where
  inbound := []
  inboundQueueSize := inboundQueueSize
  done := false

/-- The datagram `HandlePacket` makes of a packet. -/
def datagramOf (ipHdr data : List UInt8) : UDPDatagram :=
  let udpHdr := data.take udpHeaderSize
  { payload := data.drop udpHeaderSize
    src := ⟨IPv4.sourceAddress ipHdr, UDP.sourcePort udpHdr⟩
    dst := ⟨IPv4.destinationAddress ipHdr, UDP.destinationPort udpHdr⟩ }

/-- `HandlePacket`: the datagram is queued if there is room, and dropped otherwise. -/
def handlePacket (h : UDPHandler) (ipHdr data : List UInt8) : UDPHandler :=
  if data.length < udpHeaderSize then h
  else if h.inbound.length < h.inboundQueueSize then
    { h with inbound := h.inbound ++ [datagramOf ipHdr data] }
  else h

/-- The UDP segment `WriteTo` builds. -/
def fullUDP (b : List UInt8) (src dst : FullAddress) : List UInt8 :=
  let udpTotalLen := UInt16.ofNat (udpHeaderSize + b.length)
  let udp := UDP.encode ⟨src.port, dst.port, udpTotalLen, 0⟩ ++ b
  let udp := UDP.setChecksum udp 0
  let phc := pseudoHeaderChecksum udpProtocolNumber src.addr dst.addr udpTotalLen
  UDP.setChecksum udp (Header.checksum udp phc)

/-- `WriteTo`, with the way the `select` of `SendPacket` goes. -/
def writeTo (h : UDPHandler) (s : Stack) (b : List UInt8) (src dst : FullAddress) (sent : Bool) :
    Option (Except Error ℕ × Stack) :=
  if h.done then some (.error .closed, s)
  else if b.length > maxIPv4UDPPayload then some (.error .messageTooLong, s)
  else (s.sendPacket (fullUDP b src dst) src.addr dst.addr udpProtocolNumber sent).map fun s =>
    (.ok b.length, s)

/-- `Close`. -/
def close (h : UDPHandler) : UDPHandler := { h with done := true }

end UDPHandler

/-! ### The segment -/

open UDPHandler

section
variable (b : List UInt8) (src dst : FullAddress)

/-- The header with its checksum left zero, and the payload. -/
def unsealed : List UInt8 :=
  UDP.encode ⟨src.port, dst.port, UInt16.ofNat (udpHeaderSize + b.length), 0⟩ ++ b

theorem length_unsealed : (unsealed b src dst).length = udpHeaderSize + b.length := by
  simp [unsealed, UDP.encode, udpHeaderSize]
  omega

/-- The checksum field is zero before it is set to zero. -/
theorem setChecksum_unsealed : UDP.setChecksum (unsealed b src dst) 0 = unsealed b src dst := by
  have hfield : uint16At (unsealed b src dst) 6 = 0 := uint16At_bytes16 0
  have hself := @blit_uint16At (unsealed b src dst) 6 (by rw [length_unsealed, udpHeaderSize]; omega)
  rwa [hfield] at hself

theorem fullUDP_eq : fullUDP b src dst = UDP.setChecksum (unsealed b src dst)
    (Header.checksum (unsealed b src dst) (pseudoHeaderChecksum udpProtocolNumber src.addr dst.addr
      (UInt16.ofNat (udpHeaderSize + b.length)))) := by
  dsimp only [fullUDP]
  rw [← unsealed, setChecksum_unsealed]

theorem length_fullUDP : (fullUDP b src dst).length = udpHeaderSize + b.length := by
  rw [fullUDP_eq, UDP.setChecksum, length_blit _ (by rw [length_unsealed, udpHeaderSize]; omega), length_unsealed]

theorem uint16At_fullUDP {i : ℕ} (h : i + 2 ≤ 6) : uint16At (fullUDP b src dst) i = uint16At (unsealed b src dst) i := by
  rw [fullUDP_eq, UDP.setChecksum, uint16At_blit_ne (by omega)]

theorem sourcePort_fullUDP : UDP.sourcePort (fullUDP b src dst) = src.port :=
  (uint16At_fullUDP b src dst (by omega)).trans (uint16At_bytes16 _)

theorem destinationPort_fullUDP : UDP.destinationPort (fullUDP b src dst) = dst.port :=
  (uint16At_fullUDP b src dst (by omega)).trans (uint16At_bytes16 _)

theorem drop_fullUDP : (fullUDP b src dst).drop udpHeaderSize = b := by
  rw [fullUDP_eq, UDP.setChecksum, drop_blit _ (by rw [length_bytes16, udpHeaderSize])
    (by rw [length_bytes16, length_unsealed, udpHeaderSize]; omega)]
  exact List.drop_left' (by simp [UDP.encode, udpHeaderSize])

end

/-! ### The checksum that is sent -/

/-- The words of pseudo-header, header and payload: the addresses, the protocol, the ports, the length
    twice and the payload. -/
def datagramSum (b : List UInt8) (src dst : FullAddress) : ℕ :=
  wordSum (bytes32 src.addr) + wordSum (bytes32 dst.addr) + 17 + (8 + b.length)
    + (src.port.toNat + dst.port.toNat + (8 + b.length) + wordSum b)

section
variable {b : List UInt8} {src dst : FullAddress}

theorem wordSum_unsealed (h : b.length ≤ maxIPv4UDPPayload) : wordSum (unsealed b src dst)
    = src.port.toNat + dst.port.toNat + (8 + b.length) + wordSum b := by
  rw [maxIPv4UDPPayload, ipv4MinHeaderSize, udpHeaderSize] at h
  have hlen : (UInt16.ofNat (udpHeaderSize + b.length)).toNat = 8 + b.length := by
    rw [UInt16.toNat_ofNat', udpHeaderSize]
    exact Nat.mod_eq_of_lt (by omega)
  rw [unsealed, UDP.encode, wordSum_append, wordSum_append, wordSum_append, wordSum_append, wordSum_bytes16,
    wordSum_bytes16, wordSum_bytes16, wordSum_bytes16, hlen] <;> simp <;> decide

/-- The checksum comes out as zero exactly if the words add up to a multiple of 65535. -/
theorem checksum_fullUDP (h : b.length ≤ maxIPv4UDPPayload) :
    UDP.checksum (fullUDP b src dst) = 0 ↔ 65535 ∣ datagramSum b src dst := by
  have hmax := h
  rw [maxIPv4UDPPayload, ipv4MinHeaderSize, udpHeaderSize] at hmax
  have hlen := length_unsealed b src dst
  have hfield : UDP.checksum (fullUDP b src dst) = Header.checksum (unsealed b src dst)
      (pseudoHeaderChecksum udpProtocolNumber src.addr dst.addr (UInt16.ofNat (udpHeaderSize + b.length))) := by
    rw [UDP.checksum, fullUDP_eq, UDP.setChecksum, uint16At_blit_self _ (by rw [hlen, udpHeaderSize]; omega)]
  have hsum : pseudoHeaderSum udpProtocolNumber src.addr dst.addr (UInt16.ofNat (udpHeaderSize + b.length))
      + wordSum (unsealed b src dst) = datagramSum b src dst := by
    rw [wordSum_unsealed h, pseudoHeaderSum, UInt16.toNat_ofNat', udpHeaderSize, Nat.mod_eq_of_lt (by omega)]
    rfl
  have hpos : datagramSum b src dst ≠ 0 := by
    rw [datagramSum]
    omega
  rw [hfield, checksum_eq_zero (wordSum_lt (by rw [hlen, udpHeaderSize]; omega) _), toNat_pseudoHeaderChecksum,
    residue_residue_add (by decide), hsum, residue_eq_self (by decide)]
  exact and_iff_right hpos

/-- The segment verifies, whatever its checksum. -/
theorem fullUDP_verifies (h : b.length ≤ maxIPv4UDPPayload) : Header.checksum (fullUDP b src dst)
    (pseudoHeaderChecksum udpProtocolNumber src.addr dst.addr (UInt16.ofNat (fullUDP b src dst).length)) = 0 := by
  rw [maxIPv4UDPPayload, ipv4MinHeaderSize, udpHeaderSize] at h
  have hlen := length_unsealed b src dst
  rw [udpHeaderSize] at hlen
  rw [length_fullUDP, fullUDP_eq]
  conv_lhs => rw [← setChecksum_unsealed]
  rw [UDP.setChecksum, UDP.setChecksum, blit_blit (by simp) (by rw [length_bytes16]; omega)]
  exact checksum_sealed (by decide) (by omega) (by omega)

end

/-- What a `WriteTo` that succeeds leaves in the outbound queue. -/
theorem writeTo_ok {h : UDPHandler} {s s' : Stack} {b : List UInt8} {src dst : FullAddress} {n : ℕ}
    (hw : h.writeTo s b src dst true = some (.ok n, s')) : b.length ≤ maxIPv4UDPPayload ∧ n = b.length ∧
    s'.outboundCh = s.outboundCh ++
      [.packet (s.ipHeader (fullUDP b src dst) src.addr dst.addr udpProtocolNumber ++ fullUDP b src dst)] := by
  rw [writeTo] at hw
  split_ifs at hw with hdone hlong
  · cases hw
  · cases hw
  · obtain ⟨s₁, hsend, heq⟩ := Option.map_eq_some_iff.1 hw
    cases heq
    have hle : b.length ≤ maxIPv4UDPPayload := by omega
    refine ⟨hle, rfl, ?_⟩
    rw [maxIPv4UDPPayload, ipv4MinHeaderSize, udpHeaderSize] at hle
    rw [Stack.sendPacket, if_neg (by rw [length_fullUDP, ipv4MinHeaderSize, udpHeaderSize]; omega), Stack.enqueue,
      if_pos rfl] at hsend
    dsimp only at hsend
    split_ifs at hsend with hroom
    cases hsend
    rfl

/-- CORRECT: the datagram that `WriteTo` sends verifies against its pseudo-header and its checksum
    field is not zero, exactly if the words it covers do not add up to a multiple of 65535. -/
theorem writeTo_checksum_iff {h : UDPHandler} {s s' : Stack} {b : List UInt8} {src dst : FullAddress} {n : ℕ}
    (hw : h.writeTo s b src dst true = some (.ok n, s')) :
    ∃ ipHdr udp, s'.outboundCh = s.outboundCh ++ [.packet (ipHdr ++ udp)] ∧ ipHdr.length = ipv4MinHeaderSize ∧
      ((UDP.checksum udp ≠ 0 ∧ Header.checksum udp (pseudoHeaderChecksum udpProtocolNumber src.addr dst.addr
        (UInt16.ofNat udp.length)) = 0) ↔ ¬65535 ∣ datagramSum b src dst) := by
  obtain ⟨hle, -, hout⟩ := writeTo_ok hw
  refine ⟨_, _, hout, Stack.length_ipHeader .., ?_⟩
  rw [Ne, checksum_fullUDP hle]
  exact and_iff_left (fullUDP_verifies hle)

/-- A stack that nothing has been sent through. -/
def idleStack : Stack := (Stack.newStack 1500 false 64 8 [17]).get rfl

theorem writeTo_checksum_sample : ∃ s' ipHdr udp,
    (UDPHandler.new 1).writeTo idleStack [1, 2, 3] ⟨0x0a000001, 53⟩ ⟨0x0a000002, 1024⟩ true = some (.ok 3, s') ∧
    s'.outboundCh = [.packet (ipHdr ++ udp)] ∧ UDP.checksum udp ≠ 0 := by
  obtain ⟨s', hw⟩ : ∃ s', (UDPHandler.new 1).writeTo idleStack [1, 2, 3] ⟨0x0a000001, 53⟩ ⟨0x0a000002, 1024⟩ true
      = some (.ok 3, s') := ⟨_, rfl⟩
  obtain ⟨ipHdr, udp, hout, -, hiff⟩ := writeTo_checksum_iff hw
  exact ⟨s', ipHdr, udp, hw, hout, (hiff.2 (by decide)).1⟩

/-- A datagram from 10.0.0.1:1 to 10.0.0.2:2 with the payload `eb d4` is sent without a checksum. -/
theorem zero_checksum_sent : ∃ s' pkt,
    (UDPHandler.new 1).writeTo idleStack [0xeb, 0xd4] ⟨0x0a000001, 1⟩ ⟨0x0a000002, 2⟩ true = some (.ok 2, s') ∧
    s'.outboundCh = [.packet pkt] ∧ UDP.checksum (pkt.drop ipv4MinHeaderSize) = 0 :=
  ⟨_, _, rfl, rfl, by decide +kernel⟩

/-! ### Inbound datagrams -/

/-- The length field and the checksum of inbound UDP data are right. -/
def Sound (ipHdr data : List UInt8) : Prop :=
  udpHeaderSize ≤ (UDP.length data).toNat ∧ (UDP.length data).toNat ≤ data.length ∧
  (UDP.checksum data = 0 ∨ Header.checksum (data.take (UDP.length data).toNat)
    (pseudoHeaderChecksum udpProtocolNumber (IPv4.sourceAddress ipHdr) (IPv4.destinationAddress ipHdr)
      (UDP.length data)) = 0)

instance (ipHdr data : List UInt8) : Decidable (Sound ipHdr data) := inferInstanceAs (Decidable (_ ∧ _ ∧ _))

theorem handlePacket_inbound {h : UDPHandler} {ipHdr data : List UInt8} {dg : UDPDatagram} :
    (h.handlePacket ipHdr data).inbound = h.inbound ++ [dg] ↔
      udpHeaderSize ≤ data.length ∧ h.inbound.length < h.inboundQueueSize ∧ dg = datagramOf ipHdr data := by
  rw [handlePacket]
  split_ifs with hshort hroom
  · simp; omega
  · simp [eq_comm, hroom, Nat.le_of_not_lt hshort]
  · simp; omega

end Netstack.Udp
