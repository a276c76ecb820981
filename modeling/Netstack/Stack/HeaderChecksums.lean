import Netstack.Stack.Assembled
import Netstack.Stack.Stack
import Netstack.Tcp.Wire

/-! Every checksum the program writes is one it accepts.

    `setTCPChecksum` seals a segment with its pseudo-header, and `SendPacket`, `fragmentIPv4Packet`,
    `assemble` and `handleICMP` seal an IPv4 header; the check of `HandlePacket`, or of the read loop,
    then gives zero. -/

namespace Netstack.Stack
open Netstack.Copy Netstack.Header Netstack.OnesComplement Netstack.Tcp

/-- `header.Checksum(raw[:hdrLen], 0)`, which the read loop wants to be zero. -/
def headerChecksum (raw : List UInt8) : UInt16 := checksum (raw.take (IPv4.headerLength raw)) 0

/-! ### The header of an outgoing packet -/

section
variable (s : Stack) (segment : List UInt8) (src dst : UInt32) (proto : UInt8)

/-- The fields `SendPacket` encodes. -/
def ipFields : IPv4.Fields where
  tos := 0
  totalLength := UInt16.ofNat (ipv4MinHeaderSize + segment.length)
  id := (s.ipv4ID + 1).toUInt16
  flags := 0
  fragmentOffset := 0
  ttl := s.ttl
  protocol := proto
  checksum := 0
  srcAddr := src
  dstAddr := dst

theorem length_encode (f : IPv4.Fields) : (IPv4.encode f).length = ipv4MinHeaderSize := rfl

theorem ipHeader_eq : s.ipHeader segment src dst proto =
    IPv4.sealHeader (IPv4.encode (ipFields s segment src dst proto)) ipv4MinHeaderSize := by
  have htake : (IPv4.setChecksum (IPv4.encode (ipFields s segment src dst proto)) 0).take ipv4MinHeaderSize
      = IPv4.setChecksum (IPv4.encode (ipFields s segment src dst proto)) 0 :=
    List.take_of_length_le (le_of_eq (length_blit _ (by rw [length_encode]; decide)))
  rw [IPv4.sealHeader, htake]
  rfl

@[simp] theorem length_ipHeader : (s.ipHeader segment src dst proto).length = ipv4MinHeaderSize := by
  rw [ipHeader_eq, IPv4.length_sealHeader (by rw [length_encode]; decide), length_encode]

theorem headerLength_ipHeader : IPv4.headerLength (s.ipHeader segment src dst proto) = ipv4MinHeaderSize := by
  rw [IPv4.headerLength, ipHeader_eq, IPv4.getD_sealHeader _ _ (by omega)]
  change ((0x45 : UInt8) &&& 0x0f).toNat * 4 = 20
  decide

theorem totalLength_ipHeader : IPv4.totalLength (s.ipHeader segment src dst proto)
    = UInt16.ofNat (ipv4MinHeaderSize + segment.length) := by
  rw [IPv4.totalLength, ipHeader_eq, IPv4.uint16At_sealHeader _ _ (by omega)]
  exact uint16At_bytes16 _

theorem sourceAddress_ipHeader : IPv4.sourceAddress (s.ipHeader segment src dst proto) = src := by
  rw [IPv4.sourceAddress, ipHeader_eq, IPv4.uint32At_sealHeader _ _ (by omega)]
  exact uint32At_bytes32 _

theorem destinationAddress_ipHeader : IPv4.destinationAddress (s.ipHeader segment src dst proto) = dst := by
  rw [IPv4.destinationAddress, ipHeader_eq, IPv4.uint32At_sealHeader _ _ (by omega)]
  exact uint32At_bytes32 _

theorem headerChecksum_ipHeader : headerChecksum (s.ipHeader segment src dst proto ++ segment) = 0 := by
  have hhl : IPv4.headerLength (s.ipHeader segment src dst proto ++ segment) = ipv4MinHeaderSize := by
    rw [← headerLength_ipHeader s segment src dst proto]
    exact headerLength_congr (getD_append (by rw [length_ipHeader]; decide))
  have hlen := length_ipHeader s segment src dst proto
  rw [headerChecksum, hhl, List.take_append_of_le_length (le_of_eq hlen.symm), ipHeader_eq]
  exact IPv4.checksum_sealHeader (by decide) (le_of_eq (length_encode _).symm) (by decide)

end

/-! ### Fragments -/

theorem buildFragment_eq (hdr : List UInt8) (flags : UInt8) (offset : ℕ) (payload : List UInt8) :
    buildFragment hdr flags offset payload = IPv4.sealHeader (IPv4.setFlagsFragmentOffset
      (IPv4.setTotalLength (hdr ++ payload) (UInt16.ofNat (hdr ++ payload).length)) flags
        (UInt16.ofNat (offset / 8))) hdr.length := rfl

/-- A fragment has the bytes of the packet's header outside the fields it rewrites. -/
theorem getD_buildFragment {hdr : List UInt8} (flags : UInt8) (offset : ℕ) (payload : List UInt8) {j : ℕ}
    (hj : j < hdr.length) (hout : j < 2 ∨ 4 ≤ j ∧ j < 6 ∨ 8 ≤ j ∧ j < 10 ∨ 12 ≤ j) :
    (buildFragment hdr flags offset payload).getD j 0 = hdr.getD j 0 := by
  rw [buildFragment_eq, IPv4.getD_sealHeader _ _ (by omega), IPv4.setFlagsFragmentOffset,
    getD_blit_ne (by rw [length_bytes16]; omega), IPv4.setTotalLength,
    getD_blit_ne (by rw [length_bytes16]; omega), getD_append hj]

theorem headerChecksum_buildFragment {hdr : List UInt8} (h : Framed hdr) (flags : UInt8) (offset : ℕ)
    (payload : List UInt8) : headerChecksum (buildFragment hdr flags offset payload) = 0 := by
  obtain ⟨hmin, hhl⟩ := h
  have hle := headerLength_le hdr
  rw [ipv4MinHeaderSize] at hmin
  have hset : ∀ (b : List UInt8) (i : ℕ) (v : UInt16), hdr.length ≤ b.length → i ≤ 10 →
      hdr.length ≤ (blit b i (bytes16 v)).length := fun b i v hb hi => by rwa [length_blit _ (by omega)]
  have hself : IPv4.headerLength (buildFragment hdr flags offset payload) = hdr.length := by
    rw [hhl]
    exact headerLength_congr (getD_buildFragment flags offset payload (by omega) (by omega))
  rw [headerChecksum, hself, buildFragment_eq]
  exact IPv4.checksum_sealHeader (by omega)
    (hset _ 6 _ (hset _ 2 _ (by rw [List.length_append]; omega) (by omega)) (by omega)) (by omega)

/-- All fragments carry the header of the packet. -/
theorem mem_fragmentLoop {hdr : List UInt8} {baseFlags : UInt8} {maxPayload : ℕ} :
    ∀ {fuel offset : ℕ} {payload frag : List UInt8},
    frag ∈ fragmentLoop hdr baseFlags maxPayload fuel offset payload →
      ∃ flags offset payload, frag = buildFragment hdr flags offset payload
  | 0, _, _, _, hf => by cases hf
  | fuel + 1, offset, payload, frag, hf => by
      rw [fragmentLoop] at hf
      split at hf
      · cases hf
      · rcases List.mem_cons.1 hf with rfl | hf
        · exact ⟨_, _, _, rfl⟩
        · exact mem_fragmentLoop hf

theorem headerChecksum_fragment {pkt : List UInt8} {mtu : ℤ} {frags : List (List UInt8)}
    (h : fragmentIPv4Packet pkt mtu = some frags) (hlong : mtu < (IPv4.totalLength pkt).toNat) :
    ∀ frag ∈ frags, headerChecksum frag = 0 := by
  rw [fragmentIPv4Packet] at h
  dsimp only at h
  split_ifs at h with hshort hbad hfits hdf hmax
  · omega
  · cases h
    intro frag hf
    obtain ⟨flags, offset, payload, rfl⟩ := mem_fragmentLoop hf
    exact headerChecksum_buildFragment (framed_take (by omega) (by omega)) flags offset payload

/-! ### Reassembled packets and echo replies -/

theorem headerChecksum_assemble {set : FragmentSet} {hdr raw : List UInt8} (hhdr : set.header = some hdr)
    (hf : Framed hdr) (ha : set.assemble = some raw) : headerChecksum raw = 0 := by
  obtain ⟨buf, -, rfl, htake, hlen⟩ := assemble_eq hhdr ha
  have hmin := hf.1
  have hle := hf.le
  rw [ipv4MinHeaderSize] at hmin
  have hself : IPv4.headerLength (FragmentSet.finishHeader hdr.length buf) = hdr.length := by
    have h0 : buf.getD 0 0 = hdr.getD 0 0 := by rw [← htake, getD_take (by omega)]
    rw [hf.2]
    exact headerLength_congr ((getD_finishHeader _ _ (by omega)).trans h0)
  rw [headerChecksum, hself]
  exact checksum_finishHeader hf.1 (by omega) (by omega)

/-- The header of an echo reply before its checksum is filled in. -/
def swapped (hdr : List UInt8) : List UInt8 :=
  IPv4.setTTL (IPv4.setDestinationAddress (IPv4.setSourceAddress hdr (IPv4.destinationAddress hdr))
    (IPv4.sourceAddress hdr)) 64

theorem length_swapped {hdr : List UInt8} (h : ipv4MinHeaderSize ≤ hdr.length) :
    (swapped hdr).length = hdr.length := by
  rw [ipv4MinHeaderSize] at h
  have hset : ∀ (b : List UInt8) (i : ℕ) (src : List UInt8), b.length = hdr.length → i ≤ 16 →
      (blit b i src).length = hdr.length := fun b i src hb hi => (length_blit _ (by omega)).trans hb
  exact hset _ 8 _ (hset _ 16 _ (hset _ 12 _ rfl (by omega)) (by omega)) (by omega)

theorem replyHeader_eq {hdr : List UInt8} (h : ipv4MinHeaderSize ≤ hdr.length) :
    replyHeader hdr = IPv4.sealHeader (swapped hdr) hdr.length := by
  have htake : (IPv4.setChecksum (swapped hdr) 0).take hdr.length = IPv4.setChecksum (swapped hdr) 0 := by
    apply List.take_of_length_le
    rw [IPv4.setChecksum, length_blit _ (by rw [length_swapped h]; rw [ipv4MinHeaderSize] at h; omega),
      length_swapped h]
  rw [IPv4.sealHeader, htake]
  rfl

theorem headerChecksum_reply {hdr : List UInt8} (hf : Framed hdr) (data : List UInt8) :
    headerChecksum (replyHeader hdr ++ data) = 0 := by
  have hmin := hf.1
  have hle := hf.le
  rw [ipv4MinHeaderSize] at hmin
  have hlen := length_swapped hf.1
  have hreply : (replyHeader hdr).length = hdr.length := by
    rw [replyHeader_eq hf.1, IPv4.length_sealHeader (by omega), hlen]
  have hself : IPv4.headerLength (replyHeader hdr ++ data) = hdr.length := by
    rw [hf.2]
    refine headerLength_congr ((getD_append (by omega)).trans ?_)
    rw [replyHeader_eq hf.1, IPv4.getD_sealHeader _ _ (by omega), swapped, IPv4.setTTL,
      getD_blit_ne (by omega), IPv4.setDestinationAddress, getD_blit_ne (by omega),
      IPv4.setSourceAddress, getD_blit_ne (by omega)]
  rw [headerChecksum, hself, List.take_append_of_le_length (by omega), replyHeader_eq hf.1]
  exact IPv4.checksum_sealHeader (by omega) (by omega) (by omega)

/-! ### All of them -/

/-- CORRECT: what is sealed verifies. A segment of 20 to 65515 bytes with the checksum of
    `setTCPChecksum` passes `HandlePacket`, behind the header `SendPacket` gives it; the headers
    written by `SendPacket`, `fragmentIPv4Packet`, `assemble` and `handleICMP` pass the read loop; and
    the accumulator of `Checksum` holds the whole sum of up to 65535 bytes. -/
theorem generated_checksums_verify :
    (∀ (seg : List UInt8) (src dst : UInt32), 20 ≤ seg.length → seg.length ≤ 65515 →
      checksum (setTCPChecksum seg src dst)
        (pseudoHeaderChecksum tcpProtocolNumber src dst (UInt16.ofNat seg.length)) = 0 ∧
      ∀ s : Stack, TCPHandler.verifies
        (s.ipHeader (setTCPChecksum seg src dst) src dst tcpProtocolNumber)
        (setTCPChecksum seg src dst) = true) ∧
    (∀ (s : Stack) (segment : List UInt8) (src dst : UInt32) (proto : UInt8),
      headerChecksum (s.ipHeader segment src dst proto ++ segment) = 0) ∧
    (∀ (pkt : List UInt8) (mtu : ℤ) (frags : List (List UInt8)), fragmentIPv4Packet pkt mtu = some frags →
      mtu < (IPv4.totalLength pkt).toNat → ∀ frag ∈ frags, headerChecksum frag = 0) ∧
    (∀ (set : FragmentSet) (hdr raw : List UInt8), set.header = some hdr → Framed hdr →
      set.assemble = some raw → headerChecksum raw = 0) ∧
    (∀ hdr data : List UInt8, Framed hdr → headerChecksum (replyHeader hdr ++ replyData data) = 0) ∧
    ∀ (b : List UInt8) (initial : UInt16), b.length ≤ 65535 →
      initial.toNat + wordSum b < 2 ^ 32 ∧
      (checksumSum b initial.toUInt32).toNat = initial.toNat + wordSum b := by
  refine ⟨fun seg src dst hmin hmax => ?_, headerChecksum_ipHeader, fun pkt mtu frags h hlong =>
    headerChecksum_fragment h hlong, fun set hdr raw hhdr hf ha => headerChecksum_assemble hhdr hf ha,
    fun hdr data hf => headerChecksum_reply hf _, fun b initial hb => ?_⟩
  · refine ⟨checksum_setTCPChecksum src dst hmin (by omega), fun s => ?_⟩
    have hlen := length_setTCPChecksum seg src dst hmin
    have h := @verifies_setTCPChecksum (s.ipHeader (setTCPChecksum seg src dst) src dst tcpProtocolNumber)
      seg hmin (by omega) ?_
    · rw [sourceAddress_ipHeader, destinationAddress_ipHeader] at h
      exact h
    · rw [totalLength_ipHeader, headerLength_ipHeader, hlen, UInt16.toNat_ofNat', ipv4MinHeaderSize]
      exact Nat.mod_eq_of_lt (by omega)
  · have hlt := wordSum_lt hb initial
    have hsum := toNat_checksumSum b initial.toUInt32 (by rwa [UInt16.toNat_toUInt32])
    rw [UInt16.toNat_toUInt32] at hsum
    exact ⟨hlt, hsum⟩

theorem generated_checksums_verify_sample :
    checksum (setTCPChecksum (List.replicate 21 7) 1 2)
      (pseudoHeaderChecksum tcpProtocolNumber 1 2 21) = 0 ∧
    headerChecksum (replyHeader (longHeader 24 0) ++ replyData []) = 0 :=
  ⟨(generated_checksums_verify.1 (List.replicate 21 7) 1 2 (by decide) (by decide)).1,
    generated_checksums_verify.2.2.2.2.1 (longHeader 24 0) [] (by decide +kernel)⟩

end Netstack.Stack
