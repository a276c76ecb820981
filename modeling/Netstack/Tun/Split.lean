import Netstack.Tcp.Wire
import Netstack.Tun.Checksum

/-! Splitting a GSO packet (`gsoSplit` in `channel/tun/offload.go`).

    The big packet is cut behind its headers every `gsoSize` bytes. Each segment gets a copy of both
    headers, with its own length, identification and checksums, and with the sequence number its
    first byte has. `splitSegment_tcpv4` says what stands in the buffer after a turn of the loop. -/

namespace Netstack.Tun
open Netstack.Copy Netstack.Header

/-! ### The source -/

def ipv4SrcAddrOffset : ℕ := 12
def ipv6SrcAddrOffset : ℕ := 8
def tcpFlagsOffset : UInt16 := 13
def tcpFlagFIN : UInt8 := 0x01
def tcpFlagPSH : UInt8 := 0x08

/-- `VIRTIO_NET_HDR_F_NEEDS_CSUM`. -/
def needsCsum : UInt8 := 1

/-- `VIRTIO_NET_HDR_GSO_TCPV4`. -/
def gsoTCPv4 : UInt8 := 1

/-- `VIRTIO_NET_HDR_GSO_TCPV6`. -/
def gsoTCPv6 : UInt8 := 4

/-- `virtioNetHdr`. -/
structure VirtioNetHdr where
  flags : UInt8
  gsoType : UInt8
  hdrLen : UInt16
  gsoSize : UInt16
  csumStart : UInt16
  csumOffset : UInt16

namespace VirtioNetHdr

/-- The packet is TCP, over either version of IP. -/
def isTCP (hdr : VirtioNetHdr) : Bool := hdr.gsoType == gsoTCPv4 || hdr.gsoType == gsoTCPv6

/-- `protocol`. -/
def protocol (hdr : VirtioNetHdr) : UInt8 :=
  if hdr.isTCP then tcpProtocolNumber else udpProtocolNumber

end VirtioNetHdr

/-- The errors of `gsoSplit`. -/
inductive SplitError where
  | tooManySegments
  deriving DecidableEq

/-- What a call of `gsoSplit` leaves and returns. -/
structure Split where
  outBuffs : List (List UInt8)
  sizes : List ℕ
  n : ℤ
  err : Option SplitError

/-- The packets in the buffers, each of the size noted for it. -/
def Split.packets (r : Split) (outOffset : ℕ) : List (List UInt8) :=
  ((r.outBuffs.zip r.sizes).take r.n.toNat).map fun b => (b.1.drop outOffset).take b.2

/-- `b[i:j]`. -/
def slice (b : List UInt8) (i j : ℕ) : List UInt8 := (b.take j).drop i

section
variable (o : ByteOrder) (hdr : VirtioNetHdr) (isV6 : Bool) (pkt : List UInt8)

/-- The packet with its checksums cleared. -/
def clearChecksums : List UInt8 :=
  let pkt := if isV6 then pkt else blit pkt 10 [0, 0]
  blit pkt (hdr.csumStart + hdr.csumOffset).toNat [0, 0]

/-- `srcAddrOffset`. -/
def srcAddrOffset : ℕ := if isV6 then ipv6SrcAddrOffset else ipv4SrcAddrOffset

/-- `addrLen`. -/
def addrLen : ℕ := if isV6 then 16 else 4

/-- `nextSegmentEnd`. -/
def nextSegmentEnd (nextSegmentDataAt : ℕ) : ℕ := min (nextSegmentDataAt + hdr.gsoSize.toNat) pkt.length

/-- `totalLen`. -/
def totalLen (nextSegmentDataAt : ℕ) : ℕ :=
  hdr.hdrLen.toNat + (nextSegmentEnd hdr pkt nextSegmentDataAt - nextSegmentDataAt)

/-- The network header in front of segment `i`. -/
def copyNetworkHeader (i total : ℕ) (out : List UInt8) : List UInt8 :=
  let iphLen := hdr.csumStart.toNat
  let out := blit out 0 (pkt.take iphLen)
  if isV6 then blit out 4 (bytes16 (UInt16.ofNat (total - iphLen)))
  else
    let out := if i > 0 then blit out 4 (bytes16 (uint16At out 4 + UInt16.ofNat i)) else out
    let out := blit out 2 (bytes16 (UInt16.ofNat total))
    blit out 10 (bytes16 (~~~ checksum o (out.take iphLen) 0))

/-- The transport header of segment `i`, which holds `dataLen` bytes. -/
def copyTransportHeader (i dataLen : ℕ) (last : Bool) (out : List UInt8) : List UInt8 :=
  let firstTCPSeqNum := uint32At pkt (hdr.csumStart + 4).toNat
  let out := blit out hdr.csumStart.toNat (slice pkt hdr.csumStart.toNat hdr.hdrLen.toNat)
  if hdr.isTCP then
    let tcpSeq := firstTCPSeqNum + (hdr.gsoSize * UInt16.ofNat i).toUInt32
    let out := blit out (hdr.csumStart + 4).toNat (bytes32 tcpSeq)
    if last then out
    else
      let flagsAt := (hdr.csumStart + tcpFlagsOffset).toNat
      blit out flagsAt [out.getD flagsAt 0 &&& ~~~ (tcpFlagFIN ||| tcpFlagPSH)]
  else
    blit out (hdr.csumStart + 4).toNat (bytes16 (UInt16.ofNat dataLen + (hdr.hdrLen - hdr.csumStart)))

/-- One turn of the loop, on `outBuffs[i][outOffset:]`. -/
def splitSegment (i nextSegmentDataAt : ℕ) (out : List UInt8) : List UInt8 :=
  let segmentEnd := nextSegmentEnd hdr pkt nextSegmentDataAt
  let segmentDataLen := segmentEnd - nextSegmentDataAt
  let total := totalLen hdr pkt nextSegmentDataAt
  let out := copyNetworkHeader o hdr isV6 pkt i total out
  let out := copyTransportHeader hdr pkt i segmentDataLen (segmentEnd == pkt.length) out
  let out := blit out hdr.hdrLen.toNat (slice pkt nextSegmentDataAt segmentEnd)
  let lenForPseudo := UInt16.ofNat ((hdr.hdrLen - hdr.csumStart).toNat + segmentDataLen)
  let src := srcAddrOffset isV6
  let len := addrLen isV6
  let sum := pseudoHeaderChecksumNoFold o hdr.protocol (slice pkt src (src + len))
    (slice pkt (src + len) (src + len * 2)) lenForPseudo
  blit out (hdr.csumStart + hdr.csumOffset).toNat
    (bytes16 (~~~ checksum o (slice out hdr.csumStart.toNat total) sum))

/-- The slices a turn takes exist; a turn that goes beyond them ends the program. -/
def InRange (nextSegmentDataAt : ℕ) (out : List UInt8) : Prop :=
  hdr.csumStart.toNat ≤ pkt.length ∧
  (isV6 = false → 12 ≤ out.length ∧ hdr.csumStart.toNat ≤ out.length) ∧
  (isV6 = true → 6 ≤ out.length) ∧
  hdr.csumStart.toNat ≤ hdr.hdrLen.toNat ∧
  (hdr.isTCP = true → (hdr.csumStart + 4).toNat + 4 ≤ out.length) ∧
  (hdr.isTCP = true → nextSegmentEnd hdr pkt nextSegmentDataAt ≠ pkt.length →
    (hdr.csumStart + tcpFlagsOffset).toNat < out.length) ∧
  (hdr.isTCP = false → (hdr.csumStart + 4).toNat + 2 ≤ out.length) ∧
  srcAddrOffset isV6 + addrLen isV6 * 2 ≤ pkt.length ∧
  totalLen hdr pkt nextSegmentDataAt ≤ out.length ∧
  (hdr.csumStart + hdr.csumOffset).toNat + 2 ≤ out.length

instance (nextSegmentDataAt : ℕ) (out : List UInt8) : Decidable (InRange hdr isV6 pkt nextSegmentDataAt out) :=
  inferInstanceAs (Decidable (_ ∧ _))

/-- The loop of `gsoSplit`, over the buffers and sizes that are left; `none` is an index or a slice
    out of range. -/
def splitLoop (outOffset : ℕ) : List (List UInt8) → List ℕ → ℕ → ℕ → Option Split
  | [], sizes, i, nextSegmentDataAt =>
    if nextSegmentDataAt < pkt.length then some ⟨[], sizes, i - 1, some .tooManySegments⟩
    else some ⟨[], sizes, i, none⟩
  | buf :: outBuffs, sizes, i, nextSegmentDataAt =>
    if nextSegmentDataAt < pkt.length then
      match sizes with
      | [] => none
      | _ :: sizes =>
        let out := buf.drop outOffset
        if outOffset ≤ buf.length ∧ InRange hdr isV6 pkt nextSegmentDataAt out then
          (splitLoop outOffset outBuffs sizes (i + 1) (nextSegmentDataAt + hdr.gsoSize.toNat)).map fun r =>
            { r with
              outBuffs := (buf.take outOffset ++ splitSegment o hdr isV6 pkt i nextSegmentDataAt out)
                :: r.outBuffs
              sizes := totalLen hdr pkt nextSegmentDataAt :: r.sizes }
        else none
    else some ⟨buf :: outBuffs, sizes, i, none⟩

/-- `gsoSplit`. -/
def gsoSplit (outBuffs : List (List UInt8)) (sizes : List ℕ) (outOffset : ℕ) : Option Split :=
  if (isV6 = false → 12 ≤ pkt.length) ∧ (hdr.csumStart + hdr.csumOffset).toNat + 2 ≤ pkt.length ∧
      (hdr.isTCP = true → (hdr.csumStart + 4).toNat + 4 ≤ pkt.length) then
    splitLoop o hdr isV6 (clearChecksums hdr isV6 pkt) outOffset outBuffs sizes 0 hdr.hdrLen.toNat
  else none

end

/-! ### TCP over IPv4 -/

/-- The header describes a packet of TCP over IPv4 with these two headers. -/
structure Describes (hdr : VirtioNetHdr) (ip tcp : List UInt8) : Prop where
  gsoType : hdr.gsoType = gsoTCPv4
  csumStart : hdr.csumStart = 20
  csumOffset : hdr.csumOffset = 16
  hdrLen : hdr.hdrLen.toNat = 20 + tcp.length
  length_ip : ip.length = ipv4MinHeaderSize
  length_tcp : tcpMinHeaderSize ≤ tcp.length

/-- A header with the identification of segment `i`. -/
def segmentID (ip : List UInt8) (i : ℕ) : List UInt8 :=
  if i > 0 then blit ip 4 (bytes16 (IPv4.id ip + UInt16.ofNat i)) else ip

/-- The network header of segment `i`. -/
def segmentIP (ip : List UInt8) (i total : ℕ) : List UInt8 :=
  IPv4.sealHeader (IPv4.setTotalLength (segmentID ip i) (UInt16.ofNat total)) ipv4MinHeaderSize

/-- The transport header of a segment, without its checksum. -/
def segmentTCP (tcp : List UInt8) (seq : UInt32) (last : Bool) : List UInt8 :=
  let tcp := blit tcp 4 (bytes32 seq)
  if last then tcp else blit tcp 13 [tcp.getD 13 0 &&& ~~~ (tcpFlagFIN ||| tcpFlagPSH)]

/-- Clearing a field that is clear. -/
theorem blit_clear {b : List UInt8} {i : ℕ} (h : i + 2 ≤ b.length) (hz : uint16At b i = 0) :
    blit b i (bytes16 0) = b := by
  have hself := blit_uint16At h
  rwa [hz] at hself

theorem checksum_zero_not (o : ByteOrder) {b : List UInt8} (h : b.length ≤ 65535) :
    ~~~ checksum o b 0 = Header.checksum b 0 := by
  rw [@checksum_eq_not o b 0 0 h rfl, UInt16.not_not]

theorem blit_zero {out src : List UInt8} (h : src.length ≤ out.length) :
    blit out 0 src = src ++ out.drop src.length := by
  have hcopy := @blit_append _ [] out src h
  rwa [List.nil_append, List.length_nil, List.nil_append] at hcopy

/-- The bytes of a field. -/
theorem slice_uint32At {b : List UInt8} {i : ℕ} (h : i + 4 ≤ b.length) :
    slice b i (i + 4) = bytes32 (uint32At b i) := by
  have hw := (b.getD i 0).toNat_lt
  have hx := (b.getD (i + 1) 0).toNat_lt
  have hy := (b.getD (i + 2) 0).toNat_lt
  have hz := (b.getD (i + 3) 0).toNat_lt
  have hlen : (slice b i (i + 4)).length = 4 := by
    rw [slice, List.length_drop, List.length_take]
    omega
  have hat := toNat_uint32At b i
  have hself := toNat_of_bytes32 (uint32At b i)
  have h0 := (uint32At b i >>> 24).toUInt8.toNat_lt
  have h1 := (uint32At b i >>> 16).toUInt8.toNat_lt
  have h2 := (uint32At b i >>> 8).toUInt8.toNat_lt
  have h3 := (uint32At b i).toUInt8.toNat_lt
  refine ext_getD hlen fun j => ?_
  by_cases hj : j < 4
  · rw [slice, getD_drop, getD_take (by omega), ← UInt8.toNat_inj]
    obtain rfl | rfl | rfl | rfl : j = 0 ∨ j = 1 ∨ j = 2 ∨ j = 3 := by omega
    · change (b.getD i 0).toNat = (uint32At b i >>> 24).toUInt8.toNat
      omega
    · change (b.getD (i + 1) 0).toNat = (uint32At b i >>> 16).toUInt8.toNat
      omega
    · change (b.getD (i + 2) 0).toNat = (uint32At b i >>> 8).toUInt8.toNat
      omega
    · change (b.getD (i + 3) 0).toNat = (uint32At b i).toUInt8.toNat
      omega
  · have hout : ∀ {l : List UInt8}, l.length = 4 → l.getD j 0 = 0 := fun hl => by
      rw [List.getD_eq_getElem?_getD, List.getElem?_eq_none (by omega), Option.getD_none]
    rw [hout hlen, hout (length_bytes32 _)]

section
variable {o : ByteOrder} {hdr : VirtioNetHdr} {ip tcp data : List UInt8}

theorem Describes.isTCP (h : Describes hdr ip tcp) : hdr.isTCP = true := by
  rw [VirtioNetHdr.isTCP, h.gsoType]
  rfl

theorem Describes.protocol (h : Describes hdr ip tcp) : hdr.protocol = tcpProtocolNumber := by
  rw [VirtioNetHdr.protocol, h.isTCP]
  rfl

theorem length_segmentID (h : ip.length = ipv4MinHeaderSize) (i : ℕ) :
    (segmentID ip i).length = ipv4MinHeaderSize := by
  rw [ipv4MinHeaderSize] at *
  rw [segmentID]
  split_ifs
  · rw [length_blit _ (by omega), h]
  · exact h

theorem length_setTotalLength (h : ip.length = ipv4MinHeaderSize) (i : ℕ) (total : UInt16) :
    (IPv4.setTotalLength (segmentID ip i) total).length = ipv4MinHeaderSize := by
  have hid := length_segmentID h i
  rw [IPv4.setTotalLength, length_blit _ (by rw [hid]; decide), hid]

theorem length_segmentIP (h : ip.length = ipv4MinHeaderSize) (i total : ℕ) :
    (segmentIP ip i total).length = ipv4MinHeaderSize := by
  have hlen := length_setTotalLength h i (UInt16.ofNat total)
  rw [segmentIP, IPv4.length_sealHeader (by rw [hlen]; decide), hlen]

theorem length_segmentTCP (h : tcpMinHeaderSize ≤ tcp.length) (seq : UInt32) (last : Bool) :
    (segmentTCP tcp seq last).length = tcp.length := by
  rw [tcpMinHeaderSize] at h
  rw [segmentTCP]
  split_ifs
  · exact length_blit _ (by omega)
  · rw [length_blit _ (by rw [length_blit _ (by omega)]; omega), length_blit _ (by omega)]

theorem Describes.length_clear (h : Describes hdr ip tcp) :
    (IPv4.setChecksum ip 0).length = ip.length ∧ (TCP.setChecksum tcp 0).length = tcp.length := by
  have hip := h.length_ip
  have htcp := h.length_tcp
  rw [ipv4MinHeaderSize] at hip
  rw [tcpMinHeaderSize] at htcp
  exact ⟨length_blit _ (by omega), length_blit _ (by omega)⟩

theorem Describes.clear (h : Describes hdr ip tcp) :
    Describes hdr (IPv4.setChecksum ip 0) (TCP.setChecksum tcp 0) := by
  obtain ⟨hip, htcp⟩ := h.length_clear
  exact ⟨h.gsoType, h.csumStart, h.csumOffset, by rw [htcp, h.hdrLen], by rw [hip, h.length_ip],
    by rw [htcp]; exact h.length_tcp⟩

theorem clearChecksums_tcpv4 (hd : Describes hdr ip tcp) (data : List UInt8) :
    clearChecksums hdr false (ip ++ (tcp ++ data)) = IPv4.setChecksum ip 0 ++ (TCP.setChecksum tcp 0 ++ data) := by
  have hip := hd.length_ip
  have htcp := hd.length_tcp
  rw [ipv4MinHeaderSize] at hip
  rw [tcpMinHeaderSize] at htcp
  have hlen : (blit ip 10 [0, 0]).length = 20 := by rw [length_blit _ (by omega), hip]
  have hat : (hdr.csumStart + hdr.csumOffset).toNat = (blit ip 10 [0, 0]).length + 16 := by
    rw [hd.csumStart, hd.csumOffset, hlen]
    rfl
  rw [clearChecksums, if_neg (by decide), hat, blit_append_left _ _ (by simp; omega),
    blit_append_right _ _ (by simp; omega), blit_append_left _ _ (by simp; omega)]
  rfl

theorem copyNetworkHeader_tcpv4 (hd : Describes hdr ip tcp) (hz : uint16At ip 10 = 0) (rest : List UInt8)
    (i total : ℕ) {out : List UInt8} (hout : ipv4MinHeaderSize ≤ out.length) :
    copyNetworkHeader o hdr false (ip ++ rest) i total out =
      segmentIP ip i total ++ out.drop ipv4MinHeaderSize := by
  have hip := hd.length_ip
  rw [ipv4MinHeaderSize] at *
  have hstart : hdr.csumStart.toNat = ip.length := by
    rw [hd.csumStart, hip]
    rfl
  rw [copyNetworkHeader, if_neg (by decide), hstart, List.take_left, blit_zero (by omega), hip]
  have hid : (if i > 0 then blit (ip ++ out.drop 20) 4 (bytes16 (uint16At (ip ++ out.drop 20) 4 + UInt16.ofNat i))
      else ip ++ out.drop 20) = segmentID ip i ++ out.drop 20 := by
    rw [segmentID]
    split_ifs
    · rw [blit_append_left _ _ (by simp; omega)]
      congr 4
      rw [IPv4.id, uint16At, uint16At, getD_append (by omega), getD_append (by omega)]
    · rfl
  have hz' : uint16At (segmentID ip i) 10 = 0 := by
    rw [segmentID]
    split_ifs
    · rw [uint16At_blit_ne (by simp), hz]
    · exact hz
  have hlenI : (segmentID ip i).length = 20 := length_segmentID hd.length_ip i
  have hlenT : (IPv4.setTotalLength (segmentID ip i) (UInt16.ofNat total)).length = 20 :=
    length_setTotalLength hd.length_ip i _
  have hclear : IPv4.setChecksum (IPv4.setTotalLength (segmentID ip i) (UInt16.ofNat total)) 0
      = IPv4.setTotalLength (segmentID ip i) (UInt16.ofNat total) := by
    refine blit_clear (by omega) ?_
    rw [IPv4.setTotalLength, uint16At_blit_ne (by simp), hz']
  simp only [hid]
  rw [segmentIP, IPv4.sealHeader, hclear, ipv4MinHeaderSize, List.take_of_length_le (le_of_eq hlenT),
    blit_append_left _ _ (by simp; omega), ← IPv4.setTotalLength, List.take_left' hlenT,
    checksum_zero_not o (by omega), blit_append_left _ _ (by simp; omega)]
  rfl

theorem copyTransportHeader_tcpv4 (hd : Describes hdr ip tcp) (data : List UInt8) (i dataLen : ℕ)
    (last : Bool) {ip' rest : List UInt8} (hip' : ip'.length = ipv4MinHeaderSize)
    (hrest : tcp.length ≤ rest.length) :
    copyTransportHeader hdr (ip ++ (tcp ++ data)) i dataLen last (ip' ++ rest) =
      ip' ++ (segmentTCP tcp (TCP.sequenceNumber tcp + (hdr.gsoSize * UInt16.ofNat i).toUInt32) last
        ++ rest.drop tcp.length) := by
  have hip := hd.length_ip
  have htcp := hd.length_tcp
  rw [ipv4MinHeaderSize] at hip hip'
  rw [tcpMinHeaderSize] at htcp
  have hstart : hdr.csumStart.toNat = ip'.length := by
    rw [hd.csumStart, hip']
    rfl
  have hseqAt : (hdr.csumStart + 4).toNat = ip'.length + 4 := by
    rw [hd.csumStart, hip']
    rfl
  have hflagsAt : (hdr.csumStart + tcpFlagsOffset).toNat = ip'.length + 13 := by
    rw [hd.csumStart, hip']
    rfl
  have hslice : slice (ip ++ (tcp ++ data)) hdr.csumStart.toNat hdr.hdrLen.toNat = tcp := by
    rw [slice, hd.hdrLen, hstart, hip', ← hip, ← List.length_append, ← List.append_assoc, List.take_left,
      List.drop_left]
  have hseq : uint32At (ip ++ (tcp ++ data)) (hdr.csumStart + 4).toNat = TCP.sequenceNumber tcp := by
    have hget : ∀ j, j < 4 → (ip ++ (tcp ++ data)).getD (24 + j) 0 = tcp.getD (4 + j) 0 := by
      intro j hj
      have hdrop := getD_drop (ip ++ (tcp ++ data)) ip.length (4 + j)
      rw [List.drop_left, getD_append (by omega), hip] at hdrop
      rw [hdrop]
      congr 1
      omega
    rw [hseqAt, hip', TCP.sequenceNumber, uint32At, uint32At, hget 0 (by omega), hget 1 (by omega),
      hget 2 (by omega), hget 3 (by omega)]
  have hflags : ∀ b : List UInt8, (ip' ++ b).getD (ip'.length + 13) 0 = b.getD 13 0 := by
    intro b
    have hdrop := getD_drop (ip' ++ b) ip'.length 13
    rw [List.drop_left] at hdrop
    exact hdrop.symm
  have hlen : (blit tcp 4 (bytes32 (TCP.sequenceNumber tcp + (hdr.gsoSize * UInt16.ofNat i).toUInt32))).length
      = tcp.length := length_blit _ (by omega)
  rw [copyTransportHeader, if_pos hd.isTCP, hslice, hseq, hstart, hseqAt, hflagsAt, blit_append _ hrest,
    List.append_assoc]
  dsimp only [segmentTCP]
  rw [blit_append_right _ _ (by simp; omega), blit_append_left _ _ (by simp; omega)]
  split_ifs
  · rfl
  · rw [hflags, getD_append (by omega),
      blit_append_right _ _ (by rw [List.length_append, List.length_singleton]; omega),
      blit_append_left _ _ (by rw [List.length_singleton]; omega)]

/-- The checksum over a segment whose field is clear. -/
theorem setTCPChecksum_eq (o : ByteOrder) {seg : List UInt8} (src dst : UInt32)
    (hlen : tcpMinHeaderSize ≤ seg.length) (hmax : seg.length ≤ 65535) (hz : uint16At seg 16 = 0) :
    blit seg 16 (bytes16 (~~~ checksum o seg (pseudoHeaderChecksumNoFold o tcpProtocolNumber (bytes32 src)
      (bytes32 dst) (UInt16.ofNat seg.length)))) = Tcp.setTCPChecksum seg src dst := by
  rw [tcpMinHeaderSize] at hlen
  rw [checksum_eq_not o hmax (residue_pseudoHeader o tcpProtocolNumber src dst (UInt16.ofNat seg.length)),
    UInt16.not_not, Tcp.setTCPChecksum, TCP.setChecksum, TCP.setChecksum, blit_clear (by omega) hz]

/-- Where a turn that starts at byte `k` of the data cuts, and what it copies. -/
theorem cut_tcpv4 (hd : Describes hdr ip tcp) {k : ℕ} (hk : k ≤ data.length) {chunk : List UInt8}
    (hchunk : chunk = (data.drop k).take hdr.gsoSize.toNat) :
    nextSegmentEnd hdr (ip ++ (tcp ++ data)) (hdr.hdrLen.toNat + k) = hdr.hdrLen.toNat + (k + chunk.length) ∧
    slice (ip ++ (tcp ++ data)) (hdr.hdrLen.toNat + k) (hdr.hdrLen.toNat + (k + chunk.length)) = chunk := by
  have hlen : chunk.length = min hdr.gsoSize.toNat (data.length - k) := by
    rw [hchunk, List.length_take, List.length_drop]
  have hheads : hdr.hdrLen.toNat = (ip ++ tcp).length := by
    rw [List.length_append, hd.length_ip, hd.hdrLen, ipv4MinHeaderSize]
  have hcut : chunk <+: data.drop k := by
    rw [hchunk]
    exact List.take_prefix _ _
  constructor
  · rw [nextSegmentEnd, ← List.append_assoc, List.length_append, ← hheads]
    omega
  · rw [slice, ← List.append_assoc, hheads, List.take_length_add_append, List.drop_length_add_append,
      List.drop_take, Nat.add_sub_cancel_left]
    exact (List.prefix_iff_eq_take.1 hcut).symm

theorem totalLen_tcpv4 (hd : Describes hdr ip tcp) {k : ℕ} (hk : k ≤ data.length) {chunk : List UInt8}
    (hchunk : chunk = (data.drop k).take hdr.gsoSize.toNat) :
    totalLen hdr (ip ++ (tcp ++ data)) (hdr.hdrLen.toNat + k) = ipv4MinHeaderSize + (tcp.length + chunk.length) := by
  rw [totalLen, (cut_tcpv4 hd hk hchunk).1, hd.hdrLen, ipv4MinHeaderSize]
  omega

/-- The payload is copied and the checksum is filled in behind headers that stand already. -/
theorem seal_tcpv4 (hd : Describes hdr ip tcp) {ip' tcp' chunk rest : List UInt8} (src dst : UInt32)
    (hip' : ip'.length = ipv4MinHeaderSize) (htcp' : tcp'.length = tcp.length) (hz : uint16At tcp' 16 = 0)
    (hmax : tcp.length + chunk.length ≤ 65535) (hrest : chunk.length ≤ rest.length) :
    let out := blit (ip' ++ (tcp' ++ rest)) hdr.hdrLen.toNat chunk
    blit out (hdr.csumStart + hdr.csumOffset).toNat (bytes16 (~~~ checksum o
      (slice out hdr.csumStart.toNat (ipv4MinHeaderSize + (tcp.length + chunk.length)))
      (pseudoHeaderChecksumNoFold o tcpProtocolNumber (bytes32 src) (bytes32 dst)
        (UInt16.ofNat (tcp.length + chunk.length))))) =
    ip' ++ (Tcp.setTCPChecksum (tcp' ++ chunk) src dst ++ rest.drop chunk.length) := by
  have htcp := hd.length_tcp
  rw [tcpMinHeaderSize] at htcp
  have hheads : hdr.hdrLen.toNat = (ip' ++ tcp').length := by
    rw [List.length_append, hip', htcp', hd.hdrLen, ipv4MinHeaderSize]
  have hstart : hdr.csumStart.toNat = ip'.length := by
    rw [hd.csumStart, hip']
    rfl
  have hat : (hdr.csumStart + hdr.csumOffset).toNat = ip'.length + 16 := by
    rw [hd.csumStart, hd.csumOffset, hip']
    rfl
  have hlen : (tcp' ++ chunk).length = tcp.length + chunk.length := by rw [List.length_append, htcp']
  have hcopy : blit (ip' ++ (tcp' ++ rest)) hdr.hdrLen.toNat chunk
      = ip' ++ (tcp' ++ chunk ++ rest.drop chunk.length) := by
    rw [← List.append_assoc, hheads, blit_append _ hrest]
    simp only [List.append_assoc]
  have hslice : slice (ip' ++ (tcp' ++ chunk ++ rest.drop chunk.length)) hdr.csumStart.toNat
      (ipv4MinHeaderSize + (tcp.length + chunk.length)) = tcp' ++ chunk := by
    rw [slice, hstart, ← hip', List.take_length_add_append, ← hlen, List.take_left, List.drop_left]
  have hz' : uint16At (tcp' ++ chunk) 16 = 0 := by
    rw [← hz, uint16At, uint16At, getD_append (by omega), getD_append (by omega)]
  dsimp only
  rw [hcopy, hslice, hat, blit_append_right _ _ (by simp; omega), blit_append_left _ _ (by simp; omega), ← hlen,
    setTCPChecksum_eq o src dst (by rw [tcpMinHeaderSize]; omega) (by omega) hz']

theorem uint16At_segmentTCP (hz : uint16At tcp 16 = 0) (seq : UInt32) (last : Bool) :
    uint16At (segmentTCP tcp seq last) 16 = 0 := by
  rw [segmentTCP]
  split_ifs
  · rw [uint16At_blit_ne (by simp), hz]
  · rw [uint16At_blit_ne (by simp), uint16At_blit_ne (by simp), hz]

/-- Segment `i` of the packet `ip ++ tcp ++ data`. -/
def tcpSegment (hdr : VirtioNetHdr) (ip tcp data : List UInt8) (i : ℕ) : List UInt8 :=
  let chunk := (data.drop (i * hdr.gsoSize.toNat)).take hdr.gsoSize.toNat
  segmentIP ip i (ipv4MinHeaderSize + (tcp.length + chunk.length)) ++
    Tcp.setTCPChecksum (segmentTCP tcp (TCP.sequenceNumber tcp + (hdr.gsoSize * UInt16.ofNat i).toUInt32)
      (i * hdr.gsoSize.toNat + chunk.length == data.length) ++ chunk)
      (IPv4.sourceAddress ip) (IPv4.destinationAddress ip)

/-- What a turn leaves in the buffer. -/
theorem splitSegment_tcpv4 (hd : Describes hdr ip tcp) (hzip : uint16At ip 10 = 0)
    (hztcp : uint16At tcp 16 = 0) {i : ℕ} (hk : i * hdr.gsoSize.toNat ≤ data.length) {chunk out : List UInt8}
    (hchunk : chunk = (data.drop (i * hdr.gsoSize.toNat)).take hdr.gsoSize.toNat)
    (hmax : tcp.length + chunk.length ≤ 65535)
    (hout : ipv4MinHeaderSize + (tcp.length + chunk.length) ≤ out.length) :
    splitSegment o hdr false (ip ++ (tcp ++ data)) i (hdr.hdrLen.toNat + i * hdr.gsoSize.toNat) out =
      tcpSegment hdr ip tcp data i ++ out.drop (ipv4MinHeaderSize + (tcp.length + chunk.length)) := by
  obtain ⟨k, hkeq⟩ : ∃ k, k = i * hdr.gsoSize.toNat := ⟨_, rfl⟩
  rw [tcpSegment, ← hchunk, List.append_assoc, ← hkeq]
  rw [← hkeq] at hk hchunk
  obtain ⟨hend, hslice⟩ := cut_tcpv4 hd hk hchunk
  have hip := hd.length_ip
  have hhdr := hd.hdrLen
  rw [ipv4MinHeaderSize] at hip hout
  have hdata : hdr.hdrLen.toNat + (k + chunk.length) - (hdr.hdrLen.toNat + k) = chunk.length := by omega
  have hlast : (hdr.hdrLen.toNat + (k + chunk.length) == (ip ++ (tcp ++ data)).length)
      = (k + chunk.length == data.length) := by
    rw [Bool.eq_iff_iff, beq_iff_eq, beq_iff_eq, List.length_append, List.length_append]
    omega
  have hsrc : slice (ip ++ (tcp ++ data)) 12 16 = bytes32 (IPv4.sourceAddress ip) := by
    rw [slice, List.take_append_of_le_length (by omega)]
    exact slice_uint32At (by omega)
  have hdst : slice (ip ++ (tcp ++ data)) 16 20 = bytes32 (IPv4.destinationAddress ip) := by
    rw [slice, List.take_append_of_le_length (by omega)]
    exact slice_uint32At (by omega)
  have hpseudo : (hdr.hdrLen - hdr.csumStart).toNat = tcp.length := by
    have hlt := hdr.hdrLen.toNat_lt
    have hstart : hdr.csumStart.toNat = 20 := by
      rw [hd.csumStart]
      rfl
    rw [UInt16.toNat_sub, hstart, hhdr]
    omega
  have hseal := @seal_tcpv4 o hdr ip tcp hd (segmentIP ip i (ipv4MinHeaderSize + (tcp.length + chunk.length)))
    (segmentTCP tcp (TCP.sequenceNumber tcp + (hdr.gsoSize * UInt16.ofNat i).toUInt32) (k + chunk.length == data.length))
    chunk (out.drop (ipv4MinHeaderSize + tcp.length)) (IPv4.sourceAddress ip) (IPv4.destinationAddress ip)
    (length_segmentIP hd.length_ip _ _) (length_segmentTCP hd.length_tcp _ _) (uint16At_segmentTCP hztcp _ _) hmax
    (by rw [List.length_drop, ipv4MinHeaderSize]; omega)
  rw [List.drop_drop, Nat.add_assoc] at hseal
  rw [splitSegment, hend, hdata, totalLen_tcpv4 hd hk hchunk, hlast, hslice, hpseudo, hd.protocol,
    copyNetworkHeader_tcpv4 hd hzip _ _ _ (by rw [ipv4MinHeaderSize]; omega),
    copyTransportHeader_tcpv4 hd data _ _ _ (length_segmentIP hd.length_ip _ _)
      (by rw [List.length_drop, ipv4MinHeaderSize]; omega), List.drop_drop, ← hseal, ← hsrc, ← hdst]
  rfl

theorem inRange_tcpv4 (hd : Describes hdr ip tcp) {k : ℕ} (hk : k ≤ data.length) {chunk out : List UInt8}
    (hchunk : chunk = (data.drop k).take hdr.gsoSize.toNat)
    (hout : ipv4MinHeaderSize + (tcp.length + chunk.length) ≤ out.length) :
    InRange hdr false (ip ++ (tcp ++ data)) (hdr.hdrLen.toNat + k) out := by
  have hip := hd.length_ip
  have htcp := hd.length_tcp
  have hhdr := hd.hdrLen
  rw [ipv4MinHeaderSize] at hip hout
  rw [tcpMinHeaderSize] at htcp
  have hpkt : 20 + tcp.length ≤ (ip ++ (tcp ++ data)).length := by
    rw [List.length_append, List.length_append]
    omega
  have hstart : hdr.csumStart.toNat = 20 := by
    rw [hd.csumStart]
    rfl
  have hseqAt : (hdr.csumStart + 4).toNat = 24 := by
    rw [hd.csumStart]
    rfl
  have hflagsAt : (hdr.csumStart + tcpFlagsOffset).toNat = 33 := by
    rw [hd.csumStart]
    rfl
  have hcsumAt : (hdr.csumStart + hdr.csumOffset).toNat = 36 := by
    rw [hd.csumStart, hd.csumOffset]
    rfl
  have haddr : srcAddrOffset false + addrLen false * 2 = 20 := rfl
  rw [InRange, hstart, hseqAt, hflagsAt, hcsumAt, haddr, totalLen_tcpv4 hd hk hchunk, ipv4MinHeaderSize,
    hd.isTCP, hhdr]
  refine ⟨by omega, fun _ => by omega, by simp, by omega, fun _ => by omega, fun _ _ => by omega, by simp,
    by omega, hout, by omega⟩

theorem length_tcpSegment (hd : Describes hdr ip tcp) (i : ℕ) : (tcpSegment hdr ip tcp data i).length =
    ipv4MinHeaderSize + (tcp.length + ((data.drop (i * hdr.gsoSize.toNat)).take hdr.gsoSize.toNat).length) := by
  have htcp := hd.length_tcp
  rw [tcpSegment, List.length_append, length_segmentIP hd.length_ip, Tcp.length_setTCPChecksum _ _ _
    (by rw [List.length_append, length_segmentTCP hd.length_tcp]; omega), List.length_append,
    length_segmentTCP hd.length_tcp]

theorem splitLoop_done {isV6 : Bool} {pkt : List UInt8} {outOffset k : ℕ} (bufs : List (List UInt8))
    (sizes : List ℕ) (i : ℕ) (h : ¬ k < pkt.length) :
    splitLoop o hdr isV6 pkt outOffset bufs sizes i k = some ⟨bufs, sizes, i, none⟩ := by
  cases bufs <;> simp [splitLoop, h]

theorem splitLoop_cons {isV6 : Bool} {pkt buf : List UInt8} {outOffset k : ℕ} (bufs : List (List UInt8))
    (size : ℕ) (sizes : List ℕ) (i : ℕ) (h : k < pkt.length) (hbuf : outOffset ≤ buf.length)
    (hin : InRange hdr isV6 pkt k (buf.drop outOffset)) :
    splitLoop o hdr isV6 pkt outOffset (buf :: bufs) (size :: sizes) i k =
      (splitLoop o hdr isV6 pkt outOffset bufs sizes (i + 1) (k + hdr.gsoSize.toNat)).map fun r =>
        { r with
          outBuffs := (buf.take outOffset ++ splitSegment o hdr isV6 pkt i k (buf.drop outOffset)) :: r.outBuffs
          sizes := totalLen hdr pkt k :: r.sizes } := by
  simp [splitLoop, h, hbuf, hin]

/-- CORRECT: the loop cuts segments `i`, `i + 1`, ... until the data is used up, if it has a buffer
    for each of the `m` that are left. -/
theorem splitLoop_tcpv4 (hd : Describes hdr ip tcp) (hzip : uint16At ip 10 = 0) (hztcp : uint16At tcp 16 = 0)
    (hmax : tcp.length + data.length ≤ 65535) (outOffset : ℕ) : ∀ {m i : ℕ} {bufs : List (List UInt8)}
    {sizes : List ℕ}, data.length ≤ (i + m) * hdr.gsoSize.toNat →
    (∀ j < m, (i + j) * hdr.gsoSize.toNat < data.length) → m ≤ bufs.length → m ≤ sizes.length →
    (∀ b ∈ bufs, outOffset + (ipv4MinHeaderSize + (tcp.length + min hdr.gsoSize.toNat data.length)) ≤ b.length) →
    ∃ r, splitLoop o hdr false (ip ++ (tcp ++ data)) outOffset bufs sizes i
        (hdr.hdrLen.toNat + i * hdr.gsoSize.toNat) = some r ∧ r.err = none ∧ r.n = i + m ∧
      ((r.outBuffs.zip r.sizes).take m).map (fun b => (b.1.drop outOffset).take b.2)
        = (List.range' i m).map (tcpSegment hdr ip tcp data)
  | 0, i, bufs, sizes, hle, _, _, _, _ => by
      have hend : ¬ hdr.hdrLen.toNat + i * hdr.gsoSize.toNat < (ip ++ (tcp ++ data)).length := by
        rw [Nat.add_zero] at hle
        rw [List.length_append, List.length_append, hd.length_ip, hd.hdrLen, ipv4MinHeaderSize]
        omega
      exact ⟨_, splitLoop_done _ _ _ hend, rfl, by simp, rfl⟩
  | m + 1, i, buf :: bufs, size :: sizes, hle, hlt, hbufs, hsizes, hfit => by
      obtain ⟨chunk, hchunk⟩ : ∃ chunk, chunk = (data.drop (i * hdr.gsoSize.toNat)).take hdr.gsoSize.toNat := ⟨_, rfl⟩
      have hk := hlt 0 (Nat.succ_pos m)
      rw [Nat.add_zero] at hk
      have hlen : chunk.length ≤ min hdr.gsoSize.toNat data.length := by
        rw [hchunk, List.length_take, List.length_drop]
        omega
      have hbuf := hfit buf (List.mem_cons_self ..)
      have hmore : hdr.hdrLen.toNat + i * hdr.gsoSize.toNat < (ip ++ (tcp ++ data)).length := by
        rw [List.length_append, List.length_append, hd.length_ip, hd.hdrLen, ipv4MinHeaderSize]
        omega
      have hout : ipv4MinHeaderSize + (tcp.length + chunk.length) ≤ (buf.drop outOffset).length := by
        rw [List.length_drop]
        omega
      obtain ⟨r, hr, herr, hn, hpackets⟩ := @splitLoop_tcpv4 hd hzip hztcp hmax outOffset m (i + 1) bufs sizes
        (by rwa [Nat.add_assoc, Nat.add_comm 1 m])
        (fun j hj => by
          rw [Nat.add_assoc, Nat.add_comm 1 j]
          exact hlt (j + 1) (Nat.succ_lt_succ hj))
        (Nat.le_of_succ_le_succ hbufs) (Nat.le_of_succ_le_succ hsizes)
        (fun b hb => hfit b (List.mem_cons_of_mem _ hb))
      rw [Nat.add_mul, Nat.one_mul, ← Nat.add_assoc] at hr
      rw [splitLoop_cons _ _ _ _ hmore (by omega) (inRange_tcpv4 hd hk.le hchunk hout), hr,
        totalLen_tcpv4 hd hk.le hchunk,
        splitSegment_tcpv4 hd hzip hztcp hk.le hchunk (by omega) hout]
      refine ⟨_, rfl, herr, ?_, ?_⟩
      · show r.n = _
        rw [hn]
        push_cast
        ring
      · have htake : (buf.take outOffset).length = outOffset := by
          rw [List.length_take]
          omega
        have hseg := @length_tcpSegment hdr ip tcp data hd i
        rw [← hchunk] at hseg
        have hfirst : ((buf.take outOffset ++ (tcpSegment hdr ip tcp data i
            ++ (buf.drop outOffset).drop (ipv4MinHeaderSize + (tcp.length + chunk.length)))).drop outOffset).take
            (ipv4MinHeaderSize + (tcp.length + chunk.length)) = tcpSegment hdr ip tcp data i := by
          rw [List.drop_left' htake, List.take_left' hseg]
        rw [List.range'_succ, List.map_cons, ← hpackets]
        exact congrArg (· :: _) hfirst

/-- CORRECT: `gsoSplit` of a packet of TCP over IPv4, with a buffer for each of its `m` segments. -/
theorem gsoSplit_tcpv4 (hd : Describes hdr ip tcp) (hmax : tcp.length + data.length ≤ 65535) {m outOffset : ℕ}
    {bufs : List (List UInt8)} {sizes : List ℕ} (hle : data.length ≤ m * hdr.gsoSize.toNat)
    (hlt : ∀ j < m, j * hdr.gsoSize.toNat < data.length) (hbufs : m ≤ bufs.length) (hsizes : m ≤ sizes.length)
    (hfit : ∀ b ∈ bufs,
      outOffset + (ipv4MinHeaderSize + (tcp.length + min hdr.gsoSize.toNat data.length)) ≤ b.length) :
    ∃ r, gsoSplit o hdr false (ip ++ (tcp ++ data)) bufs sizes outOffset = some r ∧ r.err = none ∧
      r.packets outOffset
        = (List.range m).map (tcpSegment hdr (IPv4.setChecksum ip 0) (TCP.setChecksum tcp 0) data) := by
  have hip := hd.length_ip
  have htcp := hd.length_tcp
  rw [ipv4MinHeaderSize] at hip
  rw [tcpMinHeaderSize] at htcp
  obtain ⟨-, hlentcp⟩ := hd.length_clear
  obtain ⟨r, hr, herr, hn, hpackets⟩ := @splitLoop_tcpv4 o hdr _ _ data hd.clear
    (uint16At_blit_self 0 (by omega)) (uint16At_blit_self 0 (by omega)) (by rwa [hlentcp]) outOffset m 0 bufs
    sizes (by rwa [Nat.zero_add]) (fun j hj => by rw [Nat.zero_add]; exact hlt j hj) hbufs hsizes
    (by rwa [hlentcp])
  have hat : (hdr.csumStart + hdr.csumOffset).toNat = 36 := by
    rw [hd.csumStart, hd.csumOffset]
    rfl
  have hseqAt : (hdr.csumStart + 4).toNat = 24 := by
    rw [hd.csumStart]
    rfl
  have hlen : 40 ≤ (ip ++ (tcp ++ data)).length := by
    rw [List.length_append, List.length_append]
    omega
  rw [Nat.zero_mul, Nat.add_zero] at hr
  refine ⟨r, ?_, herr, ?_⟩
  · rw [gsoSplit, if_pos ⟨fun _ => by omega, by omega, fun _ => by omega⟩, clearChecksums_tcpv4 hd data, hr]
  · have hcount : r.n.toNat = m := by
      rw [hn]
      simp
    rw [Split.packets, hcount, hpackets, List.range_eq_range']

/-! ### The headers of a segment -/

theorem getD_segmentIP (i total : ℕ) {j : ℕ} (h : j < 2 ∨ 6 ≤ j ∧ j < 10 ∨ 12 ≤ j) :
    (segmentIP ip i total).getD j 0 = ip.getD j 0 := by
  rw [segmentIP, IPv4.getD_sealHeader _ _ (by omega), IPv4.setTotalLength, getD_blit_ne (by simp; omega),
    segmentID]
  split_ifs
  · rw [getD_blit_ne (by simp; omega)]
  · rfl

theorem totalLength_segmentIP (h : ip.length = ipv4MinHeaderSize) (i total : ℕ) :
    IPv4.totalLength (segmentIP ip i total) = UInt16.ofNat total := by
  rw [IPv4.totalLength, segmentIP, IPv4.uint16At_sealHeader _ _ (by omega), IPv4.setTotalLength,
    uint16At_blit_self _ (by rw [length_segmentID h]; decide)]

theorem checksum_segmentIP (h : ip.length = ipv4MinHeaderSize) (i total : ℕ) :
    Header.checksum (segmentIP ip i total) 0 = 0 := by
  rw [← List.take_of_length_le (le_of_eq (length_segmentIP h i total))]
  exact IPv4.checksum_sealHeader (by decide) (le_of_eq (length_setTotalLength h i _).symm) (by decide)

theorem addresses_segmentIP (i total : ℕ) :
    IPv4.sourceAddress (segmentIP ip i total) = IPv4.sourceAddress ip ∧
    IPv4.destinationAddress (segmentIP ip i total) = IPv4.destinationAddress ip := by
  constructor
  · simp only [IPv4.sourceAddress, uint32At]
    rw [getD_segmentIP _ _ (by omega), getD_segmentIP _ _ (by omega), getD_segmentIP _ _ (by omega),
      getD_segmentIP _ _ (by omega)]
  · simp only [IPv4.destinationAddress, uint32At]
    rw [getD_segmentIP _ _ (by omega), getD_segmentIP _ _ (by omega), getD_segmentIP _ _ (by omega),
      getD_segmentIP _ _ (by omega)]

end
end Netstack.Tun
