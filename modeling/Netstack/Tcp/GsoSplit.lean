import Netstack.Stack.HeaderChecksums
import Netstack.Tcp.GsoRefines
import Netstack.Tun.Split

/-! A GSO batch comes apart into what was recorded.

    `sendDataGSO` puts one header in front of the batch and leaves the cutting to the device;
    `recordSentGSO` cuts the batch itself, for retransmission. Segment `i` of both starts `i * mss`
    bytes into the batch: `tcpSegment` says so for the device, `gsoSegments_eq` for the queue. -/

namespace Netstack.Tcp
open Netstack.Copy Netstack.Header Netstack.Stack Netstack.Trace Netstack.Tun

/-! ### The source -/

/-- `FlowID`: the peer is the source. -/
structure FlowID where
  srcAddr : UInt32
  dstAddr : UInt32
  srcPort : UInt16
  dstPort : UInt16

namespace OutSegment

/-- The TCP header `sendDataGSO` builds, options included. -/
def gsoHeader (p : OutSegment) (flow : FlowID) : List UInt8 :=
  let tcpHdrSize := tcpMinHeaderSize + p.options.length
  let hdr := TCP.encode {
    srcPort := flow.dstPort
    dstPort := flow.srcPort
    seqNum := p.seq
    ackNum := p.ack
    dataOffset := UInt8.ofNat (tcpHdrSize / 4)
    flags := p.flags
    windowSize := p.wnd
    checksum := 0
    urgentPointer := 0 } ++ p.options
  setTCPPartialChecksum hdr flow.dstAddr flow.srcAddr (UInt16.ofNat (tcpHdrSize + p.payload.length))

/-- What `sendDataGSO` hands to `SendPacketGSO`, behind the room for the IPv4 header. -/
def gsoBytes (p : OutSegment) (flow : FlowID) : List UInt8 := p.gsoHeader flow ++ p.payload

/-- The `PacketOptions` that go with it. -/
def gsoOptions (p : OutSegment) : PacketOptions where
  gsoType := gsoTCPv4
  gsoSize := p.gsoSize.getD 0
  hdrLen := UInt16.ofNat (ipv4MinHeaderSize + (tcpMinHeaderSize + p.options.length))
  csumStart := UInt16.ofNat ipv4MinHeaderSize
  csumOffset := 16

end OutSegment

/-- The header `WritePacketGSO` puts in front of the packet. -/
def virtioNetHdr (opts : PacketOptions) : VirtioNetHdr :=
  if opts.gsoType ≠ 0 then
    { flags := needsCsum, gsoType := opts.gsoType, hdrLen := opts.hdrLen, gsoSize := opts.gsoSize,
      csumStart := opts.csumStart, csumOffset := opts.csumOffset }
  else { flags := 0, gsoType := 0, hdrLen := 0, gsoSize := 0, csumStart := 0, csumOffset := 0 }

/-- The packet is segment `e` as the receiving side of this program takes it: the length and the
    checksum of the IPv4 header are right, `HandlePacket` accepts the checksum, and `parseSeg` finds
    the sequence number and the data. -/
structure SegmentOf (raw : List UInt8) (e : UnackedSegment) : Prop where
  totalLength : (IPv4.totalLength raw).toNat = raw.length
  headerChecksum : Stack.headerChecksum raw = 0
  verifies : TCPHandler.verifies (raw.take (IPv4.headerLength raw)) (raw.drop (IPv4.headerLength raw)) = true
  contents : ∃ h : (raw.drop (IPv4.headerLength raw)).length < 2 ^ 16,
    (parseSeg (raw.drop (IPv4.headerLength raw)) h).seq = e.seq ∧
    (parseSeg (raw.drop (IPv4.headerLength raw)) h).payload = e.data

/-! ### The segments of the queue -/

/-- Entry `i` of what `recordSentGSO` appends. -/
def gsoEntry (mss : ℕ) (sentAt : ℤ) (seq : UInt32) (data : List UInt8) (i : ℕ) : UnackedSegment where
  seq := seq + UInt32.ofNat (i * mss)
  data := (data.drop (i * mss)).take mss
  fin := false
  sentAt := sentAt
  retransmitted := false
  sacked := false

/-- `m` entries cover the data. -/
theorem gsoSegments_eq {mss : ℕ} (hm : 0 < mss) (t : ℤ) : ∀ {m fuel : ℕ} {seq : UInt32} {data : List UInt8},
    data.length ≤ m * mss → (∀ j < m, j * mss < data.length) → data.length ≤ fuel →
    gsoSegments mss t fuel seq data = (List.range m).map (gsoEntry mss t seq data)
  | 0, fuel, seq, data, hle, _, _ => by
      have hnil : data = [] := List.length_eq_zero_iff.1 (by omega)
      rw [hnil]
      cases fuel <;> rfl
  | m + 1, 0, seq, data, _, hlt, hfuel => by
      have := hlt 0 (Nat.succ_pos m)
      omega
  | m + 1, fuel + 1, seq, [], _, hlt, _ => by
      have := hlt 0 (Nat.succ_pos m)
      simp at this
  | m + 1, fuel + 1, seq, b :: data, hle, hlt, hfuel => by
      have hdrop : ((b :: data).drop mss).length = (b :: data).length - mss := List.length_drop
      have ih := @gsoSegments_eq mss hm t m fuel (seq + UInt32.ofNat ((b :: data).take mss).length)
        ((b :: data).drop mss) (by rw [hdrop]; rw [Nat.succ_mul] at hle; omega)
        (fun j hj => by
          have := hlt (j + 1) (Nat.succ_lt_succ hj)
          rw [Nat.succ_mul] at this
          omega)
        (by omega)
      rw [gsoSegments, ih, List.range_succ_eq_map, List.map_cons, List.map_map]
      congr 1
      · simp [gsoEntry]
      · refine List.map_congr_left fun i hi => ?_
        -- only the last piece is shorter than `mss`
        have hnext := hlt (i + 1) (Nat.succ_lt_succ (List.mem_range.1 hi))
        have hfull : ((b :: data).take mss).length = mss := by
          rw [List.length_take]
          rw [Nat.succ_mul] at hnext
          omega
        rw [Function.comp_apply, gsoEntry, gsoEntry, hfull, List.drop_drop, UInt32.add_assoc, ← UInt32.ofNat_add,
          Nat.succ_mul, Nat.add_comm mss]

/-! ### The segments of the device -/

section
variable {p : OutSegment} {flow : FlowID}

theorem length_tcpEncode (f : TCP.Fields) : (TCP.encode f).length = tcpMinHeaderSize := rfl

theorem length_gsoHeader (p : OutSegment) (flow : FlowID) :
    (p.gsoHeader flow).length = tcpMinHeaderSize + p.options.length := by
  have hlen : ∀ f : TCP.Fields, (TCP.encode f ++ p.options).length = tcpMinHeaderSize + p.options.length := by
    intro f
    rw [List.length_append, length_tcpEncode]
  rw [OutSegment.gsoHeader, setTCPPartialChecksum, TCP.setChecksum, length_blit _ (by rw [hlen, tcpMinHeaderSize]; omega),
    hlen]

/-- A field of the header outside the checksum is as `Encode` wrote it. -/
theorem getD_gsoHeader {j : ℕ} (hj : j < 16) (v : UInt16) :
    (TCP.setChecksum (p.gsoHeader flow) v).getD j 0 = (TCP.encode ⟨flow.dstPort, flow.srcPort, p.seq, p.ack,
      UInt8.ofNat ((tcpMinHeaderSize + p.options.length) / 4), p.flags, p.wnd, 0, 0⟩).getD j 0 := by
  rw [TCP.setChecksum, getD_blit_ne (by omega), OutSegment.gsoHeader, setTCPPartialChecksum, TCP.setChecksum,
    getD_blit_ne (by omega)]
  exact getD_append (by rw [length_tcpEncode, tcpMinHeaderSize]; omega)

theorem sequenceNumber_gsoHeader (v : UInt16) :
    TCP.sequenceNumber (TCP.setChecksum (p.gsoHeader flow) v) = p.seq := by
  rw [TCP.sequenceNumber, uint32At, getD_gsoHeader (by omega), getD_gsoHeader (by omega),
    getD_gsoHeader (by omega), getD_gsoHeader (by omega)]
  exact uint32At_bytes32 p.seq

theorem dataOffset_gsoHeader (v : UInt16) (hopt : p.options.length = 0 ∨ p.options.length = 12) :
    (TCP.dataOffset (TCP.setChecksum (p.gsoHeader flow) v)).toNat = tcpMinHeaderSize + p.options.length := by
  rw [TCP.dataOffset, getD_gsoHeader (by omega)]
  change (((UInt8.ofNat ((tcpMinHeaderSize + p.options.length) / 4) <<< 4) >>> 4) * 4).toNat = _
  rcases hopt with h | h <;> rw [h] <;> decide

/-- A segment carries the sequence number and the data it was cut with. -/
theorem parseSeg_segmentTCP {tcp chunk : List UInt8} {seq src dst : UInt32} {last : Bool}
    (hlen : tcpMinHeaderSize ≤ tcp.length) (hoff : (TCP.dataOffset tcp).toNat = tcp.length) (hpos : 0 < chunk.length)
    (h : (setTCPChecksum (segmentTCP tcp seq last ++ chunk) src dst).length < 2 ^ 16) :
    (parseSeg (setTCPChecksum (segmentTCP tcp seq last ++ chunk) src dst) h).seq = seq ∧
    (parseSeg (setTCPChecksum (segmentTCP tcp seq last ++ chunk) src dst) h).payload = chunk := by
  have hseg := @length_segmentTCP tcp hlen seq last
  rw [tcpMinHeaderSize] at hlen
  have hget : ∀ j, j < 13 → (setTCPChecksum (segmentTCP tcp seq last ++ chunk) src dst).getD j 0
      = (blit tcp 4 (bytes32 seq)).getD j 0 := by
    intro j hj
    rw [setTCPChecksum, TCP.setChecksum, TCP.setChecksum, getD_blit_ne (by omega), getD_blit_ne (by omega),
      getD_append (by omega), segmentTCP]
    split_ifs
    · rfl
    · rw [getD_blit_ne (by omega)]
  have hdata : (setTCPChecksum (segmentTCP tcp seq last ++ chunk) src dst).drop tcp.length = chunk := by
    rw [setTCPChecksum, TCP.setChecksum, TCP.setChecksum, blit_blit (by simp) (by simp; omega),
      blit_append_left _ _ (by simp; omega), List.drop_left' (by rw [length_blit _ (by omega), hseg])]
  have hoff' : (TCP.dataOffset (setTCPChecksum (segmentTCP tcp seq last ++ chunk) src dst)).toNat = tcp.length := by
    rw [TCP.dataOffset, hget 12 (by omega), getD_blit_ne (by simp), ← TCP.dataOffset, hoff]
  constructor
  · change TCP.sequenceNumber _ = _
    rw [TCP.sequenceNumber, uint32At, hget 4 (by omega), hget _ (by omega), hget _ (by omega), hget _ (by omega)]
    exact uint32At_blit_self seq (by omega)
  · have hlt : tcp.length < (setTCPChecksum (segmentTCP tcp seq last ++ chunk) src dst).length := by
      rw [length_setTCPChecksum _ _ _ (by rw [tcpMinHeaderSize, List.length_append]; omega), List.length_append]
      omega
    change (if (TCP.dataOffset _).toNat < _ then _ else _) = _
    rw [hoff', if_pos hlt, hdata]

/-- Segment `i` of a packet, as it is received. -/
theorem segmentOf_tcpSegment {hdr : VirtioNetHdr} {ip tcp data : List UInt8} (hd : Describes hdr ip tcp)
    (hihl : IPv4.headerLength ip = ipv4MinHeaderSize) (hoff : (TCP.dataOffset tcp).toNat = tcp.length)
    (hmax : ipv4MinHeaderSize + (tcp.length + data.length) ≤ 65535) (t : ℤ) {i : ℕ}
    (hi : i * hdr.gsoSize.toNat < data.length) (hg : 0 < hdr.gsoSize.toNat) :
    SegmentOf (tcpSegment hdr ip tcp data i)
      (gsoEntry hdr.gsoSize.toNat t (TCP.sequenceNumber tcp) data i) := by
  obtain ⟨chunk, hchunk⟩ : ∃ chunk, chunk = (data.drop (i * hdr.gsoSize.toNat)).take hdr.gsoSize.toNat := ⟨_, rfl⟩
  have hlen : chunk.length = min hdr.gsoSize.toNat (data.length - i * hdr.gsoSize.toNat) := by
    rw [hchunk, List.length_take, List.length_drop]
  have hraw := @length_tcpSegment hdr ip tcp data hd i
  rw [← hchunk] at hraw
  have htcp := hd.length_tcp
  obtain ⟨hsrc, hdst⟩ := @addresses_segmentIP ip i (ipv4MinHeaderSize + (tcp.length + chunk.length))
  have hsegIP := length_segmentIP hd.length_ip i (ipv4MinHeaderSize + (tcp.length + chunk.length))
  have hsegTCP := fun seq last => @length_segmentTCP tcp hd.length_tcp seq last
  obtain ⟨last, hparts⟩ : ∃ last, tcpSegment hdr ip tcp data i =
      segmentIP ip i (ipv4MinHeaderSize + (tcp.length + chunk.length)) ++ setTCPChecksum (segmentTCP tcp
        (TCP.sequenceNumber tcp + (hdr.gsoSize * UInt16.ofNat i).toUInt32) last ++ chunk)
        (IPv4.sourceAddress ip) (IPv4.destinationAddress ip) := ⟨_, by rw [tcpSegment, ← hchunk]⟩
  have hget : ∀ j, j < 20 → (tcpSegment hdr ip tcp data i).getD j 0
      = (segmentIP ip i (ipv4MinHeaderSize + (tcp.length + chunk.length))).getD j 0 := by
    intro j hj
    rw [hparts, getD_append (by rw [hsegIP, ipv4MinHeaderSize]; exact hj)]
  have hhl : ∀ {raw : List UInt8}, raw.getD 0 0 = (segmentIP ip i (ipv4MinHeaderSize + (tcp.length
      + chunk.length))).getD 0 0 → IPv4.headerLength raw = ipv4MinHeaderSize := fun h => by
    rw [← hihl]
    exact headerLength_congr (h.trans (getD_segmentIP _ _ (by omega)))
  have htotal : (UInt16.ofNat (ipv4MinHeaderSize + (tcp.length + chunk.length))).toNat
      = ipv4MinHeaderSize + (tcp.length + chunk.length) := by
    rw [UInt16.toNat_ofNat']
    omega
  have hseq : (hdr.gsoSize * UInt16.ofNat i).toUInt32 = UInt32.ofNat (i * hdr.gsoSize.toNat) := by
    have hle : i ≤ i * hdr.gsoSize.toNat := Nat.le_mul_of_pos_right i hg
    rw [← UInt32.toNat_inj, UInt16.toNat_toUInt32, UInt16.toNat_mul, UInt16.toNat_ofNat', UInt32.toNat_ofNat',
      Nat.mod_eq_of_lt (by omega : i < 2 ^ 16), Nat.mul_comm]
    omega
  have htake : (tcpSegment hdr ip tcp data i).take ipv4MinHeaderSize
      = segmentIP ip i (ipv4MinHeaderSize + (tcp.length + chunk.length)) := by
    rw [hparts, List.take_left' hsegIP]
  have hdrop : (tcpSegment hdr ip tcp data i).drop ipv4MinHeaderSize = setTCPChecksum (segmentTCP tcp
      (TCP.sequenceNumber tcp + (hdr.gsoSize * UInt16.ofNat i).toUInt32) last ++ chunk)
      (IPv4.sourceAddress ip) (IPv4.destinationAddress ip) := by
    rw [hparts, List.drop_left' hsegIP]
  have hlen' : ∀ seq, (segmentTCP tcp seq last ++ chunk).length = tcp.length + chunk.length := fun seq => by
    rw [List.length_append, hsegTCP]
  refine ⟨?_, ?_, ?_, ?_⟩
  · rw [hraw, IPv4.totalLength, uint16At, hget 2 (by omega), hget 3 (by omega)]
    exact (congrArg UInt16.toNat (totalLength_segmentIP hd.length_ip i _)).trans htotal
  · rw [headerChecksum, hhl (hget 0 (by omega)), htake]
    exact checksum_segmentIP hd.length_ip i _
  · rw [hhl (hget 0 (by omega)), htake, hdrop, ← hsrc, ← hdst]
    refine verifies_setTCPChecksum ?_ ?_ ?_
    · rw [hlen']
      omega
    · rw [hlen']
      omega
    · rw [totalLength_segmentIP hd.length_ip, htotal, hhl rfl, hlen']
  · rw [hhl (hget 0 (by omega)), hdrop, hseq]
    have hlt : (setTCPChecksum (segmentTCP tcp (TCP.sequenceNumber tcp + UInt32.ofNat (i * hdr.gsoSize.toNat)) last
        ++ chunk) (IPv4.sourceAddress ip) (IPv4.destinationAddress ip)).length < 2 ^ 16 := by
      rw [length_setTCPChecksum _ _ _ (by rw [hlen']; omega), hlen']
      omega
    obtain ⟨h1, h2⟩ := parseSeg_segmentTCP hd.length_tcp hoff (by omega) hlt
    exact ⟨hlt, h1, h2.trans hchunk⟩

end

/-! ### A batch of `sendPending` -/

theorem length_tsOption (c : TCPConn) : (c.tsOption.length = 0 ∨ c.tsOption.length = 12) ∧
    c.gsoDataOffset = ipv4MinHeaderSize + (tcpMinHeaderSize + c.tsOption.length) := by
  rw [TCPConn.tsOption, TCPConn.gsoDataOffset]
  split_ifs
  · exact ⟨.inr rfl, rfl⟩
  · exact ⟨.inl rfl, rfl⟩

/-- How many pieces of `g` make up `n`. -/
theorem exists_count {g : ℕ} (hg : 0 < g) (n : ℕ) : ∃ m, n ≤ m * g ∧ ∀ j < m, j * g < n := by
  refine ⟨(n + g - 1) / g, ?_, ?_⟩
  · have h := Nat.lt_div_mul_add (a := n + g - 1) hg
    omega
  · intro j hj
    have h := (Nat.le_div_iff_mul_le hg).1 (Nat.succ_le_of_lt hj)
    rw [Nat.succ_mul] at h
    omega

theorem describes_gsoOptions {p : OutSegment} (hopt : p.options.length = 0 ∨ p.options.length = 12)
    {ip : List UInt8} (hip : ip.length = ipv4MinHeaderSize) (flow : FlowID) :
    Describes (virtioNetHdr p.gsoOptions) ip (p.gsoHeader flow) where
  gsoType := rfl
  csumStart := rfl
  csumOffset := rfl
  hdrLen := by
    rw [length_gsoHeader]
    change (UInt16.ofNat (ipv4MinHeaderSize + (tcpMinHeaderSize + p.options.length))).toNat = _
    rw [UInt16.toNat_ofNat', ipv4MinHeaderSize, tcpMinHeaderSize]
    omega
  length_ip := hip
  length_tcp := by
    rw [length_gsoHeader]
    omega

/-- The packet `SendPacketGSO` makes of a segment, cut by `gsoSplit` with the options given. -/
theorem gsoSplit_packet {p : OutSegment} {g : UInt16} (hsize : p.gsoSize = some g) (hg : 0 < g.toNat)
    (hopt : p.options.length = 0 ∨ p.options.length = 12)
    (hmax : ipv4MinHeaderSize + (tcpMinHeaderSize + p.options.length) + p.payload.length ≤ 65535)
    (t : ℤ) (flow : FlowID) (s : Stack) (o : ByteOrder) {bufs : List (List UInt8)} {sizes : List ℕ}
    {outOffset : ℕ} (hbufs : (gsoSegments g.toNat t p.payload.length p.seq p.payload).length ≤ bufs.length)
    (hsizes : bufs.length ≤ sizes.length) (hfit : ∀ b ∈ bufs, outOffset + (ipv4MinHeaderSize
      + (tcpMinHeaderSize + p.options.length)) + min g.toNat p.payload.length ≤ b.length) :
    ∃ r, gsoSplit o (virtioNetHdr p.gsoOptions) false
        (s.ipHeader (p.gsoBytes flow) flow.dstAddr flow.srcAddr tcpProtocolNumber ++ p.gsoBytes flow)
        bufs sizes outOffset = some r ∧ r.err = none ∧
      List.Forall₂ SegmentOf (r.packets outOffset) (gsoSegments g.toNat t p.payload.length p.seq p.payload) := by
  obtain ⟨ip, hip⟩ : ∃ ip, ip = s.ipHeader (p.gsoBytes flow) flow.dstAddr flow.srcAddr tcpProtocolNumber :=
    ⟨_, rfl⟩
  have hlenip : ip.length = ipv4MinHeaderSize := by rw [hip, length_ipHeader]
  have hd := describes_gsoOptions hopt hlenip flow
  have hgso : (virtioNetHdr p.gsoOptions).gsoSize = g := by
    change p.gsoSize.getD 0 = g
    rw [hsize, Option.getD_some]
  obtain ⟨m, hle, hlt⟩ := exists_count hg p.payload.length
  have hcut := @gsoSegments_eq g.toNat hg t m p.payload.length p.seq p.payload hle hlt le_rfl
  rw [hcut, List.length_map, List.length_range] at hbufs
  have hlentcp := length_gsoHeader p flow
  obtain ⟨r, hr, herr, hpackets⟩ := @gsoSplit_tcpv4 o _ ip (p.gsoHeader flow) p.payload hd (by omega) m outOffset
    bufs sizes (by rwa [hgso]) (by rwa [hgso]) hbufs (by omega) (by rw [hgso, hlentcp]; simpa [Nat.add_assoc] using hfit)
  refine ⟨r, by rw [← hip, OutSegment.gsoBytes, hr], herr, ?_⟩
  rw [hpackets, hcut, List.forall₂_map_left_iff, List.forall₂_map_right_iff, List.forall₂_same]
  intro i hi
  have hmore := hlt i (List.mem_range.1 hi)
  have hseg := @segmentOf_tcpSegment (virtioNetHdr p.gsoOptions) (IPv4.setChecksum ip 0)
    (TCP.setChecksum (p.gsoHeader flow) 0) p.payload hd.clear ?_ ?_ ?_ t i (by rwa [hgso]) (by rwa [hgso])
  · rwa [hgso, sequenceNumber_gsoHeader] at hseg
  · rw [← headerLength_ipHeader s (p.gsoBytes flow) flow.dstAddr flow.srcAddr tcpProtocolNumber, ← hip]
    exact headerLength_congr (getD_blit_ne (by omega))
  · rw [dataOffset_gsoHeader 0 hopt, hd.length_clear.2, hlentcp]
  · rw [hd.length_clear.2, hlentcp]
    omega

/-- However the packet of `p` is split, into buffers that are enough in number and size for it, its
    segments are `es`. -/
def SplitsInto (p : OutSegment) (es : List UnackedSegment) : Prop :=
  ∀ (flow : FlowID) (s s' : Stack), s.sendPacketGSO (p.gsoBytes flow) flow.dstAddr flow.srcAddr
      tcpProtocolNumber p.gsoOptions true = some s' →
    ∃ pkt, s'.outboundCh = s.outboundCh ++ [.gso pkt p.gsoOptions] ∧
      ∀ (o : ByteOrder) (outBuffs : List (List UInt8)) (sizes : List ℕ) (outOffset : ℕ),
        es.length ≤ outBuffs.length → outBuffs.length ≤ sizes.length →
        (∀ b ∈ outBuffs, ∀ e ∈ es, outOffset + p.gsoOptions.hdrLen.toNat + e.data.length ≤ b.length) →
        ∃ r, gsoSplit o (virtioNetHdr p.gsoOptions) false pkt outBuffs sizes outOffset = some r ∧
          r.err = none ∧ List.Forall₂ SegmentOf (r.packets outOffset) es

theorem splitsInto_gsoSegments {p : OutSegment} {g : UInt16} (hsize : p.gsoSize = some g) (hg : 0 < g.toNat)
    (hopt : p.options.length = 0 ∨ p.options.length = 12) (hpos : 0 < p.payload.length)
    (hmax : ipv4MinHeaderSize + (tcpMinHeaderSize + p.options.length) + p.payload.length ≤ 65535) (t : ℤ) :
    SplitsInto p (gsoSegments g.toNat t p.payload.length p.seq p.payload) := by
  intro flow s s' hsent
  have hbytes : (p.gsoBytes flow).length = tcpMinHeaderSize + p.options.length + p.payload.length := by
    rw [OutSegment.gsoBytes, List.length_append, length_gsoHeader]
  have hqueue : s'.outboundCh = s.outboundCh ++ [.gso (s.ipHeader (p.gsoBytes flow) flow.dstAddr flow.srcAddr
      tcpProtocolNumber ++ p.gsoBytes flow) p.gsoOptions] := by
    rw [sendPacketGSO, if_neg (by omega), enqueue, if_pos rfl] at hsent
    split_ifs at hsent
    rw [← Option.some.inj hsent]
  refine ⟨_, hqueue, fun o outBuffs sizes outOffset hbufs hsizes hfit => ?_⟩
  refine gsoSplit_packet hsize hg hopt hmax t flow s o hbufs hsizes fun b hb => ?_
  obtain ⟨m, hle, hlt⟩ := exists_count hg p.payload.length
  rw [gsoSegments_eq hg t hle hlt le_rfl] at hfit
  have hm : 0 < m := Nat.pos_of_ne_zero fun h => by
    rw [h] at hle
    omega
  have hfirst := hfit b hb (gsoEntry g.toNat t p.seq p.payload 0)
    (List.mem_map_of_mem (List.mem_range.2 hm))
  have hdata : (gsoEntry g.toNat t p.seq p.payload 0).data.length = min g.toNat p.payload.length := by
    rw [gsoEntry, Nat.zero_mul, List.drop_zero, List.length_take]
  have hhdr : p.gsoOptions.hdrLen.toNat = ipv4MinHeaderSize + (tcpMinHeaderSize + p.options.length) := by
    change (UInt16.ofNat (ipv4MinHeaderSize + (tcpMinHeaderSize + p.options.length))).toNat = _
    rw [UInt16.toNat_ofNat']
    omega
  rwa [hdata, hhdr] at hfirst

/-- CORRECT: the segment size of a connection fits the field of the options; and a batch that the GSO
    path of `sendPending` sends splits into the entries it appended to the retransmission queue. -/
theorem gso_batch_splits :
    (∀ {ok : Sys → Event → Prop} {s : Sys}, Reach Sys.Init Sys.step ok s → s.conn.ctl.synced = true →
      1 ≤ s.conn.tx.snd.mss → s.conn.tx.snd.mss < 2 ^ 16) ∧
    ∀ (c : TCPConn) (windowLeft available gsoMaxSize : ℤ), 1 ≤ c.tx.snd.mss → c.tx.snd.mss < 2 ^ 16 →
      (c.sendGSO (c.gsoBatchSize windowLeft available gsoMaxSize)).2 = true →
      ∃ p es, (c.sendGSO (c.gsoBatchSize windowLeft available gsoMaxSize)).1.wire.out = c.wire.out ++ [p] ∧
        (c.sendGSO (c.gsoBatchSize windowLeft available gsoMaxSize)).1.tx.snd.unacked
          = c.tx.snd.unacked ++ es ∧ SplitsInto p es := by
  refine ⟨fun hr hs hm => ?_, fun c w a g hm hfit hsent => ?_⟩
  · have hle := (sendInv_reach (reach_positiveMSS hr fun _ => hm)).mss_le hs
    rw [maxPayloadSize] at hle
    omega
  · obtain ⟨k, hk⟩ : ∃ k, k = c.gsoBatchSize w a g := ⟨_, rfl⟩
    have hle : k ≤ 0xffff - c.gsoDataOffset := by
      rw [hk, TCPConn.gsoBatchSize]
      omega
    rw [← hk] at hsent ⊢
    rw [TCPConn.sendGSO] at hsent ⊢
    split_ifs at hsent ⊢ with hneg hnil
    obtain ⟨data, hdata⟩ : ∃ data, data = (c.tx.writeBuf.readNoBlock k.toNat).2 := ⟨_, rfl⟩
    rw [← hdata] at hnil ⊢
    have hlen : data.length ≤ k.toNat := by
      rw [hdata, RingBuffer.readNoBlock_snd]
      exact List.length_take_le _ _
    have hg : (UInt16.ofInt c.tx.snd.mss).toNat = c.tx.snd.mss.toNat := by
      rw [UInt16.ofInt, UInt16.toNat_ofNat']
      omega
    obtain ⟨c₁, hc₁⟩ : ∃ c₁, c₁ = (c.takeBytes k.toNat).recordSentGSO c.tx.snd.nxt data c.tx.snd.mss := ⟨_, rfl⟩
    obtain ⟨hopt, hoff⟩ := length_tsOption c₁
    have hsame : c₁.gsoDataOffset = c.gsoDataOffset := by
      rw [hc₁]
      rfl
    have hsplits := @splitsInto_gsoSegments (c₁.dataSegment data c.tx.snd.nxt (some (UInt16.ofInt c.tx.snd.mss))) _
      rfl (by omega) hopt (List.length_pos_iff.2 hnil) (show ipv4MinHeaderSize + (tcpMinHeaderSize
        + c₁.tsOption.length) + data.length ≤ 65535 by omega) c.now
    rw [hg, hc₁] at hsplits
    exact ⟨_, _, rfl, rfl, hsplits⟩

/-- Five bytes and a segment size of two: three segments. -/
theorem gso_batch_splits_three : ∃ s : Sys, Reach Sys.Init Sys.step (fun _ _ => True) s ∧
    s.conn.tx.snd.mss < 2 ^ 16 ∧ ∃ p es,
      (s.conn.sendGSO (s.conn.gsoBatchSize 5 5 65536)).1.wire.out = s.conn.wire.out ++ [p] ∧
      (s.conn.sendGSO (s.conn.gsoBatchSize 5 5 65536)).1.tx.snd.unacked = s.conn.tx.snd.unacked ++ es ∧
      SplitsInto p es ∧ es.map UnackedSegment.entry = [(201, [1, 2]), (203, [3, 4]), (205, [5])] := by
  obtain ⟨s, hr, hs, hm, hsent, hqueue⟩ := Sys.exists_reach Sys.init_gsoSample (fun _ _ => true)
    (fun s => s.conn.ctl.synced = true ∧ 1 ≤ s.conn.tx.snd.mss ∧
      (s.conn.sendGSO (s.conn.gsoBatchSize 5 5 65536)).2 = true ∧
      ((s.conn.sendGSO (s.conn.gsoBatchSize 5 5 65536)).1.tx.snd.unacked.drop
        s.conn.tx.snd.unacked.length).map UnackedSegment.entry = [(201, [1, 2]), (203, [3, 4]), (205, [5])])
    [Sys.sampleACK, .writeCall 0 [1, 2, 3, 4, 5], .writeCopy 0] (by decide +kernel)
  have hfit := gso_batch_splits.1 hr hs hm
  obtain ⟨p, es, hout, hes, hsplits⟩ := gso_batch_splits.2 s.conn 5 5 65536 hm hfit hsent
  rw [hes, List.drop_left] at hqueue
  exact ⟨s, hr.mono fun _ _ _ => trivial, hfit, p, es, hout, hes, hsplits, hqueue⟩

end Netstack.Tcp
