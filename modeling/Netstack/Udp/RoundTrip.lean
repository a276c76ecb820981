import Netstack.Stack.Mtu
import Netstack.Stack.RoundTrip
import Netstack.Udp.Handler

/-! A UDP datagram from `WriteTo` on one stack to the inbound queue of another.

    What the write loop hands to the channel is the packet or its fragments. The read loop of a
    stack that holds no fragments makes the packet of them in whatever order they come, and passes
    its two parts to `HandlePacket`. -/

namespace Netstack.Stack
open Netstack.Copy Netstack.Header Reassembler

/-- Turns of the read loop on packets that are read one after the other, each at its time. At most one
    set is pending in between where this is used, so there is one order to walk the map in. -/
def readAll : Stack → List (List UInt8 × ℤ) → Option Stack
  | s, [] => some s
  | s, (raw, now) :: rest => (s.read raw now s.fragments.sets).bind fun s => s.readAll rest

/-! ### Reading the fragments of a datagram -/

namespace Datagram

variable {d : Datagram} {s : List PacketBuffer} {r : Reassembler} {pb : PacketBuffer} {t now : ℤ}

/-- The header in front of the datagram is that of its first packet. -/
theorem Alone.headerLen (h : Alone d s t r) (hperm : (pb :: s).Perm d.packets)
    (hnow : t ≤ now ∧ now ≤ t + ipv4ReassemblyTimeout) :
    r.headerLen pb now = d.first.networkHeader.length := by
  have hmem : pb ∈ d.packets := hperm.mem_iff.1 (List.mem_cons_self ..)
  obtain ⟨hi, hheld⟩ := h.tracks.stored (h.unpressed hmem hnow).fresh hmem
    (not_mem_of_perm (l := []) hperm)
  have hfirst : d.first ∈ pb :: s := hperm.mem_iff.2 (List.mem_cons_self ..)
  rw [Reassembler.headerLen, hi]
  dsimp only
  rw [hheld.header, if_pos hfirst, Option.getD_some]

/-- Every packet of the datagram is a fragment to the read loop. -/
theorem isFragment_of_mem (hpb : pb ∈ d.packets) : isFragment pb = true := by
  rw [isFragment, Bool.or_eq_true, bne_iff_ne]
  by_cases h0 : offsetOf pb = 0
  · left
    have hmore := d.carries.2.2.2.1
    have hrest := d.fragmented
    rw [eq_first_of_offset hpb h0, hmore]
    cases hr : d.rest with
    | nil => exact absurd hr hrest
    | cons => rfl
  · right
    rintro hoff
    rw [offsetOf, hoff] at h0
    exact h0 rfl

/-- The read loop on the packets of a datagram: nothing is handed on before the last, and then the
    datagram is. -/
theorem Alone.readAll (st : Stack) : ∀ {l : List (List UInt8 × ℤ)} {ps s : List PacketBuffer} {r : Reassembler},
    Alone d s t r → (l.map fun e => parsePacket e.1) = ps.map some → (ps ++ s).Perm d.packets → Timely t l →
    ∃ r', Stack.readAll { st with fragments := r } l = some
      ({ st with fragments := r' }.dispatch (d.bytes.take d.first.networkHeader.length)
        (d.bytes.drop d.first.networkHeader.length))
  | [], ps, s, r, h, hps, hperm, _ => by
      obtain rfl : ps = [] := by simpa using hps.symm
      exact absurd (fun q hq => hperm.mem_iff.2 hq) h.tracks.open_
  | (raw, now) :: l, ps, s, r, h, hps, hperm, ht => by
      obtain ⟨pb, ps, rfl⟩ : ∃ pb ps', ps = pb :: ps' := by
        rcases ps with _ | ⟨pb, ps⟩
        · simp at hps
        · exact ⟨pb, ps, rfl⟩
      rw [List.map_cons, List.map_cons, List.cons_eq_cons] at hps
      obtain ⟨hpb, hps⟩ := hps
      have hnow := ht _ (List.mem_cons_self ..)
      obtain ⟨r', hp, hr'⟩ := h.next hperm hnow
      have hfrag := isFragment_of_mem (hperm.mem_iff.1 (List.mem_cons_self ..))
      rw [Stack.readAll, Stack.read]
      dsimp only at hpb ⊢
      simp only [hpb, hfrag, if_true, List.Perm.refl, hp]
      by_cases hlast : ps = []
      · -- the last packet
        subst hlast
        obtain rfl : l = [] := by simpa using hps
        refine ⟨r', ?_⟩
        rw [← h.headerLen hperm hnow]
        rfl
      · obtain ⟨r'', hread⟩ := Alone.readAll st (hr' hlast) hps (List.perm_middle.trans hperm)
          fun q hq => ht q (List.mem_cons_of_mem _ hq)
        refine ⟨r'', ?_⟩
        simp only [if_neg hlast]
        exact hread

end Datagram

/-- SAFE: an unfragmented packet, sent whole or in fragments, is handed on once and as it was sent. -/
theorem Original.arrives {pkt : List UInt8} {mtu : ℤ} (h : Original pkt)
    (hmtu : (IPv4.headerLength pkt : ℤ) + 8 ≤ mtu) :
    ∃ sent : List (List UInt8), (∀ w : Stack, w.mtu = mtu →
        (w.writePacket pkt).written = w.written ++ sent.map fun p => ⟨p, .none⟩) ∧
      (∀ p ∈ sent, (p.length : ℤ) ≤ mtu) ∧
      ∀ (st : Stack) (l : List (List UInt8 × ℤ)) (t : ℤ), st.fragments = newIPv4Reassembler →
        (l.map Prod.fst).Perm sent → Timely t l → ∃ r', st.readAll l = some
          ({ st with fragments := r' }.dispatch (pkt.take (IPv4.headerLength pkt))
            (pkt.drop (IPv4.headerLength pkt))) := by
  by_cases hfits : (pkt.length : ℤ) ≤ mtu
  · refine ⟨[pkt], fun w hw => ?_, fun p hp => ?_, fun st l t hr hperm _ => ⟨newIPv4Reassembler, ?_⟩⟩
    · rw [Stack.writePacket, if_pos (.inr (by rw [hw]; exact hfits))]
      rfl
    · rw [List.mem_singleton.1 hp]
      exact hfits
    · obtain ⟨now, rfl⟩ : ∃ now, l = [(pkt, now)] := by
        rcases l with _ | ⟨⟨raw, now⟩, l⟩
        · simp at hperm
        · have := List.perm_singleton.1 hperm
          simp only [List.map_cons, List.cons.injEq, List.map_eq_nil_iff] at this
          exact ⟨now, by rw [this.1, this.2]⟩
      obtain ⟨pb, hpb, hhdr, hdata⟩ := h.parsed
      have hhl := h.min
      rw [ipv4MinHeaderSize] at hhl
      have hwhole : isFragment pb = false := by
        rw [isFragment, hhdr, IPv4.more, IPv4.flags, getD_take (by omega), ← IPv4.flags, h.flags,
          IPv4.fragmentOffset, uint16At_take (by omega), ← IPv4.fragmentOffset, h.offset]
        rfl
      rw [← hr, Stack.readAll, Stack.read]
      simp only [hpb, hwhole, hhdr, hdata]
      rfl
  · obtain ⟨frags, hf, hmany⟩ := h.fragments hmtu (by omega)
    have ht := h.tiles hf hmany
    obtain ⟨d, hpackets, hlen, hbytes⟩ := h.datagram ht hmany
    refine ⟨frags, fun w hw => ?_, length_fragment_le hf, fun st l t hr hperm htime => ?_⟩
    · rw [Stack.writePacket, if_neg (by rw [hw]; omega), hw, hf]
      exact (foldl_writes w frags).2
    · have hsome : ∀ e ∈ l, ∃ pb, parsePacket e.1 = some pb := by
        intro e he
        have hmem : parsePacket e.1 ∈ frags.map parsePacket :=
          List.mem_map_of_mem (hperm.mem_iff.1 (List.mem_map_of_mem he))
        rw [hpackets] at hmem
        obtain ⟨pb, -, hpb⟩ := List.mem_map.1 hmem
        exact ⟨pb, hpb.symm⟩
      have hps : (l.map fun e => parsePacket e.1) = (l.map fun e => (parsePacket e.1).getD d.first).map some := by
        rw [List.map_map]
        refine List.map_congr_left fun e he => ?_
        obtain ⟨pb, hpb⟩ := hsome e he
        simp [hpb]
      have hpsperm : (l.map fun e => (parsePacket e.1).getD d.first).Perm d.packets := by
        apply (List.map_perm_map_iff (Option.some_injective _)).1
        rw [← hps, ← hpackets]
        have hmap := hperm.map parsePacket
        rwa [List.map_map] at hmap
      have halone := d.alone_new t
      obtain ⟨r', hread⟩ := halone.readAll st hps (by rw [List.append_nil]; exact hpsperm) htime
      rw [hlen, hbytes] at hread
      refine ⟨r', ?_⟩
      rw [← hread, ← hr]

/-- A packet as `SendPacket` leaves it. -/
theorem original_ipHeader (s : Stack) {segment : List UInt8} (src dst : UInt32) (proto : UInt8)
    (h : ipv4MinHeaderSize + segment.length ≤ 65535) :
    Original (s.ipHeader segment src dst proto ++ segment) ∧
      IPv4.headerLength (s.ipHeader segment src dst proto ++ segment) = ipv4MinHeaderSize := by
  have hlen := length_ipHeader s segment src dst proto
  have hhl : IPv4.headerLength (s.ipHeader segment src dst proto ++ segment) = ipv4MinHeaderSize := by
    rw [← headerLength_ipHeader s segment src dst proto]
    exact headerLength_congr (getD_append (by rw [hlen]; decide))
  have hget : ∀ {i}, i < 20 → (s.ipHeader segment src dst proto ++ segment).getD i 0
      = (s.ipHeader segment src dst proto).getD i 0 := fun hi => getD_append (by rw [hlen]; exact hi)
  have hfield : ∀ {i}, i + 2 ≤ 20 → uint16At (s.ipHeader segment src dst proto ++ segment) i
      = uint16At (s.ipHeader segment src dst proto) i := fun hi => by
    rw [uint16At, uint16At, hget (by omega), hget (by omega)]
  refine ⟨⟨hhl.ge, by rw [hhl, List.length_append, hlen]; omega, ?_, ?_, ?_, ?_⟩, hhl⟩
  · rw [IPv4.totalLength, hfield (by omega), ← IPv4.totalLength, totalLength_ipHeader, List.length_append, hlen,
      UInt16.toNat_ofNat']
    exact Nat.mod_eq_of_lt (by omega)
  · rw [IPv4.flags, hget (by omega), ipHeader_eq, IPv4.getD_sealHeader _ _ (by omega)]
    exact (by decide : (bytes16 ((0 : UInt8).toUInt16 <<< 13 ||| ((0 : UInt16) &&& 0x1fff))).getD 0 0 >>> 5 = 0)
  · rw [IPv4.fragmentOffset, hfield (by omega), ipHeader_eq, IPv4.uint16At_sealHeader _ _ (by omega)]
    exact (by decide : uint16At (bytes16 ((0 : UInt8).toUInt16 <<< 13 ||| ((0 : UInt16) &&& 0x1fff))) 0 &&& 0x1fff = 0)
  · have htake : (IPv4.setChecksum (s.ipHeader segment src dst proto ++ segment) 0).take ipv4MinHeaderSize
        = (IPv4.setChecksum (s.ipHeader segment src dst proto) 0).take ipv4MinHeaderSize := by
      rw [IPv4.setChecksum, take_blit_of_le _ (by decide) (by rw [List.length_append, hlen]; simp [ipv4MinHeaderSize]; omega),
        List.take_append_of_le_length hlen.ge, ← hlen, List.take_length, IPv4.setChecksum, List.take_of_length_le]
      rw [length_blit _ (by rw [hlen]; decide)]
    rw [hfield (by omega), hhl, htake, ipHeader_eq]
    exact IPv4.uint16At_sealHeader_self (by rw [length_encode]; decide)

theorem protocol_ipHeader (s : Stack) (segment : List UInt8) (src dst : UInt32) (proto : UInt8) :
    IPv4.protocol (s.ipHeader segment src dst proto) = proto := by
  rw [IPv4.protocol, ipHeader_eq, IPv4.getD_sealHeader _ _ (by omega)]
  rfl

end Netstack.Stack

namespace Netstack.Udp
open Netstack.Header Netstack.Stack UDPHandler

/-- The handler on what the read loop hands on. -/
def UDPHandler.handle (k : UDPHandler) (ds : List Delivery) : UDPHandler :=
  ds.foldl (fun k d => if d.proto = udpProtocolNumber then k.handlePacket d.networkHeader d.data else k) k

/-- CORRECT: a payload of up to 65507 bytes given to `WriteTo` leaves the write loop as one packet or as
    fragments, each within the MTU, and these, in any order within the reassembly timeout, make the
    handler of a stack without pending fragments queue exactly one datagram, with that payload, source
    and destination. -/
theorem udp_round_trip {h : UDPHandler} {s : Stack} {b : List UInt8} (src dst : FullAddress)
    (hmtu : 28 ≤ s.mtu) (hmax : s.mtu ≤ 1500) (hb : b.length ≤ 65507) (hopen : h.done = false)
    (hroom : s.outboundCh.length ≤ s.queueSize) :
    ∃ (s' : Stack) (pkt : List UInt8) (sent : List (List UInt8)),
      h.writeTo s b src dst true = some (.ok b.length, s') ∧
      s'.outboundCh = s.outboundCh ++ [.packet pkt] ∧
      (∀ w : Stack, w.mtu = s.mtu →
        (w.writePacket pkt).written = w.written ++ sent.map fun p => ⟨p, .none⟩) ∧
      (∀ p ∈ sent, (p.length : ℤ) ≤ s.mtu ∧ p.length ≤ maxPacketSize) ∧
      ∀ (st : Stack) (k : UDPHandler) (l : List (List UInt8 × ℤ)) (t : ℤ), udpProtocolNumber ∈ st.handlers →
        st.fragments = newIPv4Reassembler → k.inbound.length < k.inboundQueueSize →
        (l.map Prod.fst).Perm sent → Timely t l →
        ∃ st' ds, st.readAll l = some st' ∧ st'.delivered = st.delivered ++ ds ∧
          (k.handle ds).inbound = k.inbound ++ [⟨b, src, dst⟩] := by
  have hlen : ipv4MinHeaderSize + (fullUDP b src dst).length ≤ 65535 := by
    rw [length_fullUDP, ipv4MinHeaderSize, udpHeaderSize]
    omega
  obtain ⟨horig, hhl⟩ := original_ipHeader s src.addr dst.addr udpProtocolNumber hlen
  obtain ⟨sent, hwritten, hfit, hread⟩ := horig.arrives (by rw [hhl, ipv4MinHeaderSize]; omega : _ ≤ s.mtu)
  have hw : ∃ s', h.writeTo s b src dst true = some (.ok b.length, s') := by
    rw [writeTo, hopen, if_neg (by simp), if_neg (by rw [maxIPv4UDPPayload, ipv4MinHeaderSize, udpHeaderSize]; omega),
      Stack.sendPacket, if_neg (by omega), Stack.enqueue]
    simp only [if_true, hroom]
    exact ⟨_, rfl⟩
  obtain ⟨s', hw⟩ := hw
  refine ⟨s', _, sent, hw, (writeTo_ok hw).2.2, hwritten, fun p hp => ?_, fun st k l t hreg hr hk hperm ht => ?_⟩
  · have hp := hfit p hp
    exact ⟨hp, by rw [maxPacketSize]; omega⟩
  · obtain ⟨r', hst'⟩ := hread st l t hr hperm ht
    have hhdr := length_ipHeader s (fullUDP b src dst) src.addr dst.addr udpProtocolNumber
    rw [hhl, List.take_left' hhdr, List.drop_left' hhdr, dispatch, protocol_ipHeader, if_neg (by decide),
      if_pos hreg] at hst'
    refine ⟨_, [_], hst', rfl, ?_⟩
    have hsize : udpHeaderSize ≤ (fullUDP b src dst).length := by
      rw [length_fullUDP]
      omega
    have hdg : datagramOf (s.ipHeader (fullUDP b src dst) src.addr dst.addr udpProtocolNumber) (fullUDP b src dst)
        = ⟨b, src, dst⟩ := by
      have hport : ∀ {i}, i + 2 ≤ 8 → uint16At ((fullUDP b src dst).take udpHeaderSize) i
          = uint16At (fullUDP b src dst) i := fun hi => uint16At_take hi
      rw [datagramOf, drop_fullUDP, sourceAddress_ipHeader, destinationAddress_ipHeader, UDP.sourcePort, hport (by omega),
        ← UDP.sourcePort, sourcePort_fullUDP, UDP.destinationPort, hport (by omega), ← UDP.destinationPort,
        destinationPort_fullUDP]
    rw [UDPHandler.handle, List.foldl_cons, List.foldl_nil, if_pos rfl]
    exact handlePacket_inbound.2 ⟨hsize, hk, hdg.symm⟩

/-- A hundred bytes through an MTU of 28. -/
theorem udp_round_trip_sample : ∃ (s' : Stack) (pkt : List UInt8) (sent : List (List UInt8)),
    (UDPHandler.new 1).writeTo { idleStack with mtu := 28 } (List.replicate 100 7) ⟨1, 2⟩ ⟨3, 4⟩ true
      = some (.ok 100, s') ∧ s'.outboundCh = [.packet pkt] ∧
    (({ idleStack with mtu := 28 } : Stack).writePacket pkt).written = sent.map (fun p => ⟨p, .none⟩) ∧
    ∀ p ∈ sent, (p.length : ℤ) ≤ 28 := by
  obtain ⟨s', pkt, sent, hw, hout, hwritten, hfit, -⟩ := @udp_round_trip (UDPHandler.new 1)
    { idleStack with mtu := 28 } (List.replicate 100 7) ⟨1, 2⟩ ⟨3, 4⟩ (by decide) (by decide) (by decide) rfl
    (by decide)
  exact ⟨s', pkt, sent, hw, hout, hwritten { idleStack with mtu := 28 } rfl, fun p hp => (hfit p hp).1⟩

end Netstack.Udp
