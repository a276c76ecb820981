import Netstack.Header.Fields
import Netstack.Stack.Stack

/-! What the read loop lets in (`readLoop` of `stack/stack.go`).

    A turn of the loop drops the bytes it has read, or cuts them into a network header and the data
    behind it and passes these on: to `handleICMP`, to the handler of their protocol, or to the
    reassembler. The checks are those of an IPv4 receiver, but for one: nothing reads the version
    field, so a header of another version whose lengths and checksum happen to fit is taken for an
    IPv4 header. -/

namespace Netstack.Header.IPv4

/-- The version field, which no accessor of the source reads. -/
def version (b : List UInt8) : UInt8 := b.getD 0 0 >>> 4

end Netstack.Header.IPv4

namespace Netstack.Stack
open Netstack.Header

/-- Who gets a packet that `readLoop` does not drop. -/
inductive Taker where
  | icmp
  | handler (proto : UInt8)
  | reassembler
  deriving DecidableEq

/-- The end of `readLoop`: who gets `pb`. A protocol without a handler has none. -/
def taker (s : Stack) (pb : PacketBuffer) : Option Taker :=
  let proto := IPv4.protocol pb.networkHeader
  if isFragment pb then some .reassembler
  else if proto = icmpv4ProtocolNumber then some .icmp
  else if proto ∈ s.handlers then some (.handler proto)
  else none

/-- What a turn of `readLoop` passes on of the bytes read, and to whom. -/
def passOn (s : Stack) (raw : List UInt8) : Option (Taker × PacketBuffer) :=
  (parsePacket raw).bind fun pb => (s.taker pb).map fun t => (t, pb)

theorem passOn_eq_some {s : Stack} {raw : List UInt8} {t : Taker} {pb : PacketBuffer} :
    s.passOn raw = some (t, pb) ↔ parsePacket raw = some pb ∧ s.taker pb = some t := by
  simp only [passOn, Option.bind_eq_some_iff, Option.map_eq_some_iff, Prod.mk.injEq]
  constructor
  · rintro ⟨pb', hparse, t', ht, rfl, rfl⟩
    exact ⟨hparse, ht⟩
  · rintro ⟨hparse, ht⟩
    exact ⟨pb, hparse, t, ht, rfl, rfl⟩

/-! ### A turn of the loop, by what is passed on -/

section
variable {s : Stack} {raw : List UInt8} {now : ℤ} {order : List (FragmentKey × FragmentSet)}
  {pb : PacketBuffer}

theorem taker_of_fragment (h : isFragment pb = true) : s.taker pb = some .reassembler := by
  rw [taker, if_pos h]

theorem isFragment_of_taker {t : Taker} (h : s.taker pb = some t) (ht : t ≠ .reassembler) :
    isFragment pb = false := by
  by_contra hf
  rw [taker_of_fragment (by simpa using hf)] at h
  exact ht (Option.some.inj h).symm

/-- A packet nobody gets leaves the stack as it was. -/
theorem read_of_passOn_none (h : s.passOn raw = none) : s.read raw now order = some s := by
  rw [read]
  cases hparse : parsePacket raw with
  | none => rfl
  | some pb =>
    have htaker : s.taker pb = none := by
      rw [passOn, hparse] at h
      simpa using h
    have hfrag : isFragment pb = false := by
      by_contra hf
      rw [taker_of_fragment (by simpa using hf)] at htaker
      cases htaker
    simp only [hfrag, Bool.false_eq_true, if_false]
    rw [taker, hfrag] at htaker
    simp only [Bool.false_eq_true, if_false] at htaker
    rw [dispatch]
    split_ifs at htaker ⊢
    rfl

theorem read_of_passOn_icmp (h : s.passOn raw = some (.icmp, pb)) :
    s.read raw now order = some (s.handleICMP pb.networkHeader pb.data) := by
  obtain ⟨hparse, ht⟩ := passOn_eq_some.1 h
  have hfrag := isFragment_of_taker ht (by decide)
  rw [taker, hfrag] at ht
  simp only [read, hparse, hfrag, Bool.false_eq_true, if_false] at ht ⊢
  rw [dispatch]
  split_ifs at ht ⊢
  · rfl
  · cases ht

theorem read_of_passOn_handler {proto : UInt8} (h : s.passOn raw = some (.handler proto, pb)) :
    s.read raw now order
      = some { s with delivered := s.delivered ++ [⟨proto, pb.networkHeader, pb.data⟩] } := by
  obtain ⟨hparse, ht⟩ := passOn_eq_some.1 h
  have hfrag := isFragment_of_taker ht (fun h => by cases h)
  rw [taker, hfrag] at ht
  simp only [read, hparse, hfrag, Bool.false_eq_true, if_false] at ht ⊢
  rw [dispatch]
  split_ifs at ht ⊢
  · cases ht
  · obtain rfl := Taker.handler.inj (Option.some.inj ht)
    rfl

/-- What the reassembler makes of a fragment: nothing yet, or a datagram for the switch. -/
theorem read_of_passOn_reassembler (h : s.passOn raw = some (.reassembler, pb))
    (horder : order.Perm s.fragments.sets) : s.read raw now order =
      (Reassembler.process { s.fragments with sets := order } pb now).map fun p =>
        match p.2 with
        | none => { s with fragments := p.1 }
        | some bytes =>
          let hdrLen := Reassembler.headerLen { s.fragments with sets := order } pb now
          { s with fragments := p.1 }.dispatch (bytes.take hdrLen) (bytes.drop hdrLen) := by
  obtain ⟨hparse, ht⟩ := passOn_eq_some.1 h
  have hfrag : isFragment pb = true := by
    rw [taker] at ht
    split_ifs at ht with hf
    · exact hf
    · cases ht
    · cases ht
  simp only [read, hparse, hfrag, if_true, horder]
  split
  · next hp => rw [hp]; rfl
  · next hp => rw [hp]; rfl
  · next hp => rw [hp]; rfl

end

/-! ### The checks -/

/-- The lengths and the checksum of an IPv4 packet are right, whatever its version field. -/
structure Checked (raw : List UInt8) : Prop where
  long : ipv4MinHeaderSize ≤ raw.length
  header : ipv4MinHeaderSize ≤ IPv4.headerLength raw
  total : IPv4.headerLength raw ≤ (IPv4.totalLength raw).toNat
  read : (IPv4.totalLength raw).toNat ≤ raw.length
  checksum : checksum (raw.take (IPv4.headerLength raw)) 0 = 0

/-- A packet an IPv4 receiver takes. -/
structure Acceptable (raw : List UInt8) : Prop extends Checked raw where
  version : IPv4.version raw = 4

/-- Somebody takes packets with the header `raw` starts with. -/
def Wanted (s : Stack) (raw : List UInt8) : Prop :=
  IPv4.more raw = true ∨ IPv4.fragmentOffset raw ≠ 0 ∨ IPv4.protocol raw = icmpv4ProtocolNumber
    ∨ IPv4.protocol raw ∈ s.handlers

/-- The packet is passed on exactly when it is well formed, cut at its header and total lengths. -/
def FiltersExactly (s : Stack) (raw : List UInt8) : Prop :=
  ((s.passOn raw).isSome ↔ Acceptable raw) ∧
  ∀ t pb, s.passOn raw = some (t, pb) →
    pb.networkHeader = raw.take (IPv4.headerLength raw) ∧
    pb.data = (raw.take (IPv4.totalLength raw).toNat).drop (IPv4.headerLength raw)

section
variable {s : Stack} {raw : List UInt8} {pb : PacketBuffer}

theorem take_header_of_total (h : IPv4.headerLength raw ≤ (IPv4.totalLength raw).toNat) :
    (raw.take (IPv4.totalLength raw).toNat).take (IPv4.headerLength raw)
      = raw.take (IPv4.headerLength raw) := by
  rw [List.take_take, min_eq_left h]

/-- The checks of the loop are those of `Checked`. -/
theorem parsePacket_isSome_iff : (parsePacket raw).isSome ↔ Checked raw := by
  rw [parsePacket]
  split_ifs with hlong hhdr htotal hsum
  · exact ⟨(fun h => by cases h), fun h => absurd h.long (by omega)⟩
  · have hc : ¬Checked raw := fun h => by
      have h1 := h.header
      have h2 := h.total
      have h3 := h.read
      omega
    exact ⟨(fun h => by cases h), fun h => absurd h hc⟩
  · have hc : ¬Checked raw := fun h => by
      have h2 := h.total
      have h3 := h.read
      omega
    exact ⟨(fun h => by cases h), fun h => absurd h hc⟩
  all_goals rw [take_header_of_total (by omega)] at hsum
  · exact ⟨(fun h => by cases h), fun h => absurd h.checksum hsum⟩
  · exact ⟨fun _ => ⟨by omega, by omega, by omega, by omega, not_not.1 hsum⟩, fun _ => rfl⟩

/-- What passes is cut at the header length and at the total length. -/
theorem parsePacket_cut (h : parsePacket raw = some pb) :
    pb.networkHeader = raw.take (IPv4.headerLength raw) ∧
    pb.data = (raw.take (IPv4.totalLength raw).toNat).drop (IPv4.headerLength raw) := by
  have hc : Checked raw := parsePacket_isSome_iff.1 (by rw [h]; rfl)
  rw [parsePacket] at h
  split_ifs at h
  obtain rfl := Option.some.inj h
  exact ⟨take_header_of_total hc.total, rfl⟩

/-- The fields the switch reads lie in the first 20 bytes, which are all in the network header. -/
theorem taker_isSome_iff (h : parsePacket raw = some pb) : (s.taker pb).isSome ↔ Wanted s raw := by
  have hc : Checked raw := parsePacket_isSome_iff.1 (by rw [h]; rfl)
  have hget : ∀ i < 20, pb.networkHeader.getD i 0 = raw.getD i 0 := fun i hi => by
    rw [(parsePacket_cut h).1, getD_take (lt_of_lt_of_le hi hc.header)]
  have hmore : IPv4.more pb.networkHeader = IPv4.more raw := by
    rw [IPv4.more, IPv4.more, IPv4.flags, IPv4.flags, hget 6 (by decide)]
  have hoff : IPv4.fragmentOffset pb.networkHeader = IPv4.fragmentOffset raw := by
    rw [IPv4.fragmentOffset, IPv4.fragmentOffset, uint16At, uint16At, hget 6 (by decide),
      hget 7 (by decide)]
  have hproto : IPv4.protocol pb.networkHeader = IPv4.protocol raw := hget 9 (by decide)
  have hfrag : isFragment pb = true ↔ IPv4.more raw = true ∨ IPv4.fragmentOffset raw ≠ 0 := by
    rw [isFragment, hmore, hoff, Bool.or_eq_true, bne_iff_ne]
  rw [taker, hproto, Wanted, ← or_assoc, ← hfrag]
  split_ifs with h1 h2 h3
  · exact ⟨fun _ => .inl h1, fun _ => rfl⟩
  · exact ⟨fun _ => .inr (.inl h2), fun _ => rfl⟩
  · exact ⟨fun _ => .inr (.inr h3), fun _ => rfl⟩
  · exact ⟨(fun h => by cases h), fun h => (h.elim h1 fun h => h.elim h2 h3).elim⟩

theorem passOn_isSome_iff : (s.passOn raw).isSome ↔ Checked raw ∧ Wanted s raw := by
  rw [← parsePacket_isSome_iff, passOn]
  cases hparse : parsePacket raw with
  | none => simp
  | some pb =>
    rw [Option.bind_some, Option.isSome_map, taker_isSome_iff hparse]
    simp

end

/-- CORRECT: the filter is exact on `raw` if and only if `raw` fails a check the loop makes, or its
    version is 4 just when somebody takes packets of its kind. -/
theorem filtersExactly_iff (s : Stack) (raw : List UInt8) :
    FiltersExactly s raw ↔ (Checked raw → (IPv4.version raw = 4 ↔ Wanted s raw)) := by
  have hcut : ∀ t pb, s.passOn raw = some (t, pb) →
      pb.networkHeader = raw.take (IPv4.headerLength raw) ∧
      pb.data = (raw.take (IPv4.totalLength raw).toNat).drop (IPv4.headerLength raw) :=
    fun t pb h => parsePacket_cut (passOn_eq_some.1 h).1
  have hwf : Acceptable raw ↔ Checked raw ∧ IPv4.version raw = 4 :=
    ⟨fun h => ⟨h.toChecked, h.version⟩, fun h => ⟨h.1, h.2⟩⟩
  rw [FiltersExactly, passOn_isSome_iff, hwf, and_congr_right_iff]
  exact ⟨fun h hc => (h.1 hc).symm, fun h => ⟨fun hc => (h hc).symm, hcut⟩⟩

/-- A packet with a version field of 6, in every other respect a UDP packet over IPv4. -/
def version6Packet : List UInt8 :=
  [0x65, 0, 0, 28, 0, 0, 0, 0, 64, 17, 0x46, 0xcf, 10, 0, 0, 2, 10, 0, 0, 1]
    ++ [0x30, 0x39, 0, 53, 0, 8, 0, 0]

/-- The version is not looked at: the UDP handler is given a packet of version 6. -/
theorem version6_delivered : ∃ s s' : Stack, Init s ∧ ¬Acceptable version6Packet ∧
    (s.passOn version6Packet).isSome ∧ s.step (.read version6Packet 0 [] (by decide)) = some s' ∧
    s'.delivered = [⟨udpProtocolNumber, version6Packet.take 20, version6Packet.drop 20⟩] := by
  refine ⟨_, _, ⟨1500, false, 64, 16, [udpProtocolNumber], rfl⟩, fun h => ?_, ?_, rfl, ?_⟩
  · exact absurd h.version (by decide)
  · decide +kernel
  · decide +kernel

end Netstack.Stack
