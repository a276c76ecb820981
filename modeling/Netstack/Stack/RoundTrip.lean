import Netstack.Stack.HeaderChecksums

/-! Fragmentation and reassembly undo each other.

    The two halves meet at `Tiles`: the loop of `fragmentIPv4Packet` cuts the payload into
    consecutive pieces behind copies of the header, and fragments of that shape are read as the
    packets of one `Datagram`, which the reassembler returns whatever their order. What it rewrites
    in the header of the first fragment is what the packet had there. -/

namespace Netstack.Stack
open Netstack.Copy Netstack.Header Reassembler

/-! ### The header of a fragment -/

section
variable {hdr piece : List UInt8} {flags : UInt8} {offset : ℕ}

theorem drop_buildFragment (h : ipv4MinHeaderSize ≤ hdr.length) :
    (buildFragment hdr flags offset piece).drop hdr.length = piece := by
  rw [ipv4MinHeaderSize] at h
  refine ext_getD (by rw [List.length_drop, length_buildFragment h, Nat.add_sub_cancel_left]) fun j => ?_
  rw [getD_drop, buildFragment_eq, IPv4.getD_sealHeader _ _ (by omega), IPv4.setFlagsFragmentOffset,
    getD_blit_ne (by rw [length_bytes16]; omega), IPv4.setTotalLength,
    getD_blit_ne (by rw [length_bytes16]; omega), ← getD_drop, List.drop_left]

theorem headerLength_buildFragment (h : Framed hdr) :
    IPv4.headerLength (buildFragment hdr flags offset piece) = hdr.length := by
  obtain ⟨hmin, hhl⟩ := h
  rw [ipv4MinHeaderSize] at hmin
  rw [hhl]
  exact headerLength_congr (getD_buildFragment flags offset piece (by omega) (by omega))

theorem totalLength_buildFragment (h : ipv4MinHeaderSize ≤ hdr.length) :
    IPv4.totalLength (buildFragment hdr flags offset piece) = UInt16.ofNat (hdr.length + piece.length) := by
  rw [ipv4MinHeaderSize] at h
  rw [IPv4.totalLength, buildFragment_eq, IPv4.uint16At_sealHeader _ _ (by omega),
    IPv4.setFlagsFragmentOffset, uint16At_blit_ne (by rw [length_bytes16]; omega), IPv4.setTotalLength,
    uint16At_blit_self _ (by rw [List.length_append]; omega), List.length_append]

/-- Flags and offset share a field. -/
theorem uint16At_buildFragment (h : ipv4MinHeaderSize ≤ hdr.length) (hflags : flags.toNat < 8)
    (hoff : offset < 65536) :
    (uint16At (buildFragment hdr flags offset piece) 6).toNat = flags.toNat * 8192 + offset / 8 := by
  rw [ipv4MinHeaderSize] at h
  have hlen : (IPv4.setTotalLength (hdr ++ piece) (UInt16.ofNat (hdr ++ piece).length)).length
      = (hdr ++ piece).length := length_blit _ (by rw [List.length_append]; omega)
  have hlow : (UInt16.ofNat (offset / 8) &&& 0x1fff).toNat = offset / 8 := by
    rw [UInt16.toNat_and, UInt16.toNat_ofNat', Nat.mod_eq_of_lt (by omega)]
    exact (Nat.and_two_pow_sub_one_eq_mod _ 13).trans (Nat.mod_eq_of_lt (by omega))
  rw [buildFragment_eq, IPv4.uint16At_sealHeader _ _ (by omega), IPv4.setFlagsFragmentOffset,
    uint16At_blit_self _ (by rw [hlen, List.length_append]; omega), UInt16.toNat_or, hlow,
    UInt16.toNat_shiftLeft, UInt8.toNat_toUInt16]
  exact toNat_shift_or (by omega : offset / 8 < 2 ^ 13) (by omega : flags.toNat * 2 ^ 13 < 2 ^ 16)

theorem fragmentOffset_buildFragment (h : ipv4MinHeaderSize ≤ hdr.length) (hflags : flags.toNat < 8)
    (hoff : offset < 65536) :
    (IPv4.fragmentOffset (buildFragment hdr flags offset piece)).toNat = offset / 8 := by
  rw [IPv4.fragmentOffset, UInt16.toNat_and, uint16At_buildFragment h hflags hoff]
  exact (Nat.and_two_pow_sub_one_eq_mod _ 13).trans (by omega)

theorem flags_buildFragment (h : ipv4MinHeaderSize ≤ hdr.length) (hflags : flags.toNat < 8)
    (hoff : offset < 65536) : IPv4.flags (buildFragment hdr flags offset piece) = flags := by
  have hfield := @uint16At_buildFragment hdr piece flags offset h hflags hoff
  rw [toNat_uint16At] at hfield
  have hlow := ((buildFragment hdr flags offset piece).getD (6 + 1) 0).toNat_lt
  rw [← UInt8.toNat_inj, IPv4.flags, UInt8.toNat_shiftRight]
  refine (Nat.shiftRight_eq_div_pow _ 5).trans ?_
  omega

/-- The key of the packets with this header. -/
def headerKey (hdr : List UInt8) : FragmentKey where
  src := IPv4.sourceAddress hdr
  dst := IPv4.destinationAddress hdr
  id := IPv4.id hdr
  proto := IPv4.protocol hdr

theorem headerKey_buildFragment (h : ipv4MinHeaderSize ≤ hdr.length) :
    headerKey ((buildFragment hdr flags offset piece).take hdr.length) = headerKey hdr := by
  rw [ipv4MinHeaderSize] at h
  have hget : ∀ j, j < 20 → (j < 2 ∨ 4 ≤ j ∧ j < 6 ∨ 8 ≤ j ∧ j < 10 ∨ 12 ≤ j) →
      ((buildFragment hdr flags offset piece).take hdr.length).getD j 0 = hdr.getD j 0 := by
    intro j hj hout
    rw [getD_take (by omega), getD_buildFragment _ _ _ (by omega) hout]
  simp only [headerKey, IPv4.sourceAddress, IPv4.destinationAddress, IPv4.id, IPv4.protocol, uint32At, uint16At]
  simp only [hget, Nat.reduceAdd, Nat.reduceLT, Nat.reduceLeDiff, and_self, and_true, true_and, or_true,
    or_false]

/-- The read loop takes a fragment apart into its header and its piece of the payload. -/
theorem parsePacket_buildFragment (h : Framed hdr) (hlen : hdr.length + piece.length ≤ 65535) :
    ∃ pb, parsePacket (buildFragment hdr flags offset piece) = some pb ∧
      pb.networkHeader = (buildFragment hdr flags offset piece).take hdr.length ∧ pb.data = piece := by
  have hhl := @headerLength_buildFragment hdr piece flags offset h
  have hl := length_buildFragment h.1 flags offset piece
  have htotal : (IPv4.totalLength (buildFragment hdr flags offset piece)).toNat = hdr.length + piece.length := by
    rw [totalLength_buildFragment h.1, UInt16.toNat_ofNat']
    exact Nat.mod_eq_of_lt (by omega)
  have hsum := headerChecksum_buildFragment h flags offset piece
  have hall : (buildFragment hdr flags offset piece).take (hdr.length + piece.length)
      = buildFragment hdr flags offset piece := List.take_of_length_le (le_of_eq hl)
  have hmin := h.1
  rw [headerChecksum, hhl] at hsum
  simp only [parsePacket, hhl, htotal, hall, hl, hsum]
  rw [if_neg (by omega), dif_neg (by omega), dif_neg (by omega), if_neg (by simp)]
  exact ⟨_, rfl, rfl, drop_buildFragment h.1⟩

end

/-! ### Consecutive pieces -/

/-- The fragments carry `payload`, which starts at `off` in its datagram, in consecutive pieces behind
    copies of the header. All but the last say that more follow and have whole groups of eight bytes. -/
def Tiles (hdr : List UInt8) : ℕ → List UInt8 → List (List UInt8) → Prop
  | _, payload, [] => payload = []
  | off, payload, frag :: rest => ∃ piece tail, payload = piece ++ tail ∧ piece ≠ [] ∧
      frag = buildFragment hdr (if rest = [] then 0 else ipv4FlagMoreFragments) off piece ∧
      (rest ≠ [] → piece.length % 8 = 0) ∧ Tiles hdr (off + piece.length) tail rest

theorem fragmentLoop_eq_nil {hdr payload : List UInt8} {base : UInt8} {maxPayload fuel off : ℕ} :
    fragmentLoop hdr base maxPayload (fuel + 1) off payload = [] ↔ payload = [] := by
  rw [fragmentLoop]
  split_ifs with h <;> simp [h]

/-- What the loop of `fragmentIPv4Packet` makes of an unfragmented packet. -/
theorem tiles_fragmentLoop {hdr : List UInt8} {maxPayload : ℕ} (h8 : maxPayload % 8 = 0) (hpos : 0 < maxPayload) :
    ∀ {fuel off : ℕ} {payload : List UInt8}, payload.length < fuel →
      Tiles hdr off payload (fragmentLoop hdr 0 maxPayload fuel off payload)
  | fuel + 1, off, payload, hfuel => by
      rw [fragmentLoop]
      by_cases hnil : payload = []
      · rw [if_pos hnil]
        exact hnil
      · have hlen := List.length_pos_iff.2 hnil
        obtain ⟨k, rfl⟩ : ∃ k, fuel = k + 1 := ⟨fuel - 1, by omega⟩
        have ih := @tiles_fragmentLoop hdr maxPayload h8 hpos (k + 1) (off + maxPayload)
          (payload.drop maxPayload) (by rw [List.length_drop]; omega)
        have hlast : fragmentLoop hdr 0 maxPayload (k + 1) (off + maxPayload) (payload.drop maxPayload) = [] ↔
            ¬payload.length > maxPayload := by
          rw [fragmentLoop_eq_nil, List.drop_eq_nil_iff]
          omega
        rw [if_neg hnil]
        refine ⟨payload.take maxPayload, payload.drop maxPayload, (List.take_append_drop ..).symm, ?_, ?_, ?_, ?_⟩
        · rw [Ne, List.take_eq_nil_iff]
          rintro (h | h)
          · omega
          · exact hnil h
        · by_cases hmore : payload.length > maxPayload
          · simp [hlast, hmore]
          · simp [hlast, hmore]
        · intro hrest
          rw [Ne, hlast, not_not] at hrest
          rw [List.length_take, min_eq_left (by omega)]
          exact h8
        · by_cases hmore : payload.length > maxPayload
          · rw [List.length_take, min_eq_left (by omega)]
            exact ih
          · rw [hlast.2 hmore]
            exact List.drop_eq_nil_iff.2 (by omega)

/-- Fragments of this shape are read as packets that carry the payload. -/
theorem Tiles.packets {hdr : List UInt8} (h : Framed hdr) : ∀ {frags : List (List UInt8)} {off : ℕ}
    {payload : List UInt8}, Tiles hdr off payload frags → (frags ≠ [] → off % 8 = 0) →
    hdr.length + off + payload.length ≤ 65535 →
    ∃ l : List PacketBuffer, frags.map parsePacket = l.map some ∧
      Carries (headerKey hdr) (off + payload.length) off l ∧ l.flatMap PacketBuffer.data = payload
  | [], off, payload, ht, _, _ => by
      obtain rfl : payload = [] := ht
      exact ⟨[], rfl, rfl, rfl⟩
  | frag :: rest, off, payload, ⟨piece, tail, hsplit, hne, hfrag, h8, htail⟩, hoff, hmax => by
      have hmin := h.1
      rw [ipv4MinHeaderSize] at hmin
      subst hsplit
      rw [List.length_append] at hmax
      obtain ⟨l, hl, hcarries, hdata⟩ := Tiles.packets h htail (fun hrest => by
        have := h8 hrest
        have := hoff (List.cons_ne_nil _ _)
        omega) (by omega)
      obtain ⟨pb, hpb, hhdr, hpiece⟩ := @parsePacket_buildFragment hdr piece
        (if rest = [] then 0 else ipv4FlagMoreFragments) off h (by omega)
      have hempty : l = [] ↔ rest = [] := by
        rw [← @List.map_eq_nil_iff _ _ some, ← hl, List.map_eq_nil_iff]
      have hflags : (if rest = [] then 0 else ipv4FlagMoreFragments : UInt8).toNat < 8 := by
        split_ifs <;> decide
      have hstart := hoff (List.cons_ne_nil _ _)
      have hplace : offsetOf pb = off := by
        rw [offsetOf, hhdr, IPv4.fragmentOffset, uint16At_take (by omega), ← IPv4.fragmentOffset,
          fragmentOffset_buildFragment h.1 hflags (by omega)]
        omega
      refine ⟨pb :: l, ?_, ⟨?_, hplace, ?_, ?_, ?_, ?_⟩, ?_⟩
      · rw [List.map_cons, List.map_cons, hl, hfrag, hpb]
      · rw [← @headerKey_buildFragment hdr piece (if rest = [] then 0 else ipv4FlagMoreFragments) off h.1, ← hhdr]
        rfl
      · rw [hpiece]
        exact hne
      · rw [hhdr, IPv4.more, IPv4.flags, getD_take (by omega), ← IPv4.flags,
          flags_buildFragment h.1 hflags (by omega)]
        by_cases hrest : rest = []
        · rw [if_pos hrest, hempty.2 hrest]
          rfl
        · rw [if_neg hrest]
          cases l with
          | nil => exact absurd (hempty.1 rfl) hrest
          | cons => rfl
      · intro hl'
        rw [hpiece]
        exact h8 fun hrest => hl' (hempty.2 hrest)
      · rw [PacketBuffer.stop, hplace, hpiece, List.length_append, ← Nat.add_assoc]
        exact hcarries
      · rw [List.flatMap_cons, hpiece, hdata]

/-- The bytes behind the header of a packet. -/
def payloadLength (raw : List UInt8) : ℕ := raw.length - IPv4.headerLength raw

theorem payloadLength_buildFragment {hdr : List UInt8} (h : Framed hdr) (flags : UInt8) (offset : ℕ)
    (piece : List UInt8) : payloadLength (buildFragment hdr flags offset piece) = piece.length := by
  rw [payloadLength, headerLength_buildFragment h, length_buildFragment h.1, Nat.add_sub_cancel_left]

/-- A fragment says where it starts, behind the pieces of those before it, and whether others follow. -/
theorem Tiles.split {hdr : List UInt8} (h : Framed hdr) : ∀ {pre post : List (List UInt8)} {frag : List UInt8}
    {off : ℕ} {payload : List UInt8}, Tiles hdr off payload (pre ++ frag :: post) → off % 8 = 0 →
    hdr.length + off + payload.length ≤ 65535 →
    (IPv4.fragmentOffset frag).toNat * 8 = off + (pre.map payloadLength).sum ∧
      IPv4.more frag = !post.isEmpty ∧ (post ≠ [] → payloadLength frag % 8 = 0)
  | [], post, frag, off, payload, ⟨piece, tail, hsplit, _, hfrag, h8, _⟩, hoff, hmax => by
      have hflags : (if post = [] then 0 else ipv4FlagMoreFragments : UInt8).toNat < 8 := by
        split_ifs <;> decide
      refine ⟨?_, ?_, ?_⟩
      · rw [hfrag, fragmentOffset_buildFragment h.1 hflags (by omega), List.map_nil, List.sum_nil]
        omega
      · rw [hfrag, IPv4.more, flags_buildFragment h.1 hflags (by omega)]
        cases post with
        | nil => rfl
        | cons => rw [if_neg (List.cons_ne_nil _ _)]; rfl
      · rw [hfrag, payloadLength_buildFragment h]
        exact h8
  | q :: pre, post, frag, off, payload, ⟨piece, tail, hsplit, _, hfrag, h8, htail⟩, hoff, hmax => by
      subst hsplit
      rw [List.length_append] at hmax
      have hpiece := h8 (by simp)
      obtain ⟨h1, h2⟩ := Tiles.split h htail (by omega) (by omega)
      refine ⟨?_, h2⟩
      rw [h1, hfrag, List.map_cons, List.sum_cons, payloadLength_buildFragment h, Nat.add_assoc]

theorem Tiles.mem {hdr : List UInt8} : ∀ {frags : List (List UInt8)} {off : ℕ} {payload frag : List UInt8},
    Tiles hdr off payload frags → frag ∈ frags →
    ∃ flags offset piece, frag = buildFragment hdr flags offset piece ∧ piece.length ≤ payload.length
  | f :: rest, off, payload, frag, ⟨piece, tail, hsplit, _, hf, _, htail⟩, hmem => by
      subst hsplit
      rw [List.length_append]
      rcases List.mem_cons.1 hmem with rfl | hmem
      · exact ⟨_, _, piece, hf, Nat.le_add_right ..⟩
      · obtain ⟨flags, offset, piece', h1, h2⟩ := Tiles.mem htail hmem
        exact ⟨flags, offset, piece', h1, by omega⟩

/-! ### The packet comes back -/

/-- A packet as `SendPacket` makes it, options allowed: not a fragment, its length and checksum filled
    in. -/
structure Original (pkt : List UInt8) : Prop where
  min : ipv4MinHeaderSize ≤ IPv4.headerLength pkt
  le : IPv4.headerLength pkt ≤ pkt.length
  length : (IPv4.totalLength pkt).toNat = pkt.length
  flags : IPv4.flags pkt = 0
  offset : IPv4.fragmentOffset pkt = 0
  checksum : uint16At pkt 10 = checksum ((IPv4.setChecksum pkt 0).take (IPv4.headerLength pkt)) 0

instance (pkt : List UInt8) : Decidable (Original pkt) :=
  decidable_of_iff (ipv4MinHeaderSize ≤ IPv4.headerLength pkt ∧ IPv4.headerLength pkt ≤ pkt.length ∧
    (IPv4.totalLength pkt).toNat = pkt.length ∧ IPv4.flags pkt = 0 ∧ IPv4.fragmentOffset pkt = 0 ∧
    uint16At pkt 10 = Header.checksum ((IPv4.setChecksum pkt 0).take (IPv4.headerLength pkt)) 0)
    ⟨fun ⟨h1, h2, h3, h4, h5, h6⟩ => ⟨h1, h2, h3, h4, h5, h6⟩,
      fun ⟨h1, h2, h3, h4, h5, h6⟩ => ⟨h1, h2, h3, h4, h5, h6⟩⟩

/-- The packet `assemble` computes the checksum of. -/
def cleared (raw : List UInt8) : List UInt8 := IPv4.setChecksum
  (IPv4.setFlagsFragmentOffset (IPv4.setTotalLength raw (UInt16.ofNat raw.length)) 0 0) 0

theorem finishHeader_cleared (n : ℕ) (raw : List UInt8) : FragmentSet.finishHeader n raw =
    IPv4.setChecksum (cleared raw) (checksum ((cleared raw).take n) 0) := rfl

theorem getD_cleared {raw : List UInt8} (h : ipv4MinHeaderSize ≤ raw.length) (j : ℕ) :
    (cleared raw).getD j 0 = if 10 ≤ j ∧ j < 12 then (bytes16 0).getD (j - 10) 0
      else if 6 ≤ j ∧ j < 8 then
        (bytes16 ((0 : UInt8).toUInt16 <<< 13 ||| ((0 : UInt16) &&& 0x1fff))).getD (j - 6) 0
      else if 2 ≤ j ∧ j < 4 then (bytes16 (UInt16.ofNat raw.length)).getD (j - 2) 0
      else raw.getD j 0 := by
  rw [ipv4MinHeaderSize] at h
  have h1 : (IPv4.setTotalLength raw (UInt16.ofNat raw.length)).length = raw.length := length_blit _ (by omega)
  have h2 : (IPv4.setFlagsFragmentOffset (IPv4.setTotalLength raw (UInt16.ofNat raw.length)) 0 0).length
      = raw.length := (length_blit _ (by omega)).trans h1
  rw [cleared, IPv4.setChecksum, getD_blit (by rw [length_bytes16]; omega), IPv4.setFlagsFragmentOffset,
    getD_blit (by rw [length_bytes16]; omega), IPv4.setTotalLength, getD_blit (by rw [length_bytes16]; omega)]
  rfl

theorem length_cleared {raw : List UInt8} (h : ipv4MinHeaderSize ≤ raw.length) :
    (cleared raw).length = raw.length := by
  rw [ipv4MinHeaderSize] at h
  have h1 : (IPv4.setTotalLength raw (UInt16.ofNat raw.length)).length = raw.length := length_blit _ (by omega)
  have h2 : (IPv4.setFlagsFragmentOffset (IPv4.setTotalLength raw (UInt16.ofNat raw.length)) 0 0).length
      = raw.length := (length_blit _ (by omega)).trans h1
  exact (length_blit _ (by omega)).trans h2

/-- `assemble` sets these fields, so what they held does not matter. -/
theorem finishHeader_congr {a b : List UInt8} {n : ℕ} (hlen : a.length = b.length)
    (hmin : ipv4MinHeaderSize ≤ b.length)
    (h : ∀ j, j < 2 ∨ 4 ≤ j ∧ j < 6 ∨ 8 ≤ j ∧ j < 10 ∨ 12 ≤ j → a.getD j 0 = b.getD j 0) :
    FragmentSet.finishHeader n a = FragmentSet.finishHeader n b := by
  have heq : cleared a = cleared b := by
    refine ext_getD (by rw [length_cleared (hlen ▸ hmin), length_cleared hmin, hlen]) fun j => ?_
    rw [getD_cleared (hlen ▸ hmin), getD_cleared hmin, hlen]
    split_ifs
    · rfl
    · rfl
    · rfl
    · exact h j (by omega)
  rw [finishHeader_cleared, finishHeader_cleared, heq]

/-- The fields of an unfragmented packet are what `assemble` sets them to. -/
theorem Original.finishHeader {pkt : List UInt8} (h : Original pkt) :
    FragmentSet.finishHeader (IPv4.headerLength pkt) pkt = pkt := by
  have hmin := h.min
  have hle := h.le
  rw [ipv4MinHeaderSize] at hmin
  have hlen : UInt16.ofNat pkt.length = uint16At pkt 2 := by
    rw [← h.length]
    exact UInt16.ofNat_toNat
  have hfrag : ((0 : UInt8).toUInt16 <<< 13 ||| ((0 : UInt16) &&& 0x1fff)) = uint16At pkt 6 := by
    have hflags := congrArg UInt8.toNat h.flags
    have hoff := congrArg UInt16.toNat h.offset
    rw [IPv4.flags, UInt8.toNat_shiftRight] at hflags
    rw [IPv4.fragmentOffset, UInt16.toNat_and] at hoff
    have h5 : (pkt.getD 6 0).toNat / 32 = 0 := (Nat.shiftRight_eq_div_pow _ 5).symm.trans hflags
    have h13 : (uint16At pkt 6).toNat % 8192 = 0 := (Nat.and_two_pow_sub_one_eq_mod _ 13).symm.trans hoff
    have hlow := (pkt.getD (6 + 1) 0).toNat_lt
    rw [toNat_uint16At] at h13
    rw [← UInt16.toNat_inj, toNat_uint16At]
    change 0 = _
    omega
  rw [finishHeader_eq, IPv4.setTotalLength, hlen, blit_uint16At (by omega), IPv4.setFlagsFragmentOffset, hfrag,
    blit_uint16At (by omega), IPv4.sealHeader, ← h.checksum, IPv4.setChecksum, IPv4.setChecksum,
    blit_blit (y := bytes16 (uint16At pkt 10)) (by simp) (by rw [length_bytes16]; omega), blit_uint16At (by omega)]

theorem Original.framed {pkt : List UInt8} (h : Original pkt) : Framed (pkt.take (IPv4.headerLength pkt)) :=
  framed_take h.min h.le

theorem Original.max {pkt : List UInt8} (h : Original pkt) : pkt.length ≤ 65535 := by
  have := (IPv4.totalLength pkt).toNat_lt
  rw [← h.length]
  omega

/-- An unfragmented packet is cut into consecutive pieces. -/
theorem Original.tiles {pkt : List UInt8} {mtu : ℤ} {frags : List (List UInt8)} (h : Original pkt)
    (hf : fragmentIPv4Packet pkt mtu = some frags) (hmany : 1 < frags.length) :
    Tiles (pkt.take (IPv4.headerLength pkt)) 0 (pkt.drop (IPv4.headerLength pkt)) frags := by
  rw [fragmentIPv4Packet] at hf
  dsimp only at hf
  split_ifs at hf with hshort hbad hfits hdf hmax
  · cases hf
    simp at hmany
  · cases hf
    rw [h.flags, h.length, List.take_length]
    exact tiles_fragmentLoop (Nat.mul_mod_left ..) (Nat.pos_of_ne_zero hmax) (Nat.lt_succ_self _)

/-- Behind the header of its first fragment the payload becomes the packet again. -/
theorem Original.restored {pkt : List UInt8} (h : Original pkt) (flags : UInt8) (piece : List UInt8) :
    FragmentSet.finishHeader (IPv4.headerLength pkt)
      ((buildFragment (pkt.take (IPv4.headerLength pkt)) flags 0 piece).take (IPv4.headerLength pkt) ++
        pkt.drop (IPv4.headerLength pkt)) = pkt := by
  have hle := h.le
  have hhdr : (pkt.take (IPv4.headerLength pkt)).length = IPv4.headerLength pkt := by
    rw [List.length_take, min_eq_left hle]
  have hlen : ((buildFragment (pkt.take (IPv4.headerLength pkt)) flags 0 piece).take
      (IPv4.headerLength pkt)).length = IPv4.headerLength pkt := by
    rw [List.length_take, length_buildFragment h.framed.1, hhdr]
    omega
  refine Eq.trans (finishHeader_congr ?_ (h.min.trans hle) fun j hj => ?_) h.finishHeader
  · rw [List.length_append, hlen, List.length_drop]
    omega
  · by_cases hin : j < IPv4.headerLength pkt
    · rw [getD_append (by omega), getD_take hin, getD_buildFragment _ _ _ (by omega) hj, getD_take hin]
    · obtain ⟨k, rfl⟩ : ∃ k, j = IPv4.headerLength pkt + k := ⟨j - IPv4.headerLength pkt, by omega⟩
      rw [← getD_drop, List.drop_left' hlen, getD_drop]

/-- The datagram whose fragments these are. -/
theorem Original.datagram {pkt : List UInt8} {frags : List (List UInt8)} (h : Original pkt)
    (ht : Tiles (pkt.take (IPv4.headerLength pkt)) 0 (pkt.drop (IPv4.headerLength pkt)) frags)
    (hmany : 1 < frags.length) : ∃ d : Datagram, frags.map parsePacket = d.packets.map some ∧
      d.first.networkHeader.length = IPv4.headerLength pkt ∧ d.bytes = pkt := by
  have hle := h.le
  have hmin := h.min
  have hmax := h.max
  rw [ipv4MinHeaderSize] at hmin
  have hhdr : (pkt.take (IPv4.headerLength pkt)).length = IPv4.headerLength pkt := by
    rw [List.length_take, min_eq_left hle]
  have hdrop : (pkt.drop (IPv4.headerLength pkt)).length = pkt.length - IPv4.headerLength pkt := List.length_drop
  obtain ⟨l, hl, hcarries, hdata⟩ := ht.packets h.framed (fun _ => rfl) (by omega)
  obtain ⟨f, g, rest, rfl⟩ : ∃ f g rest, frags = f :: g :: rest := by
    rcases frags with _ | ⟨f, _ | ⟨g, rest⟩⟩
    · simp at hmany
    · simp at hmany
    · exact ⟨f, g, rest, rfl⟩
  obtain ⟨p, q, l, rfl⟩ : ∃ p q l', l = p :: q :: l' := by
    rcases l with _ | ⟨p, _ | ⟨q, l⟩⟩
    · simp at hl
    · simp at hl
    · exact ⟨p, q, l, rfl⟩
  obtain ⟨piece, tail, hsplit, -, hf, -, -⟩ := ht
  have hpiece : piece.length ≤ pkt.length - IPv4.headerLength pkt := by
    rw [← hdrop, hsplit, List.length_append]
    exact Nat.le_add_right ..
  obtain ⟨pb, hpb, hph, -⟩ := @parsePacket_buildFragment _ piece
    (if g :: rest = [] then 0 else ipv4FlagMoreFragments) 0 h.framed (by omega)
  obtain rfl : p = pb := by
    rw [List.map_cons, List.map_cons, hf, hpb] at hl
    exact (Option.some_inj.1 (List.cons_eq_cons.1 hl).1).symm
  have hplen : p.networkHeader.length = IPv4.headerLength pkt := by
    rw [hph, List.length_take, length_buildFragment h.framed.1, hhdr]
    omega
  refine ⟨⟨_, p, q :: l, List.cons_ne_nil _ _, _, hcarries, ?_⟩, hl, hplen, ?_⟩
  · rw [hdrop, ipv4MaxPayloadSize, ipv4MinHeaderSize]
    omega
  · change FragmentSet.finishHeader p.networkHeader.length (p.networkHeader ++
      (p :: q :: l).flatMap PacketBuffer.data) = pkt
    rw [hdata, hplen, hph, hhdr]
    exact h.restored _ piece

/-- The read loop takes an unfragmented packet apart as it is. -/
theorem Original.parsed {pkt : List UInt8} (h : Original pkt) : ∃ pb, parsePacket pkt = some pb ∧
    pb.networkHeader = pkt.take (IPv4.headerLength pkt) ∧ pb.data = pkt.drop (IPv4.headerLength pkt) := by
  have hle := h.le
  have hmin := h.min
  have hmax := headerLength_le pkt
  have hsum : Header.checksum (pkt.take (IPv4.headerLength pkt)) 0 = 0 := by
    have hfinish := @checksum_finishHeader pkt (IPv4.headerLength pkt) hmin hle (by omega)
    rwa [h.finishHeader] at hfinish
  simp only [parsePacket, h.length, List.take_length, hsum]
  rw [if_neg (by omega), dif_neg (by omega), dif_neg (by omega), if_neg (by simp)]
  exact ⟨_, rfl, rfl, rfl⟩

/-- A packet that is too long for the channel comes in two fragments or more, if eight bytes of
    payload fit behind the header. -/
theorem Original.fragments {pkt : List UInt8} {mtu : ℤ} (h : Original pkt)
    (hmtu : (IPv4.headerLength pkt : ℤ) + 8 ≤ mtu) (hlong : mtu < pkt.length) :
    ∃ frags, fragmentIPv4Packet pkt mtu = some frags ∧ 1 < frags.length := by
  have hle := h.le
  have hmin := h.min
  have hlen := h.length
  rw [ipv4MinHeaderSize] at hmin
  have hdrop : (pkt.drop (IPv4.headerLength pkt)).length = pkt.length - IPv4.headerLength pkt := List.length_drop
  dsimp only [fragmentIPv4Packet]
  rw [if_neg (by rw [ipv4MinHeaderSize]; omega), if_neg (by rw [ipv4MinHeaderSize]; omega), if_neg (by omega),
    if_neg (by rw [h.flags]; rintro (hdf | hsmall); exacts [hdf (by decide), by omega]), if_neg (by omega)]
  refine ⟨_, rfl, ?_⟩
  rw [h.length, List.take_length]
  obtain ⟨k, hk⟩ : ∃ k, (pkt.drop (IPv4.headerLength pkt)).length = k + 1 :=
    ⟨pkt.length - IPv4.headerLength pkt - 1, by omega⟩
  rw [hk, fragmentLoop, if_neg (by rintro hnil; rw [hnil] at hk; cases hk), List.length_cons]
  have hrest : fragmentLoop (pkt.take (IPv4.headerLength pkt)) (IPv4.flags pkt &&& ~~~ipv4FlagMoreFragments)
      ((mtu.toNat - IPv4.headerLength pkt) / 8 * 8) (k + 1) (0 + (mtu.toNat - IPv4.headerLength pkt) / 8 * 8)
      ((pkt.drop (IPv4.headerLength pkt)).drop ((mtu.toNat - IPv4.headerLength pkt) / 8 * 8)) ≠ [] := by
    rw [Ne, fragmentLoop_eq_nil, List.drop_eq_nil_iff]
    omega
  have := List.length_pos_iff.2 hrest
  omega

/-! ### Round trip -/

/-- CORRECT: the fragments of a packet fit, their headers are right, all but the last say that more
    follow and carry whole groups of eight bytes, each starts where those before it end, and the read
    loop and an empty reassembler make the packet of them again, in whatever order they arrive within
    the reassembly timeout. -/
theorem fragments_round_trip {pkt : List UInt8} {mtu : ℤ} {frags : List (List UInt8)} (h : Original pkt)
    (hf : fragmentIPv4Packet pkt mtu = some frags) (hmany : 1 < frags.length) :
    (∀ frag ∈ frags, (frag.length : ℤ) ≤ mtu ∧ (IPv4.totalLength frag).toNat = frag.length ∧
      headerChecksum frag = 0) ∧
    (∀ pre frag post, frags = pre ++ frag :: post →
      (IPv4.fragmentOffset frag).toNat * 8 = (pre.map payloadLength).sum ∧
      IPv4.more frag = !post.isEmpty ∧ (post ≠ [] → payloadLength frag % 8 = 0)) ∧
    (∀ frag ∈ frags, (parsePacket frag).isSome) ∧
    ∀ (l : List (PacketBuffer × ℤ)) (t : ℤ), (l.map fun e => some e.1).Perm (frags.map parsePacket) →
      Timely t l → ∃ r', newIPv4Reassembler.feed l = some (r', [pkt]) := by
  have ht := h.tiles hf hmany
  have hle := h.le
  have hmax := h.max
  have hhdr : (pkt.take (IPv4.headerLength pkt)).length = IPv4.headerLength pkt := by
    rw [List.length_take, min_eq_left hle]
  have hdrop : (pkt.drop (IPv4.headerLength pkt)).length = pkt.length - IPv4.headerLength pkt := List.length_drop
  obtain ⟨d, hpackets, -, hbytes⟩ := h.datagram ht hmany
  refine ⟨fun frag hmem => ⟨length_fragment_le hf frag hmem, ?_, ?_⟩, ?_, fun frag hmem => ?_, ?_⟩
  · obtain ⟨flags, offset, piece, rfl, hpiece⟩ := ht.mem hmem
    rw [totalLength_buildFragment h.framed.1, length_buildFragment h.framed.1, UInt16.toNat_ofNat']
    exact Nat.mod_eq_of_lt (by omega)
  · obtain ⟨flags, offset, piece, rfl, -⟩ := ht.mem hmem
    exact headerChecksum_buildFragment h.framed flags offset piece
  · rintro pre frag post rfl
    have hsplit := ht.split h.framed rfl (by omega)
    rwa [Nat.zero_add] at hsplit
  · have hmem' : parsePacket frag ∈ frags.map parsePacket := List.mem_map_of_mem hmem
    rw [hpackets] at hmem'
    obtain ⟨pb, -, hpb⟩ := List.mem_map.1 hmem'
    rw [← hpb]
    rfl
  · intro l t hperm htime
    have hperm' : (l.map Prod.fst).Perm d.packets := by
      have hmap : (l.map fun e => some e.1) = (l.map Prod.fst).map some := by simp
      rw [hpackets, hmap] at hperm
      exact (List.map_perm_map_iff (Option.some_injective _)).1 hperm
    rw [← hbytes]
    exact d.feed_packets hperm' htime

/-- A packet with four bytes of options and twenty of payload. -/
def optionsPacket : List UInt8 := FragmentSet.finishHeader 24
  ([0x46, 0, 0, 0, 0x12, 0x34, 0, 0, 64, 17, 0, 0, 10, 0, 0, 1, 10, 0, 0, 2, 1, 1, 1, 0] ++
    (List.range 20).map UInt8.ofNat)

theorem fragments_round_trip_sample : ∃ frags p q, fragmentIPv4Packet optionsPacket 40 = some frags ∧
    frags.map parsePacket = [some p, some q] ∧
    ∃ r', newIPv4Reassembler.feed [(q, 0), (p, 1)] = some (r', [optionsPacket]) := by
  obtain ⟨frags, hf, p, q, hpq⟩ : ∃ frags, fragmentIPv4Packet optionsPacket 40 = some frags ∧
      ∃ p q, frags.map parsePacket = [some p, some q] := by
    refine ⟨(fragmentIPv4Packet optionsPacket 40).getD [], by decide +kernel, ?_⟩
    refine ⟨((((fragmentIPv4Packet optionsPacket 40).getD []).map parsePacket).getD 0 none).get (by decide +kernel),
      ((((fragmentIPv4Packet optionsPacket 40).getD []).map parsePacket).getD 1 none).get (by decide +kernel), ?_⟩
    decide +kernel
  have hlen : 1 < frags.length := by
    have := congrArg List.length hpq
    rw [List.length_map] at this
    simp [this]
  have h := fragments_round_trip (by decide +kernel : Original optionsPacket) hf hlen
  refine ⟨frags, p, q, hf, hpq, h.2.2.2 [(q, 0), (p, 1)] 0 ?_ ?_⟩
  · rw [hpq]
    exact List.Perm.swap ..
  · intro e he
    simp only [List.mem_cons, List.not_mem_nil, or_false] at he
    rcases he with rfl | rfl
    · exact (by decide : (0 : ℤ) ≤ 0 ∧ 0 ≤ 0 + ipv4ReassemblyTimeout)
    · exact (by decide : (0 : ℤ) ≤ 1 ∧ 1 ≤ 0 + ipv4ReassemblyTimeout)

end Netstack.Stack
