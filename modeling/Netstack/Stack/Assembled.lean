import Netstack.Header.Checksum
import Netstack.Stack.Feed

/-! The packet `assemble` returns: its length, its flags and offset, and its checksum.

    The size check on arrival counts 20 bytes for the header, while `assemble` puts the header of
    the first fragment in front, which may be longer, and stores the sum in 16 bits. -/

namespace Netstack.Stack
open Netstack.Copy Netstack.Header Netstack.Trace Reassembler

/-! ### The rewritten header -/

section
variable {raw : List UInt8} {n j : ℕ}

theorem finishHeader_eq (n : ℕ) (raw : List UInt8) : FragmentSet.finishHeader n raw =
    IPv4.sealHeader (IPv4.setFlagsFragmentOffset
      (IPv4.setTotalLength raw (UInt16.ofNat raw.length)) 0 0) n := rfl

theorem length_finishHeader (h : ipv4MinHeaderSize ≤ raw.length) :
    (FragmentSet.finishHeader n raw).length = raw.length := by
  rw [ipv4MinHeaderSize] at h
  have hset : ∀ (b : List UInt8) (i : ℕ) (v : UInt16), b.length = raw.length → i ≤ 10 →
      (blit b i (bytes16 v)).length = raw.length := fun b i v hb hi => (length_blit _ (by omega)).trans hb
  have hlen : (IPv4.setFlagsFragmentOffset (IPv4.setTotalLength raw (UInt16.ofNat raw.length)) 0 0).length
      = raw.length := hset _ 6 _ (hset _ 2 _ rfl (by omega)) (by omega)
  rw [finishHeader_eq, IPv4.length_sealHeader (by omega), hlen]

/-- `assemble` rewrites the length, the flags and offset and the checksum; the other bytes stay. -/
theorem getD_finishHeader (n : ℕ) (raw : List UInt8)
    (hj : j < 2 ∨ 4 ≤ j ∧ j < 6 ∨ 8 ≤ j ∧ j < 10 ∨ 12 ≤ j) :
    (FragmentSet.finishHeader n raw).getD j 0 = raw.getD j 0 := by
  rw [finishHeader_eq, IPv4.getD_sealHeader _ _ (by omega), IPv4.setFlagsFragmentOffset,
    getD_blit_ne (by rw [length_bytes16]; omega), IPv4.setTotalLength,
    getD_blit_ne (by rw [length_bytes16]; omega)]

theorem totalLength_finishHeader (h : ipv4MinHeaderSize ≤ raw.length) :
    IPv4.totalLength (FragmentSet.finishHeader n raw) = UInt16.ofNat raw.length := by
  rw [ipv4MinHeaderSize] at h
  rw [IPv4.totalLength, finishHeader_eq, IPv4.uint16At_sealHeader _ _ (by omega),
    IPv4.setFlagsFragmentOffset, uint16At_blit_ne (by rw [length_bytes16]; omega), IPv4.setTotalLength,
    uint16At_blit_self _ (by omega)]

/-- No flag is left, and the offset is zero. -/
theorem flags_finishHeader (h : ipv4MinHeaderSize ≤ raw.length) :
    IPv4.flags (FragmentSet.finishHeader n raw) = 0 ∧
    IPv4.fragmentOffset (FragmentSet.finishHeader n raw) = 0 := by
  rw [ipv4MinHeaderSize] at h
  have hlen : (IPv4.setTotalLength raw (UInt16.ofNat raw.length)).length = raw.length :=
    length_blit _ (by omega)
  have hzero : (bytes16 ((0 : UInt8).toUInt16 <<< 13 ||| ((0 : UInt16) &&& 0x1fff))) = [0, 0] := rfl
  constructor
  · rw [IPv4.flags, finishHeader_eq, IPv4.getD_sealHeader _ _ (by omega), IPv4.setFlagsFragmentOffset, hzero]
    have h6 := @getD_blit_self (IPv4.setTotalLength raw (UInt16.ofNat raw.length)) [0, 0] 6 0
      (by rw [hlen]; exact (by omega : 6 + 2 ≤ raw.length)) (by decide)
    rw [h6]
    rfl
  · rw [IPv4.fragmentOffset, finishHeader_eq, IPv4.uint16At_sealHeader _ _ (by omega),
      IPv4.setFlagsFragmentOffset, uint16At_blit_self _ (by rw [hlen]; omega)]
    rfl

theorem checksum_finishHeader (hn : ipv4MinHeaderSize ≤ n) (hlen : n ≤ raw.length) (hmax : n ≤ 65535) :
    checksum ((FragmentSet.finishHeader n raw).take n) 0 = 0 := by
  rw [ipv4MinHeaderSize] at hn
  have hset : ∀ (b : List UInt8) (i : ℕ) (v : UInt16), n ≤ b.length → i ≤ 10 →
      n ≤ (blit b i (bytes16 v)).length := fun b i v hb hi => by rwa [length_blit _ (by omega)]
  rw [finishHeader_eq]
  exact IPv4.checksum_sealHeader (by omega) (hset _ 6 _ (hset _ 2 _ hlen (by omega)) (by omega)) hmax

end

/-! ### What `assemble` returns -/

/-- Copying behind index `n` leaves what is in front of it. -/
theorem copyAll_take {hdrLen n : ℕ} : ∀ {l : List Fragment} {raw raw' : List UInt8},
    (∀ frag ∈ l, n ≤ hdrLen + frag.offset) → FragmentSet.copyAll hdrLen l raw = some raw' →
    raw'.take n = raw.take n ∧ raw'.length = raw.length
  | [], raw, raw', _, h => by
      cases h
      exact ⟨rfl, rfl⟩
  | frag :: l, raw, raw', hl, h => by
      rw [FragmentSet.copyAll] at h
      split_ifs at h with hin
      obtain ⟨ht, hlen⟩ := copyAll_take (fun f hf => hl f (List.mem_cons_of_mem _ hf)) h
      rw [length_blit _ (by omega)] at hlen
      rw [take_blit _ (hl frag (List.mem_cons_self ..)) (by omega)] at ht
      exact ⟨ht, hlen⟩

/-- The buffer of `assemble` with the header copied into it. -/
theorem blit_header (hdr : List UInt8) (total : ℕ) :
    blit (List.replicate (hdr.length + total) (0 : UInt8)) 0 hdr = hdr ++ List.replicate total 0 := by
  have hblit := blit_append (a := []) (b := List.replicate (hdr.length + total) (0 : UInt8)) hdr (by simp)
  rw [List.nil_append, List.length_nil, List.nil_append, List.drop_replicate,
    Nat.add_sub_cancel_left] at hblit
  exact hblit

/-- `assemble` copies the fragments behind the header and rewrites that. -/
theorem assemble_eq {set : FragmentSet} {bytes hdr : List UInt8} (hhdr : set.header = some hdr)
    (hb : set.assemble = some bytes) : ∃ raw, FragmentSet.copyAll hdr.length set.fragments
      (hdr ++ List.replicate set.totalLen.toNat 0) = some raw ∧
    bytes = FragmentSet.finishHeader hdr.length raw ∧ raw.take hdr.length = hdr ∧
    raw.length = hdr.length + set.totalLen.toNat := by
  dsimp only [FragmentSet.assemble] at hb
  rw [hhdr, Option.getD_some, blit_header] at hb
  obtain ⟨raw, hcopy, rfl⟩ := Option.map_eq_some_iff.1 hb
  obtain ⟨htake, hlen⟩ := copyAll_take (n := hdr.length) (fun _ _ => Nat.le_add_right ..) hcopy
  rw [List.take_left] at htake
  rw [List.length_append, List.length_replicate] at hlen
  exact ⟨raw, hcopy, rfl, htake, hlen⟩

/-! ### Legal headers -/

/-- The header view the read loop makes: 20 to 60 bytes, as the first byte has it. -/
def Framed (hdr : List UInt8) : Prop :=
  ipv4MinHeaderSize ≤ hdr.length ∧ hdr.length = IPv4.headerLength hdr

instance (hdr : List UInt8) : Decidable (Framed hdr) := inferInstanceAs (Decidable (_ ∧ _))

theorem headerLength_le (hdr : List UInt8) : IPv4.headerLength hdr ≤ 60 := by
  have h : (hdr.getD 0 0 &&& 0x0f).toNat ≤ 15 := by
    rw [UInt8.toNat_and]
    exact Nat.and_le_right
  rw [IPv4.headerLength]
  omega

theorem headerLength_congr {a b : List UInt8} (h : a.getD 0 0 = b.getD 0 0) :
    IPv4.headerLength a = IPv4.headerLength b := by
  rw [IPv4.headerLength, h, IPv4.headerLength]

/-- The header view cut off a packet. -/
theorem framed_take {raw : List UInt8} (hmin : ipv4MinHeaderSize ≤ IPv4.headerLength raw)
    (hlen : IPv4.headerLength raw ≤ raw.length) : Framed (raw.take (IPv4.headerLength raw)) := by
  rw [Framed, List.length_take, min_eq_left hlen]
  rw [ipv4MinHeaderSize] at hmin
  exact ⟨hmin, headerLength_congr (getD_take (by omega)).symm⟩

theorem Framed.le {hdr : List UInt8} (h : Framed hdr) : hdr.length ≤ 60 := h.2 ▸ headerLength_le hdr

/-- Every arriving packet has a legal header. -/
def Legal (_ : Reassembler) (a : Arrival) : Prop := Framed a.pb.networkHeader

/-- A set's header, if there is one, is legal. -/
def FragmentSet.HeaderFramed (set : FragmentSet) : Prop := ∀ h ∈ set.header, Framed h

theorem FragmentSet.HeaderFramed.addFragment {set : FragmentSet} {pb : PacketBuffer}
    (h : set.HeaderFramed) (hpb : Framed pb.networkHeader) :
    (Reassembler.addFragment set pb).HeaderFramed := by
  intro hdr hhdr
  dsimp only [Reassembler.addFragment] at hhdr
  split_ifs at hhdr
  · cases hhdr
    exact hpb
  · exact h hdr hhdr

theorem kept_framed : Kept (fun pb _ => Framed pb.networkHeader) FragmentSet.HeaderFramed where
  first {_ now} hP _ := by
    have hfresh : (freshSet now).HeaderFramed := fun _ h => by cases h
    exact hfresh.addFragment hP
  add hP h _ _ := h.addFragment hP
  sorted h := h

/-- In a run with legal headers all stored headers are legal. -/
theorem framed_reach {r : Reassembler} (hr : Reach (· = newIPv4Reassembler) step Legal r) :
    ∀ e ∈ r.sets, e.2.HeaderFramed := by
  refine @Reach.invariant _ _ _ _ _ (fun r => ∀ e ∈ r.sets, e.2.HeaderFramed) (fun s hs => ?_)
    (fun s a s' hs hok hstep => ?_) r hr
  · subst hs
    intro e he
    cases he
  · unfold Reassembler.step at hstep
    split_ifs at hstep with hh
    obtain ⟨⟨r', out⟩, hproc, rfl⟩ := Option.map_eq_some_iff.1 hstep
    exact @Kept.process { s with sets := a.order } r' a.pb a.now out _ _ kept_framed hok
      (fun e he => hs e (hh.2.mem_iff.1 he)) hproc

/-! ### The returned packet -/

/-- A packet with a header of `n` bytes whose length, flags, offset and checksum are right. -/
structure WellFormed (n : ℕ) (raw : List UInt8) : Prop where
  length : (IPv4.totalLength raw).toNat = raw.length
  more : IPv4.more raw = false
  offset : IPv4.fragmentOffset raw = 0
  checksum : checksum (raw.take n) 0 = 0

instance (n : ℕ) (raw : List UInt8) : Decidable (WellFormed n raw) :=
  decidable_of_iff ((IPv4.totalLength raw).toNat = raw.length ∧ IPv4.more raw = false ∧
    IPv4.fragmentOffset raw = 0 ∧ Header.checksum (raw.take n) 0 = 0)
    ⟨fun ⟨h1, h2, h3, h4⟩ => ⟨h1, h2, h3, h4⟩, fun ⟨h1, h2, h3, h4⟩ => ⟨h1, h2, h3, h4⟩⟩

/-- The set of an arriving packet, once the packet is in it. -/
def completed (r : Reassembler) (a : Arrival) : FragmentSet :=
  addFragment (({ r with sets := a.order }.evictExpired a.now).pending a.pb a.now) a.pb

/-- The length of the datagram in a set: that of the header and the announced one of the payload. -/
def FragmentSet.datagramLen (set : FragmentSet) : ℕ := (set.header.getD []).length + set.totalLen.toNat

/-- A returned packet is well formed exactly if its length fits 16 bits. -/
theorem wellFormed_assemble {set : FragmentSet} {hdr raw : List UInt8} (hhdr : set.header = some hdr)
    (hf : Framed hdr) (ha : set.assemble = some raw) :
    WellFormed hdr.length raw ↔ set.datagramLen ≤ 65535 := by
  obtain ⟨raw, -, rfl, -, hlen⟩ := assemble_eq hhdr ha
  have hle := hf.le
  have hmin := hf.1
  rw [ipv4MinHeaderSize] at hmin
  have hraw : ipv4MinHeaderSize ≤ raw.length := by rw [ipv4MinHeaderSize]; omega
  rw [FragmentSet.datagramLen, hhdr, Option.getD_some, ← hlen]
  constructor
  · intro h
    have hlength := h.length
    rw [totalLength_finishHeader hraw, length_finishHeader hraw, UInt16.toNat_ofNat'] at hlength
    have := Nat.mod_lt raw.length (by decide : 2 ^ 16 > 0)
    omega
  · intro h
    refine ⟨?_, ?_, (flags_finishHeader hraw).2, checksum_finishHeader hf.1 (by omega) (by omega)⟩
    · rw [totalLength_finishHeader hraw, length_finishHeader hraw, UInt16.toNat_ofNat']
      exact Nat.mod_eq_of_lt (by omega)
    · rw [IPv4.more, (flags_finishHeader hraw).1]
      rfl

/-- CORRECT: in every run with legal headers, whenever a call of `process` returns a packet, its
    length field, flags, offset and checksum are right exactly if the header of its first fragment
    and its payload are at most 65535 bytes together. -/
theorem returned_wellFormed_iff {r r' : Reassembler} {a : Arrival} {raw : List UInt8}
    (hr : Reach (· = newIPv4Reassembler) step Legal r) (hh : handed r a) (hl : Legal r a)
    (ha : r.arrive a = some (r', some raw)) :
    WellFormed ((completed r a).header.getD []).length raw ↔ (completed r a).datagramLen ≤ 65535 := by
  have hsets : ∀ e ∈ a.order, e.2.HeaderFramed := fun e he => framed_reach hr e (hh.2.mem_iff.1 he)
  have hout := process_out ha
  have hin := @Kept.intake { r with sets := a.order } a.pb a.now _ _ kept_framed hl hsets
  cases hi : { r with sets := a.order }.intake a.pb a.now with
  | dropped r₁ =>
    rw [hi] at hout
    cases hout
  | stored r₁ key set =>
    rw [hi] at hout hin
    have hset : set = completed r a := (intake_stored hi).1
    subst hset
    obtain ⟨hready, -, hraw⟩ | ⟨-, hnone⟩ := hout
    · rw [ready, Bool.and_eq_true, Bool.and_eq_true] at hready
      obtain ⟨hdr, hhdr⟩ := Option.isSome_iff_exists.1 hready.1.2
      have h := @wellFormed_assemble (completed r a).sorted hdr raw hhdr (hin.2 hdr hhdr) hraw.symm
      rw [hhdr]
      exact h
    · cases hnone

theorem returned_wellFormed_sample : ∃ r' raw,
    Datagram.sampleState.arrive ⟨Datagram.sampleRest, 0, Datagram.sampleState.sets⟩ = some (r', some raw) ∧
      WellFormed 20 raw := by
  have h1 : newIPv4Reassembler.step ⟨Datagram.sample.first, 0, []⟩ = some Datagram.sampleState := by
    decide +kernel
  have hr : Reach (· = newIPv4Reassembler) step Legal Datagram.sampleState :=
    .next (.start rfl) (by unfold Legal; decide +kernel) h1
  have harr : ∃ r', Datagram.sampleState.arrive ⟨Datagram.sampleRest, 0, Datagram.sampleState.sets⟩
      = some (r', some Datagram.sample.bytes) := ⟨newIPv4Reassembler, by decide +kernel⟩
  obtain ⟨r', harr⟩ := harr
  have hiff := returned_wellFormed_iff hr (by decide +kernel) (by unfold Legal; decide +kernel) harr
  have hlen : ((completed Datagram.sampleState
      ⟨Datagram.sampleRest, 0, Datagram.sampleState.sets⟩).header.getD []).length = 20 := by
    decide +kernel
  rw [hlen] at hiff
  exact ⟨r', _, harr, hiff.2 (by decide +kernel)⟩

/-! ### A datagram that is too long for its length field -/

/-- A datagram in two fragments is returned with the second. -/
theorem Datagram.returned_with_second (d : Datagram) {q : PacketBuffer} (hrest : d.rest = [q])
    (hfirst : Framed d.first.networkHeader)
    (hfrag : ∀ pb ∈ d.packets, (IPv4.more pb.networkHeader || IPv4.fragmentOffset pb.networkHeader != 0) = true) :
    ∃ r r', Reach (· = newIPv4Reassembler) step Legal r ∧ handed r ⟨q, 0, r.sets⟩ ∧
      r.arrive ⟨q, 0, r.sets⟩ = some (r', some d.bytes) := by
  have hnow : (0 : ℤ) ≤ 0 ∧ (0 : ℤ) ≤ 0 + ipv4ReassemblyTimeout := by decide
  have hpackets : d.packets = [d.first, q] := by rw [Datagram.packets, hrest]
  have hmem : d.first ∈ d.packets := List.mem_cons_self ..
  have hq : q ∈ d.packets := by rw [hpackets]; simp
  have hne : d.first ≠ q := by
    have hnodup : d.packets.Nodup := d.carries.nodup
    rw [hpackets] at hnodup
    simpa using hnodup
  have hopen : ¬d.Complete [d.first] := fun hc => hne (List.mem_singleton.1 (hc q hq)).symm
  have hcomplete : d.Complete [q, d.first] := fun p hp => by
    rw [hpackets] at hp
    simpa [or_comm] using hp
  obtain ⟨r, hp, hr⟩ := (d.alone_new 0).process hmem hnow
  rw [Datagram.note, if_pos hmem, if_neg hopen, if_neg List.not_mem_nil] at hr
  obtain ⟨r', hp', -⟩ := hr.process hq hnow
  rw [if_pos hcomplete] at hp'
  have hstep : newIPv4Reassembler.step ⟨d.first, 0, newIPv4Reassembler.sets⟩ = some r := by
    rw [Reassembler.step, if_pos ⟨hfrag _ hmem, List.Perm.refl _⟩]
    exact congrArg (Option.map Prod.fst) hp
  exact ⟨r, r', .next (e := ⟨d.first, 0, newIPv4Reassembler.sets⟩) (.start rfl) hfirst hstep,
    ⟨hfrag _ hq, List.Perm.refl _⟩, hp'⟩

/-- A header with four bytes of options. -/
def longHeader (totalLen flagsFrag : UInt16) : List UInt8 :=
  let hdr := [0x46, 0] ++ bytes16 totalLen ++ [0, 1] ++ bytes16 flagsFrag ++
    [64, 17, 0, 0, 10, 0, 0, 1, 10, 0, 0, 2, 1, 1, 1, 1]
  IPv4.setChecksum hdr (checksum hdr 0)

/-- Bytes 0 to 65504 of the payload. -/
def longFirst : PacketBuffer := ⟨longHeader 65528 0x2000, List.replicate 65504 0, by decide +kernel⟩

/-- Bytes 65504 to 65515. -/
def longRest : PacketBuffer := ⟨longHeader 35 8188, List.replicate 11 0, by decide +kernel⟩

theorem length_longFirst : longFirst.data.length = 65504 := List.length_replicate

theorem stop_longFirst : longFirst.stop = 65504 := by
  have hoff : offsetOf longFirst = 0 := by decide +kernel
  rw [PacketBuffer.stop, hoff, length_longFirst]

/-- The longest payload that `process` accepts. -/
def longDatagram : Datagram where
  key := keyOf longFirst
  first := longFirst
  rest := [longRest]
  fragmented := by simp
  total := 65515
  carries := by
    refine ⟨rfl, by decide +kernel, List.ne_nil_of_length_pos ?_, by decide +kernel, fun _ => ?_,
      by decide +kernel, ?_, by decide +kernel, by decide +kernel, fun h => absurd rfl h, ?_⟩
    · rw [length_longFirst]
      decide
    · rw [length_longFirst]
    · rw [stop_longFirst]
      decide +kernel
    · show longRest.stop = 65515
      decide +kernel
  fits := by decide

/-- Both fragments are legal packets. The one returned is 65539 bytes long and says it has 3. -/
theorem length_field_overflows : ∃ r a r' raw, Reach (· = newIPv4Reassembler) step Legal r ∧ handed r a ∧
    Legal r a ∧ r.arrive a = some (r', some raw) ∧ raw.length = 65539 ∧
    (IPv4.totalLength raw).toNat = 3 := by
  have hlegal : Framed longFirst.networkHeader ∧ Framed longRest.networkHeader := by decide +kernel
  have hfrag : ∀ pb ∈ longDatagram.packets,
      (IPv4.more pb.networkHeader || IPv4.fragmentOffset pb.networkHeader != 0) = true := by
    have h : ∀ hdr ∈ [longFirst.networkHeader, longRest.networkHeader],
        (IPv4.more hdr || IPv4.fragmentOffset hdr != 0) = true := by decide +kernel
    exact fun pb hpb => h _ (List.mem_map_of_mem hpb)
  obtain ⟨r, r', hreach, hh, harr⟩ := longDatagram.returned_with_second rfl hlegal.1 hfrag
  have hlen : (longDatagram.first.networkHeader ++ longDatagram.payload).length = 65539 := by
    have hhdr : longDatagram.first.networkHeader.length = 24 := by decide +kernel
    rw [List.length_append, hhdr, longDatagram.length_payload]
    rfl
  refine ⟨r, _, r', longDatagram.bytes, hreach, hh, hlegal.2, harr, ?_, ?_⟩
  · rw [Datagram.bytes, length_finishHeader (by rw [hlen]; decide), hlen]
  · rw [Datagram.bytes, totalLength_finishHeader (by rw [hlen]; decide), hlen]
    rfl

end Netstack.Stack
