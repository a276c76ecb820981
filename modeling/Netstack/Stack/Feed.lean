import Netstack.Stack.Pending
import Netstack.Stack.Reassembly

/-! The fragments of one datagram, each once and in any order, handed to a reassembler that holds
    nothing: the last of them returns the datagram, and no other call returns anything. -/

namespace Netstack.Stack
open Netstack.Copy Netstack.Header Reassembler

/-- Calls of `process`, one after the other and each at its time, with the packets they return. At
    most one set is pending in between where this is used, so there is one order to walk the map in. -/
def Reassembler.feed : Reassembler → List (PacketBuffer × ℤ) → Option (Reassembler × List (List UInt8))
  | r, [] => some (r, [])
  | r, (pb, now) :: rest =>
    (r.process pb now).bind fun (r, out) => (r.feed rest).map fun (r, raws) => (r, out.toList ++ raws)

/-- All calls fall into one period of `ipv4ReassemblyTimeout`. -/
def Timely {α : Type*} (t : ℤ) (l : List (α × ℤ)) : Prop :=
  ∀ e ∈ l, t ≤ e.2 ∧ e.2 ≤ t + ipv4ReassemblyTimeout

/-- Sets are created at the time of a call. -/
theorem kept_born (t : ℤ) : Kept (fun _ now => t ≤ now) fun set => t ≤ set.createdAt where
  first h _ := h
  add _ h _ _ := h
  sorted h := h

namespace Datagram

variable {d : Datagram} {s : List PacketBuffer} {r : Reassembler} {pb : PacketBuffer} {t now : ℤ}

/-- The reassembler holds the packets `s` of the datagram, and nothing else. -/
structure Alone (d : Datagram) (s : List PacketBuffer) (t : ℤ) (r : Reassembler) : Prop where
  accounted : Accounted r
  tracks : Tracks d s r
  other : ∀ k, k ≠ d.key → r.lookup k = none
  timeout : r.timeout = ipv4ReassemblyTimeout
  born : ∀ e ∈ r.sets, t ≤ e.2.createdAt

theorem alone_new (d : Datagram) (t : ℤ) : Alone d [] t newIPv4Reassembler :=
  ⟨⟨List.nodup_nil, by simp [newIPv4Reassembler], rfl⟩, tracks_none rfl, fun _ _ => rfl, rfl,
    by simp [newIPv4Reassembler]⟩

theorem length_payload (d : Datagram) : d.payload.length = d.total := by
  have hcarries := d.carries.length
  rw [Nat.zero_add] at hcarries
  exact hcarries

/-- What is held is no more than the datagram. -/
theorem Held.bytes_le {set : FragmentSet} (h : Held d s set) : set.bytes ≤ d.total := by
  have hlen : (d.packets.map fun q => q.data.length).sum = d.total := by
    rw [← d.length_payload, payload, List.length_flatMap]
  obtain ⟨l, hperm, hsub⟩ := h.nodup.subperm h.subset
  calc set.bytes = ((s.map PacketBuffer.fragment).map fun frag => frag.data.length).sum :=
        (h.fragments.map _).sum_eq
    _ = (l.map fun q => q.data.length).sum := by
        rw [List.map_map]
        exact ((hperm.map _).sum_eq).symm
    _ ≤ (d.packets.map fun q => q.data.length).sum := (hsub.map _).sum_le_sum (by simp)
    _ = d.total := hlen

theorem Alone.mem_le (h : Alone d s t r) : r.mem ≤ ipv4MaxPayloadSize := by
  have hrest : r.sets.filter (·.1 ≠ d.key) = [] := by
    rw [List.filter_eq_nil_iff]
    intro e he hne
    have hl := (mem_sets_iff h.accounted.keyed).1 he
    rw [h.other e.1 (by simpa using hne)] at hl
    cases hl
  have hbuf := buffered_eq h.accounted.keyed d.key
  rw [hrest, List.map_nil, List.sum_nil, Nat.add_zero] at hbuf
  have hfits := d.fits
  have hheld := h.tracks.held 0
  rw [h.accounted.mem, hbuf]
  cases hl : r.lookup d.key with
  | none => exact Int.natCast_nonneg _
  | some set =>
    rw [hl] at hheld
    have := hheld.bytes_le
    rw [Option.elim_some]
    exact_mod_cast this.trans hfits

theorem Alone.unpressed (h : Alone d s t r) (hpb : pb ∈ d.packets)
    (hnow : t ≤ now ∧ now ≤ t + ipv4ReassemblyTimeout) : Unpressed r pb now where
  fresh e he := by
    have := h.born e he
    rw [h.timeout]
    omega
  room := by
    have hle := h.mem_le
    have hstop := (mem_packets hpb).2.2.2.1
    have hfits := d.fits
    rw [PacketBuffer.stop] at hstop
    rw [ipv4MaxPayloadSize, ipv4MinHeaderSize] at hle hfits
    rw [ipv4ReassemblyHighThreshold]
    omega

/-- One more packet. -/
theorem Alone.process (h : Alone d s t r) (hpb : pb ∈ d.packets)
    (hnow : t ≤ now ∧ now ≤ t + ipv4ReassemblyTimeout) :
    ∃ r', r.process pb now = some (r', if d.Complete (pb :: s) then some d.bytes else none) ∧
      Alone d (d.note s pb) t r' := by
  have hq := h.unpressed hpb hnow
  obtain ⟨r', hp, ht⟩ := h.tracks.process hq hpb
  obtain ⟨hacc, htime, hother⟩ := process_calm hq h.accounted hp
  rw [(mem_packets hpb).1] at hother
  exact ⟨r', hp, hacc, ht, fun k hk => (hother k hk).trans (h.other k hk), htime.trans h.timeout,
    (kept_born t).process hnow.1 h.born hp⟩

/-- With each packet to come once, the datagram is complete when none is left. -/
theorem complete_cons_iff {l : List PacketBuffer} (hperm : (pb :: (l ++ s)).Perm d.packets) :
    d.Complete (pb :: s) ↔ l = [] := by
  have hnodup : (pb :: (l ++ s)).Nodup := hperm.nodup_iff.2 d.carries.nodup
  constructor
  · intro hc
    rcases l with _ | ⟨q, l⟩
    · rfl
    · -- the next packet is still missing
      have hnext : q ∈ d.packets := hperm.mem_iff.1 (by simp)
      rw [List.cons_append] at hnodup
      obtain ⟨h1, h2⟩ := List.nodup_cons.1 hnodup
      rcases List.mem_cons.1 (hc q hnext) with rfl | hq
      · exact absurd (List.mem_cons_self ..) h1
      · exact absurd (List.mem_append_right _ hq) (List.nodup_cons.1 h2).1
  · rintro rfl
    exact fun q hq => hperm.mem_iff.2 hq

/-- A packet that is not held is not there twice. -/
theorem not_mem_of_perm {l : List PacketBuffer} (hperm : (pb :: (l ++ s)).Perm d.packets) : pb ∉ s := by
  have hnodup : (pb :: (l ++ s)).Nodup := hperm.nodup_iff.2 d.carries.nodup
  exact fun hs => (List.nodup_cons.1 hnodup).1 (List.mem_append_right _ hs)

/-- The next of the packets: with the last one the datagram is returned. -/
theorem Alone.next {l : List PacketBuffer} (h : Alone d s t r) (hperm : (pb :: (l ++ s)).Perm d.packets)
    (hnow : t ≤ now ∧ now ≤ t + ipv4ReassemblyTimeout) :
    ∃ r', r.process pb now = some (r', if l = [] then some d.bytes else none) ∧
      (l ≠ [] → Alone d (pb :: s) t r') := by
  have hmem : pb ∈ d.packets := hperm.mem_iff.1 (List.mem_cons_self ..)
  have hc := complete_cons_iff hperm
  obtain ⟨r', hp, hr'⟩ := h.process hmem hnow
  refine ⟨r', ?_, fun hl => ?_⟩
  · rw [hp]
    simp only [hc]
  · rwa [note, if_pos hmem, if_neg (mt hc.1 hl), if_neg (not_mem_of_perm hperm)] at hr'

/-- The rest of the packets. -/
theorem Alone.feed : ∀ {l : List (PacketBuffer × ℤ)} {s : List PacketBuffer} {r : Reassembler},
    Alone d s t r → (l.map Prod.fst ++ s).Perm d.packets → Timely t l →
    ∃ r', r.feed l = some (r', [d.bytes])
  | [], s, r, h, hperm, _ => absurd (fun q hq => hperm.mem_iff.2 hq) h.tracks.open_
  | (pb, now) :: l, s, r, h, hperm, ht => by
      obtain ⟨r', hp, hr'⟩ := h.next hperm (ht _ (List.mem_cons_self ..))
      rw [Reassembler.feed, hp, Option.bind_some]
      cases l with
      | nil => exact ⟨r', rfl⟩
      | cons e l =>
        obtain ⟨r'', hfeed⟩ := Alone.feed (hr' (by simp)) (List.perm_middle.trans hperm)
          fun q hq => ht q (List.mem_cons_of_mem _ hq)
        dsimp only
        rw [if_neg (by simp), hfeed]
        exact ⟨r'', rfl⟩

/-- The datagram is returned once, whatever the order of its packets. -/
theorem feed_packets (d : Datagram) {l : List (PacketBuffer × ℤ)} (hperm : (l.map Prod.fst).Perm d.packets)
    (ht : Timely t l) : ∃ r', newIPv4Reassembler.feed l = some (r', [d.bytes]) :=
  (d.alone_new t).feed (by rw [List.append_nil]; exact hperm) ht

end Datagram
end Netstack.Stack
