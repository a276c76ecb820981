import Netstack.Lib.Simulation
import Netstack.Stack.Fragmentation

/-! What the reassembler is for: the fragments of a datagram, in any order, give the datagram.

    A `Datagram` is a list of packets that carry a payload in consecutive pieces. Of such a datagram
    the reassembler keeps exactly the packets it has been handed since it last returned it
    (`Tracks`), however many fragments of other datagrams come in between; it returns the payload
    with the packet that makes them complete. -/

namespace Netstack.Stack
open Netstack.Copy Netstack.Header Netstack.Trace Netstack.Simulation Reassembler

/-- The packet as a stored fragment. -/
def PacketBuffer.fragment (pb : PacketBuffer) : Fragment := ⟨offsetOf pb, pb.data⟩

@[simp] theorem PacketBuffer.fragment_offset (pb : PacketBuffer) : pb.fragment.offset = offsetOf pb := rfl

@[simp] theorem PacketBuffer.fragment_data (pb : PacketBuffer) : pb.fragment.data = pb.data := rfl

/-- Where the payload of a packet ends in its datagram. -/
def PacketBuffer.stop (pb : PacketBuffer) : ℕ := offsetOf pb + pb.data.length

/-- The packets carry what lies between `off` and `total` in the payload of datagram `key`: each has
    its place and at least one byte, and all but the last say that more follows and have whole groups
    of eight bytes. -/
def Carries (key : FragmentKey) (total : ℕ) : ℕ → List PacketBuffer → Prop
  | off, [] => off = total
  | off, pb :: rest => keyOf pb = key ∧ offsetOf pb = off ∧ pb.data ≠ [] ∧
      IPv4.more pb.networkHeader = !rest.isEmpty ∧ (rest ≠ [] → pb.data.length % 8 = 0) ∧
      Carries key total pb.stop rest

instance decidableCarries (key : FragmentKey) (total : ℕ) : ∀ (off : ℕ) (l : List PacketBuffer),
    Decidable (Carries key total off l)
  | off, [] => inferInstanceAs (Decidable (off = total))
  | off, pb :: rest =>
    have := decidableCarries key total pb.stop rest
    inferInstanceAs (Decidable (keyOf pb = key ∧ offsetOf pb = off ∧ pb.data ≠ [] ∧
      IPv4.more pb.networkHeader = !rest.isEmpty ∧ (rest ≠ [] → pb.data.length % 8 = 0) ∧
      Carries key total pb.stop rest))

/-- A datagram in two or more fragments. -/
structure Datagram where
  key : FragmentKey
  first : PacketBuffer
  rest : List PacketBuffer
  fragmented : rest ≠ []
  total : ℕ
  carries : Carries key total 0 (first :: rest)
  fits : total ≤ ipv4MaxPayloadSize

namespace Datagram

def packets (d : Datagram) : List PacketBuffer := d.first :: d.rest

def payload (d : Datagram) : List UInt8 := d.packets.flatMap PacketBuffer.data

end Datagram

/-! ### The packets of a datagram -/

section
variable {key : FragmentKey} {total off : ℕ} {pb : PacketBuffer}

theorem Carries.le : ∀ {l : List PacketBuffer} {off : ℕ}, Carries key total off l → off ≤ total
  | [], _, h => le_of_eq h
  | pb :: _, off, ⟨_, h, _, _, _, hrest⟩ => by
      have hle := hrest.le
      rw [PacketBuffer.stop] at hle
      omega

theorem Carries.length : ∀ {l : List PacketBuffer} {off : ℕ}, Carries key total off l →
    off + (l.flatMap PacketBuffer.data).length = total
  | [], _, h => h
  | pb :: l, off, ⟨_, h, _, _, _, hrest⟩ => by
      have ih := hrest.length
      rw [PacketBuffer.stop, h] at ih
      rw [List.flatMap_cons, List.length_append]
      omega

/-- Every packet has its key and its place, and says whether it is the last. -/
theorem Carries.mem : ∀ {l : List PacketBuffer} {off : ℕ}, Carries key total off l → pb ∈ l →
    keyOf pb = key ∧ off ≤ offsetOf pb ∧ 0 < pb.data.length ∧ pb.stop ≤ total ∧
      (IPv4.more pb.networkHeader = true → pb.data.length % 8 = 0)
  | q :: l, off, ⟨hkey, hoff, hne, hmore, halign, hrest⟩, hmem => by
      rcases List.mem_cons.1 hmem with rfl | hmem
      · refine ⟨hkey, hoff.ge, List.length_pos_iff.2 hne, hrest.le, fun hm => halign ?_⟩
        rintro rfl
        rw [hm] at hmore
        cases hmore
      · obtain ⟨h1, h2, h3, h4, h5⟩ := hrest.mem hmem
        refine ⟨h1, ?_, h3, h4, h5⟩
        rw [PacketBuffer.stop] at h2
        omega

/-- The packets follow each other. -/
theorem Carries.pairwise : ∀ {l : List PacketBuffer} {off : ℕ}, Carries key total off l →
    l.Pairwise fun p q => p.stop ≤ offsetOf q
  | [], _, _ => List.Pairwise.nil
  | _ :: _, _, ⟨_, _, _, _, _, hrest⟩ => List.Pairwise.cons (fun _ hq => (hrest.mem hq).2.1) hrest.pairwise

theorem Carries.nodup {l : List PacketBuffer} (h : Carries key total off l) : l.Nodup := by
  refine h.pairwise.imp_of_mem fun {p q} hp hq hpq heq => ?_
  subst heq
  have hpos := (h.mem hp).2.2.1
  rw [PacketBuffer.stop] at hpq
  omega

/-- Two packets that are not the same do not overlap. -/
theorem Carries.disjoint : ∀ {l : List PacketBuffer} {off : ℕ} {p q : PacketBuffer},
    Carries key total off l → p ∈ l → q ∈ l → p ≠ q → p.stop ≤ offsetOf q ∨ q.stop ≤ offsetOf p
  | r :: l, off, p, q, ⟨_, _, _, _, _, hrest⟩, hp, hq, hne => by
      rcases List.mem_cons.1 hp with rfl | hp'
      · rcases List.mem_cons.1 hq with rfl | hq'
        · exact absurd rfl hne
        · exact .inl (hrest.mem hq').2.1
      · rcases List.mem_cons.1 hq with rfl | hq'
        · exact .inr (hrest.mem hp').2.1
        · exact hrest.disjoint hp' hq' hne

/-- A packet that says no more follows ends the payload. -/
theorem Carries.stop_of_not_more : ∀ {l : List PacketBuffer} {off : ℕ}, Carries key total off l →
    pb ∈ l → IPv4.more pb.networkHeader = false → pb.stop = total
  | q :: l, off, ⟨_, _, _, hmore, _, hrest⟩, hmem, hlast => by
      rcases List.mem_cons.1 hmem with rfl | hmem
      · rw [hlast] at hmore
        cases l with
        | nil => exact hrest
        | cons => cases hmore
      · exact hrest.stop_of_not_more hmem hlast

/-! ### Completeness -/

/-- The walk of `complete` over some of the fragments, in order, gets to the end only if none is
    missing. -/
theorem contiguous_iff : ∀ {l l' : List PacketBuffer} {off : ℕ}, Carries key total off l → l ≠ [] →
    l'.Sublist l → (FragmentSet.contiguous total (l'.map PacketBuffer.fragment) off = true ↔ l' = l)
  | p :: l, l', off, ⟨hkey, hoff, hne, hmore, halign, hrest⟩, _, hsub => by
      have hpos := List.length_pos_iff.2 hne
      have hgap : ∀ l'' : List PacketBuffer, l''.Sublist l →
          FragmentSet.contiguous total (l''.map PacketBuffer.fragment) off = false := by
        intro l'' hl''
        cases l'' with
        | nil => rfl
        | cons q l'' =>
          have hq := (hrest.mem (hl''.subset (List.mem_cons_self ..))).2.1
          rw [PacketBuffer.stop] at hq
          rw [List.map_cons, FragmentSet.contiguous, if_pos]
          show ((offsetOf q : ℕ) : ℤ) ≠ off
          omega
      cases hsub with
      | cons _ hsub' =>
        rw [hgap l' hsub']
        refine iff_of_false (by simp) ?_
        rintro rfl
        have := hsub'.length_le
        rw [List.length_cons] at this
        omega
      | cons_cons _ hsub' =>
        rename_i l''
        have hstop : (off : ℤ) + (p.fragment.data.length : ℤ) = (p.stop : ℕ) := by
          rw [PacketBuffer.stop, hoff, PacketBuffer.fragment]
          push_cast
          ring
        rw [List.map_cons, FragmentSet.contiguous, if_neg (by rw [PacketBuffer.fragment]; simp [hoff])]
        dsimp only
        rw [hstop]
        rcases List.eq_nil_or_concat l with rfl | ⟨_, _, hl⟩
        · have htotal : p.stop = total := hrest
          have hnil : l'' = [] := List.sublist_nil.1 hsub'
          rw [if_pos (by rw [htotal]), hnil]
          simp
        · have hlne : l ≠ [] := by rw [hl]; simp
          have hlt : p.stop < total := by
            obtain ⟨q, l₀, rfl⟩ := List.exists_cons_of_ne_nil hlne
            obtain ⟨-, h2, h3, h4, -⟩ := hrest.mem (List.mem_cons_self ..)
            rw [PacketBuffer.stop] at h4
            omega
          rw [if_neg (by omega), if_neg (by omega), contiguous_iff hrest hlne hsub']
          simp

/-! ### Assembly -/

/-- The fragments copied one behind the other. -/
theorem copyAll_eq {hdr : List UInt8} : ∀ {l : List PacketBuffer} {off : ℕ} {done : List UInt8},
    Carries key total off l → done.length = off →
    FragmentSet.copyAll hdr.length (l.map PacketBuffer.fragment)
      (hdr ++ done ++ List.replicate (total - off) 0)
      = some (hdr ++ done ++ l.flatMap PacketBuffer.data)
  | [], off, done, h, _ => by
      have hoff : off = total := h
      rw [List.map_nil, FragmentSet.copyAll, hoff, Nat.sub_self]
      rfl
  | p :: l, off, done, ⟨_, hoff, _, _, _, hrest⟩, hdone => by
      have hle := hrest.le
      have hstop : p.stop = off + p.data.length := by rw [PacketBuffer.stop, hoff]
      have hblit : blit (hdr ++ done ++ List.replicate (total - off) 0) (hdr.length + offsetOf p) p.data
          = hdr ++ (done ++ p.data) ++ List.replicate (total - p.stop) 0 := by
        rw [show hdr.length + offsetOf p = (hdr ++ done).length by rw [List.length_append, hdone, hoff],
          blit_append _ (by rw [List.length_replicate]; omega), List.drop_replicate,
          show total - off - p.data.length = total - p.stop by omega]
        simp only [List.append_assoc]
      rw [List.map_cons, FragmentSet.copyAll, if_neg]
      · show FragmentSet.copyAll _ _ (blit _ (hdr.length + offsetOf p) p.data) = _
        rw [hblit, copyAll_eq hrest (by rw [List.length_append, hdone, hstop]), List.flatMap_cons]
        simp only [List.append_assoc]
      · show ¬hdr.length + offsetOf p > _
        simp only [List.length_append, List.length_replicate]
        omega

end

/-! ### The map of pending sets -/

/-- The bytes a set holds. -/
def FragmentSet.bytes (set : FragmentSet) : ℕ := (set.fragments.map fun frag => frag.data.length).sum

namespace Reassembler

variable {r r' : Reassembler} {key k : FragmentKey} {pb : PacketBuffer} {now m : ℤ}
  {set : FragmentSet} {x : Option FragmentSet} {out : Option (List UInt8)}

/-- The bytes all sets hold. -/
def buffered (r : Reassembler) : ℕ := (r.sets.map fun e => e.2.bytes).sum

/-- The entry of `key` replaced by `x`, and the counter set to `m`. -/
def replace (r : Reassembler) (key : FragmentKey) (x : Option FragmentSet) (m : ℤ) : Reassembler :=
  { r with sets := (x.map fun set => (key, set)).toList ++ r.sets.filter (·.1 ≠ key), mem := m }

theorem store_eq (r : Reassembler) (key : FragmentKey) (set : FragmentSet) :
    r.store key set = r.replace key (some set) r.mem := rfl

theorem releaseSet_eq (r : Reassembler) (key : FragmentKey) (set : FragmentSet) :
    r.releaseSet key set = r.replace key none (max 0 (r.mem - set.mem)) := rfl

@[simp] theorem replace_replace (r : Reassembler) (key : FragmentKey) (x y : Option FragmentSet)
    (m m' : ℤ) : (r.replace key x m).replace key y m' = r.replace key y m' := by
  have hx : ((x.map fun set => (key, set)).toList).filter (·.1 ≠ key) = [] := by
    cases x <;> simp
  simp only [replace, List.filter_append, hx, List.nil_append, List.filter_filter, Bool.and_self]

theorem lookup_replace (r : Reassembler) (key : FragmentKey) (x : Option FragmentSet) (m : ℤ) :
    (r.replace key x m).lookup key = x := by
  have hnone : (r.sets.filter (·.1 ≠ key)).find? (·.1 = key) = none := by
    rw [List.find?_eq_none]
    intro e he
    simpa using (List.mem_filter.1 he).2
  cases x with
  | none => rw [lookup, replace, Option.map_none, Option.toList_none, List.nil_append, hnone]; rfl
  | some set => simp [lookup, replace]

theorem lookup_replace_ne (hk : k ≠ key) : (r.replace key x m).lookup k = r.lookup k := by
  have hfilter : ∀ l : List (FragmentKey × FragmentSet),
      (l.filter (·.1 ≠ key)).find? (·.1 = k) = l.find? (·.1 = k) := by
    intro l
    induction l with
    | nil => rfl
    | cons e l ih =>
      by_cases he : e.1 = key
      · rw [List.filter_cons_of_neg (by simpa using he), ih, List.find?_cons_of_neg]
        simp [he, hk.symm]
      · rw [List.filter_cons_of_pos (by simpa using he)]
        by_cases hek : e.1 = k
        · rw [List.find?_cons_of_pos (by simpa using hek), List.find?_cons_of_pos (by simpa using hek)]
        · rw [List.find?_cons_of_neg (by simpa using hek), List.find?_cons_of_neg (by simpa using hek), ih]
  cases x with
  | none => rw [lookup, replace, Option.map_none, Option.toList_none, List.nil_append, hfilter]; rfl
  | some set =>
    rw [lookup, replace, Option.map_some, Option.toList_some, List.singleton_append,
      List.find?_cons_of_neg (by simpa using hk.symm), hfilter]
    rfl

/-- Every key has one set, and the counters count what is buffered. -/
structure Accounted (r : Reassembler) : Prop where
  keyed : (r.sets.map Prod.fst).Nodup
  sets : ∀ e ∈ r.sets, e.2.mem = e.2.bytes
  mem : r.mem = r.buffered

theorem mem_sets_iff (h : (r.sets.map Prod.fst).Nodup) :
    (key, set) ∈ r.sets ↔ r.lookup key = some set := by
  rw [lookup]
  generalize r.sets = l at *
  induction l with
  | nil => simp
  | cons e l ih =>
    rw [List.map_cons, List.nodup_cons] at h
    by_cases he : e.1 = key
    · rw [List.find?_cons_of_pos (by simpa using he), Option.map_some, Option.some.injEq, List.mem_cons]
      constructor
      · rintro (rfl | hmem)
        · rfl
        · exact absurd (List.mem_map_of_mem (f := Prod.fst) hmem) (he ▸ h.1)
      · rintro rfl
        exact .inl (by rw [← he])
    · rw [List.find?_cons_of_neg (by simpa using he), ← ih h.2, List.mem_cons]
      refine ⟨fun hmem => hmem.resolve_left ?_, .inr⟩
      rintro rfl
      exact he rfl

/-- The order of the map makes no difference. -/
theorem lookup_order {order : List (FragmentKey × FragmentSet)} (h : (r.sets.map Prod.fst).Nodup)
    (hp : order.Perm r.sets) (key : FragmentKey) :
    { r with sets := order }.lookup key = r.lookup key := by
  have hnodup : (order.map Prod.fst).Nodup := (hp.map Prod.fst).nodup_iff.2 h
  apply Option.ext
  intro set
  have h1 : (key, set) ∈ { r with sets := order }.sets ↔ { r with sets := order }.lookup key = some set :=
    mem_sets_iff hnodup
  have h2 : (key, set) ∈ r.sets ↔ r.lookup key = some set := mem_sets_iff h
  rw [← h1, ← h2]
  exact hp.mem_iff

theorem Accounted.order {order : List (FragmentKey × FragmentSet)} (h : Accounted r)
    (hp : order.Perm r.sets) : Accounted { r with sets := order } where
  keyed := (hp.map Prod.fst).nodup_iff.2 h.keyed
  sets := fun e he => h.sets e (hp.mem_iff.1 he)
  mem := by
    rw [h.mem, buffered, buffered, (hp.map fun e => e.2.bytes).sum_eq]

/-- The bytes of the set of `key`, and the rest. -/
theorem buffered_eq (h : (r.sets.map Prod.fst).Nodup) (key : FragmentKey) :
    r.buffered = ((r.lookup key).elim 0 FragmentSet.bytes)
      + ((r.sets.filter (·.1 ≠ key)).map fun e => e.2.bytes).sum := by
  rw [buffered, lookup]
  generalize r.sets = l at *
  induction l with
  | nil => rfl
  | cons e l ih =>
    rw [List.map_cons, List.nodup_cons] at h
    have ih := ih h.2
    by_cases he : e.1 = key
    · have hfilter : l.filter (·.1 ≠ key) = l := by
        rw [List.filter_eq_self]
        intro q hq
        have : q.1 ≠ key := fun hk => h.1 (by rw [he, ← hk]; exact List.mem_map_of_mem hq)
        simpa using this
      rw [List.find?_cons_of_pos (by simpa using he), List.filter_cons_of_neg (by simpa using he), hfilter]
      rfl
    · rw [List.find?_cons_of_neg (by simpa using he), List.filter_cons_of_pos (by simpa using he),
        List.map_cons, List.map_cons, List.sum_cons, List.sum_cons, ih]
      omega

theorem Accounted.replace (h : Accounted r) (hx : ∀ y ∈ x, y.mem = y.bytes)
    (hm : m = r.mem - (r.lookup key).elim 0 FragmentSet.bytes + (x.elim 0 FragmentSet.bytes : ℕ)) :
    Accounted (r.replace key x m) := by
  have hbuf := buffered_eq h.keyed key
  have hmem := h.mem
  refine ⟨?_, ?_, ?_⟩
  · have hrest : ((r.sets.filter (·.1 ≠ key)).map Prod.fst).Nodup :=
      h.keyed.sublist (List.filter_sublist.map _)
    cases x with
    | none => exact hrest
    | some set =>
      refine List.nodup_cons.2 ⟨fun hmem => ?_, hrest⟩
      obtain ⟨e, he, hek⟩ := List.mem_map.1 hmem
      simpa [hek] using (List.mem_filter.1 he).2
  · intro e he
    rcases List.mem_append.1 he with he | he
    · obtain ⟨y, hy, rfl⟩ := Option.map_eq_some_iff.1 (Option.mem_toList.1 he)
      exact hx y hy
    · exact h.sets e (List.mem_filter.1 he).1
  · have hnew : (r.replace key x m).buffered = (x.elim 0 FragmentSet.bytes)
        + ((r.sets.filter (·.1 ≠ key)).map fun e => e.2.bytes).sum := by
      cases x with
      | none => rw [buffered, Reassembler.replace]; simp
      | some set => rw [buffered, Reassembler.replace]; simp
    rw [hnew]
    show m = _
    omega

/-! ### A call without timeout and without memory pressure -/

theorem evictExpired_eq (h : ∀ e ∈ r.sets, now - e.2.createdAt ≤ r.timeout) :
    r.evictExpired now = r := by
  rw [evictExpired]
  generalize r.sets = l at h
  induction l with
  | nil => rfl
  | cons e l ih =>
    rw [List.foldl_cons, if_neg (by have := h e (List.mem_cons_self ..); omega)]
    exact ih fun e he => h e (List.mem_cons_of_mem _ he)

theorem trimMemory_eq (h : r.mem ≤ ipv4ReassemblyHighThreshold) (fuel : ℕ) : r.trimMemory fuel = r := by
  cases fuel with
  | zero => rfl
  | succ fuel => rw [trimMemory, if_neg (by omega)]

/-- No set has timed out and there is room for the payload. -/
structure Unpressed (r : Reassembler) (pb : PacketBuffer) (now : ℤ) : Prop where
  fresh : ∀ e ∈ r.sets, now - e.2.createdAt ≤ r.timeout
  room : r.mem + pb.data.length ≤ ipv4ReassemblyHighThreshold

/-- The packet has no place in any datagram. -/
def rejects (pb : PacketBuffer) : Prop :=
  pb.data.length = 0 ∨ pb.stop > ipv4MaxPayloadSize ∨
    IPv4.more pb.networkHeader = true ∧ pb.data.length % 8 ≠ 0

instance (pb : PacketBuffer) : Decidable (rejects pb) := inferInstanceAs (Decidable (_ ∨ _ ∨ _))

/-- The final fragment announces another end than the one known. -/
def conflicts (set : FragmentSet) (pb : PacketBuffer) : Prop :=
  (!IPv4.more pb.networkHeader) = true ∧ set.totalLen ≥ 0 ∧ set.totalLen ≠ pb.stop

instance (set : FragmentSet) (pb : PacketBuffer) : Decidable (conflicts set pb) :=
  inferInstanceAs (Decidable (_ ∧ _ ∧ _))

/-- What `intake` does to the map: the entry of the packet's key is left alone, released, or gets the
    packet. -/
theorem intake_eq (pb : PacketBuffer) (h : ∀ e ∈ r.sets, now - e.2.createdAt ≤ r.timeout) : r.intake pb now =
    if rejects pb then .dropped r
    else match overlapping (r.pending pb now) (offsetOf pb) pb.stop with
    | some frag =>
      if offsetOf pb = frag.offset ∧ pb.stop = frag.offset + frag.data.length then
        .dropped (r.replace (keyOf pb) (some (r.pending pb now)) r.mem)
      else .dropped (r.replace (keyOf pb) none (max 0 (r.mem - (r.pending pb now).mem)))
    | none =>
      if conflicts (r.pending pb now) pb then
        .dropped (r.replace (keyOf pb) none (max 0 (r.mem - (r.pending pb now).mem)))
      else .stored (r.replace (keyOf pb) (some (addFragment (r.pending pb now) pb))
        (r.mem + pb.data.length)) (keyOf pb) (addFragment (r.pending pb now) pb) := by
  have hrelease : (r.store (keyOf pb) (r.pending pb now)).releaseSet (keyOf pb) (r.pending pb now)
      = r.replace (keyOf pb) none (max 0 (r.mem - (r.pending pb now).mem)) := by
    rw [releaseSet_eq, store_eq, replace_replace]
    rfl
  have hstore : (r.store (keyOf pb) (r.pending pb now)).store (keyOf pb)
      (addFragment (r.pending pb now) pb)
      = r.replace (keyOf pb) (some (addFragment (r.pending pb now) pb)) r.mem := by
    rw [store_eq, store_eq, replace_replace]
    rfl
  rw [intake]
  dsimp only
  rw [evictExpired_eq h, hrelease, hstore, ← PacketBuffer.stop]
  by_cases h0 : pb.data.length = 0
  · rw [if_pos h0, if_pos (.inl h0)]
  by_cases hmax : pb.stop > ipv4MaxPayloadSize
  · rw [if_neg h0, if_pos hmax, if_pos (.inr (.inl hmax))]
  by_cases halign : IPv4.more pb.networkHeader = true ∧ pb.data.length % 8 ≠ 0
  · rw [if_neg h0, if_neg hmax, if_pos halign, if_pos (.inr (.inr halign))]
  have hrej : ¬rejects pb := by
    rintro (h' | h' | h')
    · exact h0 h'
    · exact hmax h'
    · exact halign h'
  rw [if_neg h0, if_neg hmax, if_neg halign, if_neg hrej]
  rfl

/-- The set of a packet is the one in the map, or a new one. -/
theorem pending_books (hacc : Accounted r) (pb : PacketBuffer) (now : ℤ) :
    (r.pending pb now).mem = (r.pending pb now).bytes ∧
      (r.lookup (keyOf pb)).elim 0 FragmentSet.bytes = (r.pending pb now).bytes := by
  rw [pending]
  cases hl : r.lookup (keyOf pb) with
  | none => exact ⟨rfl, rfl⟩
  | some set => exact ⟨hacc.sets _ ((mem_sets_iff hacc.keyed).2 hl), rfl⟩

theorem bytes_addFragment (set : FragmentSet) (pb : PacketBuffer) :
    (addFragment set pb).bytes = set.bytes + pb.data.length := by
  rw [FragmentSet.bytes, FragmentSet.bytes, addFragment, List.map_append, List.sum_append]
  rfl

theorem bytes_sorted (set : FragmentSet) : set.sorted.bytes = set.bytes :=
  ((List.perm_insertionSort _ set.fragments).map _).sum_eq

/-- The set after `complete`, which sorts it if it runs. -/
def settled (set : FragmentSet) : FragmentSet :=
  if set.totalLen ≥ 0 ∧ set.header.isSome then set.sorted else set

theorem settled_mem (set : FragmentSet) : (settled set).mem = set.mem ∧ (settled set).bytes = set.bytes := by
  rw [settled]
  split
  · exact ⟨rfl, bytes_sorted set⟩
  · exact ⟨rfl, rfl⟩

/-- What becomes of a packet that is stored. -/
theorem process_stored {r₁ : Reassembler} (hi : r.intake pb now = .stored r₁ key set) (hmem : r₁.mem ≤ ipv4ReassemblyHighThreshold) :
    r.process pb now = if ready set then set.sorted.assemble.map fun raw => (r₁.releaseSet key set, some raw)
      else some (r₁.store key (settled set), none) := by
  have htrim : (r₁.store key (settled set)).mem ≤ ipv4ReassemblyHighThreshold := hmem
  rw [process, hi]
  dsimp only
  rw [← settled, trimMemory_eq htrim]

/-- `r'` is `r` with at most the entry of `key` replaced, and its books are in order. -/
structure Rebooked (r : Reassembler) (key : FragmentKey) (r' : Reassembler) : Prop where
  accounted : Accounted r'
  timeout : r'.timeout = r.timeout
  other : ∀ k, k ≠ key → r'.lookup k = r.lookup k

theorem Accounted.rebooked (h : Accounted r) (hx : ∀ y ∈ x, y.mem = y.bytes)
    (hm : m = r.mem - (r.lookup key).elim 0 FragmentSet.bytes + (x.elim 0 FragmentSet.bytes : ℕ)) :
    Rebooked r key (r.replace key x m) :=
  ⟨h.replace hx hm, rfl, fun _ hk => lookup_replace_ne hk⟩

theorem Rebooked.trans {r₁ r₂ : Reassembler} (h : Rebooked r key r₁) (h' : Rebooked r₁ key r₂) :
    Rebooked r key r₂ :=
  ⟨h'.accounted, h'.timeout.trans h.timeout, fun k hk => (h'.other k hk).trans (h.other k hk)⟩

/-- The books cover every pending set. -/
theorem Accounted.mem_le (h : Accounted r) (hl : r.lookup key = some set) : set.mem ≤ r.mem := by
  have hbuf := buffered_eq h.keyed key
  have hset : set.mem = set.bytes := h.sets _ ((mem_sets_iff h.keyed).2 hl)
  rw [hl, Option.elim_some] at hbuf
  rw [h.mem, hset, hbuf]
  omega

theorem Accounted.release (h : Accounted r) (hl : r.lookup key = some set) :
    Rebooked r key (r.releaseSet key set) := by
  have hle := h.mem_le hl
  have hset : set.mem = set.bytes := h.sets _ ((mem_sets_iff h.keyed).2 hl)
  rw [releaseSet_eq]
  refine h.rebooked (by simp) ?_
  rw [hl, Option.elim_some, Option.elim_none]
  omega

/-- What `intake` leaves of the books: a dropped packet adds nothing, a stored one its length. -/
theorem intake_books (pb : PacketBuffer) (hf : ∀ e ∈ r.sets, now - e.2.createdAt ≤ r.timeout) (hacc : Accounted r) :
    match r.intake pb now with
    | .dropped r' => Rebooked r (keyOf pb) r' ∧ r'.mem ≤ r.mem
    | .stored r' key set => key = keyOf pb ∧ Rebooked r (keyOf pb) r' ∧
        r'.mem = r.mem + pb.data.length ∧ r'.lookup key = some set ∧ pb.data.length ≤ set.mem := by
  obtain ⟨hmem, hbytes⟩ := pending_books hacc pb now
  have hle : (r.pending pb now).bytes ≤ r.buffered := by
    rw [buffered_eq hacc.keyed (keyOf pb), hbytes]
    exact Nat.le_add_right _ _
  have hbuf := hacc.mem
  have hrelease : Rebooked r (keyOf pb)
      (r.replace (keyOf pb) none (max 0 (r.mem - (r.pending pb now).mem))) ∧
      max 0 (r.mem - (r.pending pb now).mem) ≤ r.mem := by
    refine ⟨hacc.rebooked (by simp) ?_, by omega⟩
    rw [hbytes, hmem, Option.elim_none]
    omega
  rw [intake_eq pb hf]
  by_cases hrej : rejects pb
  · rw [if_pos hrej]
    exact ⟨⟨hacc, rfl, fun _ _ => rfl⟩, le_rfl⟩
  rw [if_neg hrej]
  cases overlapping (r.pending pb now) (offsetOf pb) pb.stop with
  | some frag =>
    dsimp only
    split_ifs
    · refine ⟨hacc.rebooked ?_ ?_, le_rfl⟩
      · rintro y ⟨⟩
        exact hmem
      · rw [hbytes, Option.elim_some]
        omega
    · exact hrelease
  | none =>
    dsimp only
    split_ifs
    · exact hrelease
    · have hsum := bytes_addFragment (r.pending pb now) pb
      have hcount : (addFragment (r.pending pb now) pb).mem = (addFragment (r.pending pb now) pb).bytes := by
        rw [hsum, addFragment, hmem]
        push_cast
        rfl
      refine ⟨rfl, hacc.rebooked ?_ ?_, rfl, lookup_replace .., by omega⟩
      · rintro y ⟨⟩
        exact hcount
      · rw [hbytes, Option.elim_some]
        omega

/-- Sorting a stored set changes nothing in the books. -/
theorem Accounted.settle (h : Accounted r) (hl : r.lookup key = some set) :
    Rebooked r key (r.store key (settled set)) := by
  obtain ⟨h1, h2⟩ := settled_mem set
  have hset : set.mem = set.bytes := h.sets _ ((mem_sets_iff h.keyed).2 hl)
  rw [store_eq]
  refine h.rebooked ?_ ?_
  · rintro y ⟨⟩
    rw [h1, h2, hset]
  · rw [hl, Option.elim_some, Option.elim_some, h2]
    omega

/-- A call without pressure replaces at most the entry of its own key, and keeps the books. -/
theorem process_calm (h : Unpressed r pb now) (hacc : Accounted r)
    (hp : r.process pb now = some (r', out)) : Rebooked r (keyOf pb) r' := by
  have hroom := h.room
  have hin := intake_books pb h.fresh hacc
  cases hi : r.intake pb now with
  | dropped r₁ =>
    rw [hi] at hin
    rw [process, hi] at hp
    cases hp
    exact hin.1
  | stored r₁ key set =>
    rw [hi] at hin
    obtain ⟨rfl, hbook, hmem, hlook, -⟩ := hin
    rw [process_stored hi (by omega)] at hp
    split at hp
    · obtain ⟨raw, -, hraw⟩ := Option.map_eq_some_iff.1 hp
      cases hraw
      exact hbook.trans (hbook.accounted.release hlook)
    · cases hp
      exact hbook.trans (hbook.accounted.settle hlook)

end Reassembler

/-! ### What is kept of one datagram -/

namespace Datagram

variable {d : Datagram} {s : List PacketBuffer} {set : FragmentSet} {pb : PacketBuffer}

/-- All packets of the datagram are in `s`. -/
def Complete (d : Datagram) (s : List PacketBuffer) : Prop := ∀ q ∈ d.packets, q ∈ s

instance (d : Datagram) (s : List PacketBuffer) : Decidable (d.Complete s) :=
  inferInstanceAs (Decidable (∀ _ ∈ _, _))

/-- The set holds exactly the packets `s` of the datagram: their payloads, the header of the first
    one and the end announced by the last one. -/
structure Held (d : Datagram) (s : List PacketBuffer) (set : FragmentSet) : Prop where
  subset : s ⊆ d.packets
  nodup : s.Nodup
  fragments : set.fragments.Perm (s.map PacketBuffer.fragment)
  header : set.header = if d.first ∈ s then some d.first.networkHeader else none
  totalLen : set.totalLen = if ∃ q ∈ s, IPv4.more q.networkHeader = false then (d.total : ℤ) else -1

theorem mem_packets (h : pb ∈ d.packets) : keyOf pb = d.key ∧ 0 ≤ offsetOf pb ∧ 0 < pb.data.length ∧
    pb.stop ≤ d.total ∧ (IPv4.more pb.networkHeader = true → pb.data.length % 8 = 0) :=
  d.carries.mem h

theorem offset_first (d : Datagram) : offsetOf d.first = 0 := d.carries.2.1

theorem eq_of_offset {p q : PacketBuffer} (hp : p ∈ d.packets) (hq : q ∈ d.packets)
    (h : offsetOf p = offsetOf q) : p = q := by
  by_contra hne
  have hpos := (mem_packets hp).2.2.1
  have hpos' := (mem_packets hq).2.2.1
  have hdis := d.carries.disjoint hp hq hne
  rw [PacketBuffer.stop, PacketBuffer.stop] at hdis
  omega

theorem eq_first_of_offset (h : pb ∈ d.packets) (h0 : offsetOf pb = 0) : pb = d.first :=
  eq_of_offset h (List.mem_cons_self ..) (h0.trans d.offset_first.symm)

/-- There is one last packet. -/
theorem exists_last (d : Datagram) : ∃ q ∈ d.packets, IPv4.more q.networkHeader = false := by
  have hlast : ∀ {l : List PacketBuffer} {off : ℕ}, Carries d.key d.total off l → l ≠ [] →
      ∃ q ∈ l, IPv4.more q.networkHeader = false := by
    intro l
    induction l with
    | nil => exact fun _ h => absurd rfl h
    | cons p l ih =>
      rintro off ⟨_, _, _, hmore, _, hrest⟩ -
      by_cases hl : l = []
      · subst hl
        exact ⟨p, List.mem_cons_self .., hmore⟩
      · obtain ⟨q, hq, hm⟩ := ih hrest hl
        exact ⟨q, List.mem_cons_of_mem _ hq, hm⟩
  exact hlast d.carries (List.cons_ne_nil _ _)

theorem eq_of_last {q : PacketBuffer} (h : pb ∈ d.packets) (hq : q ∈ d.packets)
    (hm : IPv4.more pb.networkHeader = false) (hm' : IPv4.more q.networkHeader = false) : pb = q := by
  by_contra hne
  have h1 := d.carries.stop_of_not_more h hm
  have h2 := d.carries.stop_of_not_more hq hm'
  have hp := (mem_packets h).2.2.1
  have hp' := (mem_packets hq).2.2.1
  have hdis := d.carries.disjoint h hq hne
  rw [PacketBuffer.stop] at h1 h2 hdis
  rw [PacketBuffer.stop] at hdis
  omega

theorem not_rejects (h : pb ∈ d.packets) : ¬rejects pb := by
  obtain ⟨-, -, hpos, hstop, halign⟩ := mem_packets h
  have hfits := d.fits
  rintro (h0 | hmax | ⟨hm, hmod⟩)
  · omega
  · omega
  · exact hmod (halign hm)

/-- Nothing of a datagram is held yet. -/
theorem held_nil (d : Datagram) (now : ℤ) : Held d []
    { createdAt := now, header := none, fragments := [], totalLen := -1, mem := 0 } where
  subset := List.nil_subset _
  nodup := List.nodup_nil
  fragments := List.Perm.refl _
  header := by simp
  totalLen := by simp

theorem overlaps_iff (frag : Fragment) (offset stop : ℕ) :
    (!(decide (stop ≤ frag.offset) || decide (frag.offset + frag.data.length ≤ offset))) = true ↔
      frag.offset < stop ∧ offset < frag.offset + frag.data.length := by
  simp

/-- A packet that is held overlaps only itself. -/
theorem Held.overlapping_self (h : Held d s set) (hpb : pb ∈ d.packets) (hs : pb ∈ s) :
    ∃ frag, overlapping set (offsetOf pb) pb.stop = some frag ∧ offsetOf pb = frag.offset ∧
      pb.stop = frag.offset + frag.data.length := by
  have hpos := (mem_packets hpb).2.2.1
  have hsome : (overlapping set (offsetOf pb) pb.stop).isSome := by
    rw [overlapping, List.find?_isSome]
    refine ⟨pb.fragment, h.fragments.mem_iff.2 (List.mem_map_of_mem hs), ?_⟩
    rw [overlaps_iff, PacketBuffer.fragment_offset, PacketBuffer.fragment_data, PacketBuffer.stop]
    omega
  obtain ⟨frag, hfrag⟩ := Option.isSome_iff_exists.1 hsome
  refine ⟨frag, hfrag, ?_⟩
  obtain ⟨q, hq, rfl⟩ := List.mem_map.1 (h.fragments.mem_iff.1 (List.mem_of_find?_eq_some hfrag))
  have hover := List.find?_some hfrag
  replace hover := (overlaps_iff _ _ _).1 hover
  by_cases heq : pb = q
  · subst heq
    exact ⟨rfl, rfl⟩
  · have hdis := d.carries.disjoint hpb (h.subset hq) heq
    rw [PacketBuffer.fragment_offset, PacketBuffer.fragment_data, ← PacketBuffer.stop] at hover
    omega

/-- A packet that is not held overlaps nothing. -/
theorem Held.overlapping_none (h : Held d s set) (hpb : pb ∈ d.packets) (hs : pb ∉ s) :
    overlapping set (offsetOf pb) pb.stop = none := by
  rw [overlapping, List.find?_eq_none]
  intro frag hfrag
  obtain ⟨q, hq, rfl⟩ := List.mem_map.1 (h.fragments.mem_iff.1 hfrag)
  have hne : pb ≠ q := by
    rintro rfl
    exact hs hq
  have hdis := d.carries.disjoint hpb (h.subset hq) hne
  rw [overlaps_iff, PacketBuffer.fragment_offset, PacketBuffer.fragment_data, ← PacketBuffer.stop]
  omega

theorem Held.not_conflicts (h : Held d s set) (hpb : pb ∈ d.packets) (hs : pb ∉ s) :
    ¬conflicts set pb := by
  rintro ⟨hm, hknown, -⟩
  have hm : IPv4.more pb.networkHeader = false := by simpa using hm
  have htotal := h.totalLen
  split at htotal
  · rename_i hex
    obtain ⟨q, hq, hqm⟩ := hex
    exact hs (eq_of_last hpb (h.subset hq) hm hqm ▸ hq)
  · omega

theorem Held.addFragment (h : Held d s set) (hpb : pb ∈ d.packets) (hs : pb ∉ s) :
    Held d (pb :: s) (addFragment set pb) where
  subset := List.cons_subset.2 ⟨hpb, h.subset⟩
  nodup := List.nodup_cons.2 ⟨hs, h.nodup⟩
  fragments := (h.fragments.append_right _).trans (List.perm_append_singleton _ _)
  header := by
    rw [Reassembler.addFragment]
    dsimp only
    by_cases h0 : offsetOf pb = 0
    · have hfirst := eq_first_of_offset hpb h0
      rw [if_pos h0, if_pos (by rw [hfirst]; exact List.mem_cons_self ..), hfirst]
    · have hne : d.first ≠ pb := by
        rintro rfl
        exact h0 d.offset_first
      rw [if_neg h0, h.header]
      simp [hne]
  totalLen := by
    rw [Reassembler.addFragment]
    dsimp only
    cases hm : IPv4.more pb.networkHeader with
    | true => rw [if_pos rfl, h.totalLen]; simp [hm]
    | false =>
      rw [if_neg (by simp), if_pos ⟨pb, List.mem_cons_self .., hm⟩]
      exact congrArg Nat.cast (d.carries.stop_of_not_more hpb hm)

theorem Held.sorted (h : Held d s set) : Held d s set.sorted :=
  ⟨h.subset, h.nodup, (List.perm_insertionSort _ _).trans h.fragments, h.header, h.totalLen⟩

theorem Held.settled (h : Held d s set) : Held d s (settled set) := by
  rw [Reassembler.settled]
  split
  · exact h.sorted
  · exact h

/-! ### Returning it -/

instance : Std.Total fun a b : Fragment => a.offset ≤ b.offset := ⟨fun _ _ => Nat.le_total _ _⟩

instance : IsTrans Fragment fun a b => a.offset ≤ b.offset := ⟨fun _ _ _ => Nat.le_trans⟩

/-- Sorted, what is held lies in the order of the datagram. -/
theorem Held.sorted_fragments (h : Held d s set) :
    set.sorted.fragments = (d.packets.filter (· ∈ s)).map PacketBuffer.fragment := by
  have hperm : (d.packets.filter (· ∈ s)).Perm s := by
    refine (List.perm_ext_iff_of_nodup (d.carries.nodup.filter _) h.nodup).2 fun q => ?_
    rw [List.mem_filter]
    exact ⟨fun hq => by simpa using hq.2, fun hq => ⟨h.subset hq, by simpa using hq⟩⟩
  have hpair : ((d.packets.filter (· ∈ s)).map PacketBuffer.fragment).Pairwise
      fun a b => a.offset < b.offset := by
    rw [List.pairwise_map]
    refine (d.carries.pairwise.sublist List.filter_sublist).imp_of_mem fun {p q} hp _ hpq => ?_
    have hpos := (mem_packets (List.mem_filter.1 hp).1).2.2.1
    show offsetOf p < offsetOf q
    rw [PacketBuffer.stop] at hpq
    omega
  refine List.Perm.eq_of_pairwise ?_
    (List.pairwise_insertionSort (fun a b : Fragment => a.offset ≤ b.offset) _)
    (hpair.imp fun h => h.le) (((List.perm_insertionSort _ _).trans h.fragments).trans (hperm.map _).symm)
  intro a b ha hb hab hba
  obtain ⟨p, hp, rfl⟩ := List.mem_map.1 (h.fragments.mem_iff.1 ((List.mem_insertionSort _).1 ha))
  obtain ⟨q, hq, rfl⟩ := List.mem_map.1 hb
  rw [eq_of_offset (h.subset hp) (List.mem_filter.1 hq).1 (le_antisymm hab hba)]

/-- `ready` is that all packets have come. -/
theorem Held.ready_iff (h : Held d s set) : ready set = true ↔ d.Complete s := by
  have hsorted := h.sorted_fragments
  have hall : d.packets.filter (· ∈ s) = d.packets ↔ d.Complete s := by
    rw [List.filter_eq_self]
    exact forall₂_congr fun q _ => by simp
  have hcont : s ≠ [] → (∃ q ∈ s, IPv4.more q.networkHeader = false) →
      (set.complete = true ↔ d.Complete s) := by
    intro _ hlast
    rw [FragmentSet.complete, hsorted, h.totalLen, if_pos hlast, ← hall]
    exact contiguous_iff d.carries (List.cons_ne_nil _ _) List.filter_sublist
  rw [ready, Bool.and_eq_true, Bool.and_eq_true, decide_eq_true_eq]
  constructor
  · rintro ⟨⟨hknown, hhdr⟩, hcomplete⟩
    have htotal := h.totalLen
    split at htotal
    · rename_i hlast
      obtain ⟨q, hq, -⟩ := id hlast
      exact (hcont (List.ne_nil_of_mem hq) hlast).1 hcomplete
    · omega
  · intro hc
    obtain ⟨q, hq, hm⟩ := d.exists_last
    have hlast : ∃ q ∈ s, IPv4.more q.networkHeader = false := ⟨q, hc q hq, hm⟩
    refine ⟨⟨?_, ?_⟩, (hcont (List.ne_nil_of_mem (hc q hq)) hlast).2 hc⟩
    · rw [h.totalLen, if_pos hlast]
      exact Int.natCast_nonneg _
    · rw [h.header, if_pos (hc _ (List.mem_cons_self ..))]
      rfl

/-- What `assemble` makes of the complete set. -/
theorem Held.assemble (h : Held d s set) (hc : d.Complete s) : set.sorted.assemble
    = some (FragmentSet.finishHeader d.first.networkHeader.length
        (d.first.networkHeader ++ d.payload)) := by
  obtain ⟨q, hq, hm⟩ := d.exists_last
  have htotal : set.totalLen = d.total := by rw [h.totalLen, if_pos ⟨q, hc q hq, hm⟩]
  have hhdr : set.header = some d.first.networkHeader := by
    rw [h.header, if_pos (hc _ (List.mem_cons_self ..))]
  have hall : d.packets.filter (· ∈ s) = d.packets := by
    rw [List.filter_eq_self]
    exact fun q hq => by simpa using hc q hq
  have hcopy : FragmentSet.copyAll d.first.networkHeader.length (d.packets.map PacketBuffer.fragment)
      (d.first.networkHeader ++ [] ++ List.replicate (d.total - 0) 0)
      = some (d.first.networkHeader ++ [] ++ d.payload) := copyAll_eq d.carries rfl
  rw [List.append_nil, Nat.sub_zero] at hcopy
  rw [FragmentSet.assemble, h.sorted_fragments, hall]
  show Option.map (FragmentSet.finishHeader (set.header.getD []).length)
    (FragmentSet.copyAll (set.header.getD []).length _
    (blit (List.replicate ((set.header.getD []).length + set.totalLen.toNat) 0) 0 (set.header.getD [])))
    = _
  rw [hhdr, htotal, Option.getD_some, Int.toNat_natCast, List.replicate_add]
  have hblit := blit_append (a := []) (b := List.replicate d.first.networkHeader.length 0
    ++ List.replicate d.total 0) d.first.networkHeader (by simp)
  rw [List.nil_append, List.nil_append, List.drop_left' (by simp)] at hblit
  rw [List.length_nil] at hblit
  rw [hblit]
  exact congrArg (Option.map _) hcopy

/-- The bytes of the datagram as they are returned. -/
def bytes (d : Datagram) : List UInt8 :=
  FragmentSet.finishHeader d.first.networkHeader.length (d.first.networkHeader ++ d.payload)

/-- The rewritten fields lie inside the header. -/
theorem drop_finishHeader {hdr data : List UInt8} (h : ipv4MinHeaderSize ≤ hdr.length) :
    (FragmentSet.finishHeader hdr.length (hdr ++ data)).drop hdr.length = data := by
  rw [ipv4MinHeaderSize] at h
  have hlen : ∀ v, (bytes16 v).length = 2 := fun _ => rfl
  have hset : ∀ (raw : List UInt8) (i : ℕ) (v : UInt16), hdr.length ≤ raw.length → i ≤ 10 →
      (blit raw i (bytes16 v)).drop hdr.length = raw.drop hdr.length ∧
        hdr.length ≤ (blit raw i (bytes16 v)).length := by
    intro raw i v hraw hi
    refine ⟨drop_blit _ (by rw [hlen]; omega) (by rw [hlen]; omega), ?_⟩
    rw [length_blit _ (by omega)]
    exact hraw
  rw [FragmentSet.finishHeader]
  dsimp only [IPv4.setTotalLength, IPv4.setFlagsFragmentOffset, IPv4.setChecksum]
  obtain ⟨h1, l1⟩ := hset (hdr ++ data) 2 (UInt16.ofNat (hdr ++ data).length)
    (by rw [List.length_append]; omega) (by omega)
  obtain ⟨h2, l2⟩ := hset _ 6 ((0 : UInt8).toUInt16 <<< 13 ||| ((0 : UInt16) &&& 0x1fff)) l1 (by omega)
  obtain ⟨h3, l3⟩ := hset _ 10 0 l2 (by omega)
  rw [(hset _ 10 _ l3 (by omega)).1, h3, h2, h1, List.drop_left]

theorem drop_bytes (d : Datagram) : d.bytes.drop d.first.networkHeader.length = d.payload :=
  drop_finishHeader d.first.header_len

/-! ### The abstract reassembler -/

/-- The packets of the datagram handed in since it was last returned, after one more: the abstract
    state of the reassembler, for this datagram. -/
def note (d : Datagram) (s : List PacketBuffer) (pb : PacketBuffer) : List PacketBuffer :=
  if pb ∈ d.packets then
    if d.Complete (pb :: s) then [] else if pb ∈ s then s else pb :: s
  else s

/-- The abstract reassembler takes every packet. -/
def noteStep (d : Datagram) (s : List PacketBuffer) (pb : PacketBuffer) : Option (List PacketBuffer) :=
  some (d.note s pb)

/-- The packets of the datagram handed in since it was last returned. -/
def seen (d : Datagram) (pbs : List PacketBuffer) : List PacketBuffer := pbs.foldl d.note []

/-- The reassembler holds exactly the packets `s` of the datagram. -/
structure Tracks (d : Datagram) (s : List PacketBuffer) (r : Reassembler) : Prop where
  held : ∀ now, Held d s ((r.lookup d.key).getD
    { createdAt := now, header := none, fragments := [], totalLen := -1, mem := 0 })
  open_ : ¬d.Complete s

theorem not_complete_nil (d : Datagram) : ¬d.Complete [] :=
  fun h => List.not_mem_nil (h d.first (List.mem_cons_self ..))

theorem tracks_none {r : Reassembler} (h : r.lookup d.key = none) : Tracks d [] r :=
  ⟨fun now => by rw [h]; exact held_nil d now, d.not_complete_nil⟩

theorem tracks_some {r : Reassembler} (h : r.lookup d.key = some set) (hs : Held d s set)
    (ho : ¬d.Complete s) : Tracks d s r :=
  ⟨fun now => by rw [h]; exact hs, ho⟩

theorem Tracks.congr {r r' : Reassembler} (h : Tracks d s r) (he : r'.lookup d.key = r.lookup d.key) :
    Tracks d s r' :=
  ⟨fun now => by rw [he]; exact h.held now, h.open_⟩

/-- A packet that is not held yet is stored. -/
theorem Tracks.stored {r : Reassembler} {now : ℤ} (h : Tracks d s r)
    (hfresh : ∀ e ∈ r.sets, now - e.2.createdAt ≤ r.timeout) (hpb : pb ∈ d.packets) (hs : pb ∉ s) :
    r.intake pb now = .stored (r.replace (keyOf pb) (some (Reassembler.addFragment (r.pending pb now) pb))
        (r.mem + pb.data.length)) (keyOf pb) (Reassembler.addFragment (r.pending pb now) pb) ∧
      Held d (pb :: s) (Reassembler.addFragment (r.pending pb now) pb) := by
  have hheld : Held d s (r.pending pb now) := by
    rw [pending, (mem_packets hpb).1]
    exact h.held now
  refine ⟨?_, hheld.addFragment hpb hs⟩
  rw [intake_eq pb hfresh, if_neg (not_rejects hpb), hheld.overlapping_none hpb hs]
  exact if_neg (hheld.not_conflicts hpb hs)

/-- A packet of the datagram. -/
theorem Tracks.process {r : Reassembler} {now : ℤ} (h : Tracks d s r) (hq : Unpressed r pb now)
    (hpb : pb ∈ d.packets) : ∃ r', r.process pb now
      = some (r', if d.Complete (pb :: s) then some d.bytes else none) ∧ Tracks d (d.note s pb) r' := by
  have hkey : keyOf pb = d.key := (mem_packets hpb).1
  rw [note, if_pos hpb]
  by_cases hs : pb ∈ s
  · -- a duplicate
    have hheld : Held d s (r.pending pb now) := by
      rw [pending, hkey]
      exact h.held now
    have hi := intake_eq pb hq.fresh
    rw [if_neg (not_rejects hpb)] at hi
    have hopen : ¬d.Complete (pb :: s) := by
      refine fun hc => h.open_ fun q hmem => ?_
      rcases List.mem_cons.1 (hc q hmem) with rfl | hq
      · exact hs
      · exact hq
    obtain ⟨frag, hfrag, hsame⟩ := hheld.overlapping_self hpb hs
    rw [hfrag] at hi
    dsimp only at hi
    rw [if_pos hsame] at hi
    refine ⟨_, by rw [Reassembler.process, hi, if_neg hopen], ?_⟩
    rw [if_neg hopen, if_pos hs]
    exact tracks_some (by rw [← hkey]; exact lookup_replace ..) hheld h.open_
  · obtain ⟨hi, hadd⟩ := h.stored hq.fresh hpb hs
    have hproc := process_stored hi hq.room
    by_cases hc : d.Complete (pb :: s)
    · rw [if_pos (hadd.ready_iff.2 hc), hadd.assemble hc, Option.map_some] at hproc
      refine ⟨_, by rw [hproc, if_pos hc]; rfl, ?_⟩
      rw [if_pos hc]
      exact tracks_none (by rw [← hkey, releaseSet_eq, replace_replace]; exact lookup_replace ..)
    · rw [if_neg fun hready => hc (hadd.ready_iff.1 hready)] at hproc
      refine ⟨_, by rw [hproc, if_neg hc], ?_⟩
      rw [if_neg hc, if_neg hs]
      exact tracks_some (by rw [← hkey, store_eq, replace_replace]; exact lookup_replace ..)
        hadd.settled hc

/-- An arrival in a run that shows the datagram at its best: no set has timed out, there is room, and
    the key is used by no other datagram. Fragments under other keys may be anything. -/
structure Calm (d : Datagram) (r : Reassembler) (a : Arrival) : Prop where
  fresh : ∀ e ∈ r.sets, a.now - e.2.createdAt ≤ r.timeout
  room : (r.buffered + a.pb.data.length : ℤ) ≤ ipv4ReassemblyHighThreshold
  own : keyOf a.pb = d.key → a.pb ∈ d.packets

theorem Calm.unpressed {r : Reassembler} {a : Arrival} (h : Calm d r a) (hacc : Accounted r)
    (hh : handed r a) : Unpressed { r with sets := a.order } a.pb a.now :=
  ⟨fun e he => h.fresh e (hh.2.mem_iff.1 he), by rw [hacc.mem]; exact h.room⟩

/-- The reassembler, with its books in order, does what the abstract one does. -/
def Refines (d : Datagram) (r : Reassembler) (s : List PacketBuffer) : Prop :=
  Accounted r ∧ Tracks d s r

theorem Refines.order {r : Reassembler} {a : Arrival} (h : Refines d r s) (hh : handed r a) :
    Refines d { r with sets := a.order } s :=
  ⟨h.1.order hh.2, h.2.congr (lookup_order h.1.keyed hh.2 d.key)⟩

theorem simulates (d : Datagram) :
    Simulates Reassembler.step (Calm d) d.noteStep (Refines d) Arrival.pb := by
  intro r s a r' href hcalm hstep
  rw [Reassembler.step] at hstep
  split_ifs at hstep with hh
  obtain ⟨⟨r₁, out⟩, hproc, he⟩ := Option.map_eq_some_iff.1 hstep
  cases he
  have hord := href.order hh
  have hq := hcalm.unpressed href.1 hh
  obtain ⟨hacc, -, hother⟩ := process_calm hq hord.1 hproc
  refine ⟨_, rfl, hacc, ?_⟩
  by_cases hkey : keyOf a.pb = d.key
  · obtain ⟨r₂, hproc', ht⟩ := hord.2.process hq (hcalm.own hkey)
    have hr := (Prod.mk.inj (Option.some.inj (hproc.symm.trans hproc'))).1
    rw [hr]
    exact ht
  · have hnot : a.pb ∉ d.packets := fun hmem => hkey (mem_packets hmem).1
    rw [note, if_neg hnot]
    exact hord.2.congr (hother d.key fun h => hkey h.symm)

theorem refines_run {as : List Arrival} {r : Reassembler}
    (hr : Run Reassembler.step (Calm d) newIPv4Reassembler as r) :
    Refines d r (d.seen (as.map Arrival.pb)) := by
  have hinit : Refines d newIPv4Reassembler [] :=
    ⟨⟨List.nodup_nil, by simp [newIPv4Reassembler], rfl⟩, tracks_none rfl⟩
  obtain ⟨t, hrun, href⟩ := Simulates.run (simulates d) hr hinit
  have hfold : ∀ {s t : List PacketBuffer} {l : List PacketBuffer},
      Run d.noteStep (fun _ _ => True) s l t → t = l.foldl d.note s := by
    intro s t l h
    induction h with
    | nil => rfl
    | cons _ he _ ih => rw [ih, List.foldl_cons, Option.some.inj he]
  rw [hfold hrun] at href
  exact href

/-- Until it is first returned, what counts is every fragment that has come. -/
theorem mem_seen_iff {pbs : List PacketBuffer} (h : ¬d.Complete pbs) (q : PacketBuffer) :
    q ∈ d.seen pbs ↔ q ∈ d.packets ∧ q ∈ pbs := by
  induction pbs using List.reverseRecOn generalizing q with
  | nil => simp [seen]
  | append_singleton pbs pb ih =>
    have hopen : ¬d.Complete pbs := fun hc => h fun q hq => List.mem_append_left _ (hc q hq)
    have iff_mem := fun q => ih hopen q
    have hnot : ¬d.Complete (pb :: d.seen pbs) := by
      refine fun hc => h fun q hq => ?_
      rcases List.mem_cons.1 (hc q hq) with rfl | hmem
      · exact List.mem_append_right _ (List.mem_singleton_self _)
      · exact List.mem_append_left _ ((iff_mem q).1 hmem).2
    have hseen : d.seen (pbs ++ [pb]) = d.note (d.seen pbs) pb := List.foldl_append
    rw [hseen, note, List.mem_append, List.mem_singleton]
    by_cases hpb : pb ∈ d.packets
    · rw [if_pos hpb, if_neg hnot]
      split
      · rename_i hmem
        rw [iff_mem]
        constructor
        · exact fun hq => ⟨hq.1, .inl hq.2⟩
        · rintro ⟨hq, hq' | rfl⟩
          · exact ⟨hq, hq'⟩
          · exact (iff_mem q).1 hmem
      · rw [List.mem_cons, iff_mem]
        constructor
        · rintro (rfl | hq)
          · exact ⟨hpb, .inr rfl⟩
          · exact ⟨hq.1, .inl hq.2⟩
        · rintro ⟨hq, hq' | rfl⟩
          · exact .inr ⟨hq, hq'⟩
          · exact .inl rfl
    · rw [if_neg hpb, iff_mem]
      refine and_congr_right fun hq => ⟨.inl, ?_⟩
      rintro (hq' | rfl)
      · exact hq'
      · exact absurd hq hpb

/-- CORRECT: whatever order the fragments come in, duplicates and fragments of other datagrams in
    between, `process` returns the datagram exactly with the packet that completes it: with it, all
    its fragments have come since it was last returned. The first time this is when the last fragment
    that has not been seen arrives. What it returns carries the payload. -/
theorem reassembles {as : List Arrival} {r : Reassembler}
    (hr : Run Reassembler.step (Calm d) newIPv4Reassembler as r) {a : Arrival} (hh : handed r a)
    (hcalm : Calm d r a) (hpb : a.pb ∈ d.packets) :
    ∃ r' out, r.arrive a = some (r', out) ∧
      (out.isSome = true ↔ d.Complete (a.pb :: d.seen (as.map Arrival.pb))) ∧
      (¬d.Complete (as.map Arrival.pb) →
        (out.isSome = true ↔ d.Complete (a.pb :: as.map Arrival.pb))) ∧
      ∀ raw ∈ out, raw.drop d.first.networkHeader.length = d.payload := by
  have href := refines_run hr
  obtain ⟨r', hproc, -⟩ := (href.order hh).2.process (hcalm.unpressed href.1 hh) hpb
  have hiff : (if d.Complete (a.pb :: d.seen (as.map Arrival.pb)) then some d.bytes else none).isSome
      = true ↔ d.Complete (a.pb :: d.seen (as.map Arrival.pb)) := by
    split <;> simp_all
  refine ⟨r', _, hproc, hiff, fun hopen => hiff.trans (forall₂_congr fun q hq => ?_), ?_⟩
  · rw [List.mem_cons, List.mem_cons, mem_seen_iff hopen]
    exact or_congr_right (and_iff_right hq)
  · intro raw hraw
    split at hraw
    · cases hraw
      exact d.drop_bytes
    · cases hraw

instance (d : Datagram) (r : Reassembler) (a : Arrival) : Decidable (Calm d r a) :=
  decidable_of_iff ((∀ e ∈ r.sets, a.now - e.2.createdAt ≤ r.timeout) ∧
      (r.buffered + a.pb.data.length : ℤ) ≤ ipv4ReassemblyHighThreshold ∧
      (keyOf a.pb = d.key → a.pb ∈ d.packets))
    ⟨fun h => ⟨h.1, h.2.1, h.2.2⟩, fun h => ⟨h.fresh, h.room, h.own⟩⟩

/-- The second fragment. -/
def sampleRest : PacketBuffer := ⟨sampleHeader 0x0001, [9], length_sampleHeader _⟩

/-- Nine bytes in two fragments. -/
def sample : Datagram where
  key := keyOf (sampleArrival 0x2000 newIPv4Reassembler).pb
  first := (sampleArrival 0x2000 newIPv4Reassembler).pb
  rest := [sampleRest]
  fragmented := by simp
  total := 9
  carries := by decide +kernel
  fits := by decide

/-- The first fragment, pending. -/
def sampleState : Reassembler :=
  (newIPv4Reassembler.step ⟨sample.first, 0, []⟩).getD newIPv4Reassembler

/-- The first fragment, then the second: the datagram is returned. -/
theorem reassembles_two : ∃ r, Run Reassembler.step (Calm sample) newIPv4Reassembler
    [⟨sample.first, 0, []⟩] r ∧
    ∃ r' out, r.arrive ⟨sampleRest, 0, r.sets⟩ = some (r', out) ∧ out.isSome = true ∧
      ∀ raw ∈ out, raw.drop 20 = [1, 2, 3, 4, 5, 6, 7, 8, 9] := by
  obtain ⟨r, hr, hh, hcalm⟩ := exists_run_exec Reassembler.step (Calm sample) newIPv4Reassembler
    [⟨sample.first, 0, []⟩] (fun r => handed r ⟨sampleRest, 0, r.sets⟩ ∧
      Calm sample r ⟨sampleRest, 0, r.sets⟩) (by decide +kernel)
  obtain ⟨r', out, harr, -, hsome, hdata⟩ := reassembles hr hh hcalm
    (List.mem_cons_of_mem _ (List.mem_cons_self ..))
  have hopen : ¬sample.Complete [sample.first] := by decide +kernel
  have hcomplete : sample.Complete [sampleRest, sample.first] := by decide +kernel
  have hpayload : sample.payload = [1, 2, 3, 4, 5, 6, 7, 8, 9] := by decide +kernel
  have hlen : sample.first.networkHeader.length = 20 := by decide +kernel
  rw [hpayload, hlen] at hdata
  exact ⟨r, hr, r', out, harr, (hsome hopen).2 hcomplete, hdata⟩

/-- The fragments of a datagram once more, after it has been returned: they are returned again,
    though no fragment is new. -/
theorem returned_again : ∃ r, Run Reassembler.step (Calm sample) newIPv4Reassembler
    [⟨sample.first, 0, []⟩, ⟨sampleRest, 0, sampleState.sets⟩, ⟨sample.first, 0, []⟩] r ∧
    handed r ⟨sampleRest, 0, r.sets⟩ ∧ Calm sample r ⟨sampleRest, 0, r.sets⟩ ∧
    sampleRest ∈ [sample.first, sampleRest, sample.first] ∧
    ∃ r', r.arrive ⟨sampleRest, 0, r.sets⟩ = some (r', some sample.bytes) := by
  obtain ⟨r, hr, hh, hcalm, harr⟩ := exists_run_exec Reassembler.step (Calm sample) newIPv4Reassembler
    [⟨sample.first, 0, []⟩, ⟨sampleRest, 0, sampleState.sets⟩, ⟨sample.first, 0, []⟩]
    (fun r => handed r ⟨sampleRest, 0, r.sets⟩ ∧ Calm sample r ⟨sampleRest, 0, r.sets⟩ ∧
      (r.arrive ⟨sampleRest, 0, r.sets⟩).map Prod.snd = some (some sample.bytes)) (by decide +kernel)
  obtain ⟨⟨r', out⟩, harr, rfl⟩ := Option.map_eq_some_iff.1 harr
  exact ⟨r, hr, hh, hcalm, by simp, r', harr⟩

end Datagram

end Netstack.Stack
