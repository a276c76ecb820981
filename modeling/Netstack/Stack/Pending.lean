import Netstack.Stack.Fragmentation

/-! What stays true of the pending sets, whatever arrives.

    A set comes about with its first fragment, takes in further ones that do not overlap those it
    has, and is sorted now and then; everything else `process` does is to drop sets. A property that
    these three keep holds of every pending set. -/

namespace Netstack.Stack
open Netstack.Copy Netstack.Header Reassembler

/-- A set as `process` creates it. -/
def freshSet (now : ℤ) : FragmentSet :=
  { createdAt := now, header := none, fragments := [], totalLen := -1, mem := 0 }

/-- A property of sets that a first fragment brings about and that further fragments and sorting keep,
    for packets that come at a time with `P`. -/
structure Kept (P : PacketBuffer → ℤ → Prop) (Q : FragmentSet → Prop) : Prop where
  first : ∀ {pb : PacketBuffer} {now : ℤ}, P pb now → pb.data.length ≠ 0 → Q (addFragment (freshSet now) pb)
  add : ∀ {set : FragmentSet} {pb : PacketBuffer} {now : ℤ}, P pb now → Q set → pb.data.length ≠ 0 →
    overlapping set (offsetOf pb) (offsetOf pb + pb.data.length) = none → Q (addFragment set pb)
  sorted : ∀ {set : FragmentSet}, Q set → Q set.sorted

section
variable {r r' : Reassembler} {pb : PacketBuffer} {now : ℤ} {key : FragmentKey} {set : FragmentSet}
  {out : Option (List UInt8)} {P : PacketBuffer → ℤ → Prop} {Q : FragmentSet → Prop}

/-- The set of a packet is a pending one or a new one. -/
theorem pending_cases (h : ∀ e ∈ r.sets, Q e.2) (pb : PacketBuffer) (now : ℤ) :
    Q (r.pending pb now) ∨ r.pending pb now = freshSet now := by
  rw [Reassembler.pending, lookup]
  cases hf : r.sets.find? (·.1 = keyOf pb) with
  | none => exact .inr rfl
  | some e => exact .inl (h e (List.mem_of_find?_eq_some hf))

theorem forall_store (h : ∀ e ∈ r.sets, Q e.2) (hs : Q set) : ∀ e ∈ (r.store key set).sets, Q e.2 := by
  intro e he
  rcases List.mem_cons.1 he with rfl | he
  · exact hs
  · exact h e (List.mem_filter.1 he).1

/-- Storing and then dropping, or storing twice, leaves only the other sets and the last one. -/
theorem mem_store_filter {e : FragmentKey × FragmentSet} {x : FragmentSet}
    (he : e ∈ (r.store key x).sets.filter (·.1 ≠ key)) : e ∈ r.sets := by
  obtain ⟨hmem, hne⟩ := List.mem_filter.1 he
  rcases List.mem_cons.1 hmem with rfl | hmem
  · simp at hne
  · exact (List.mem_filter.1 hmem).1

theorem Kept.intake (hQ : Kept P Q) (hP : P pb now) (h : ∀ e ∈ r.sets, Q e.2) : match r.intake pb now with
    | .dropped r' => ∀ e ∈ r'.sets, Q e.2
    | .stored r' _ set => (∀ e ∈ r'.sets, Q e.2) ∧ Q set := by
  have hev : ∀ e ∈ (r.evictExpired now).sets, Q e.2 := fun e he => h e (evictExpired_subset r now he)
  have hpend := pending_cases hev pb now
  rw [Reassembler.intake]
  dsimp only
  by_cases h0 : pb.data.length = 0
  · rw [if_pos h0]
    exact h
  by_cases hmax : offsetOf pb + pb.data.length > ipv4MaxPayloadSize
  · rw [if_neg h0, if_pos hmax]
    exact h
  by_cases halign : IPv4.more pb.networkHeader = true ∧ pb.data.length % 8 ≠ 0
  · rw [if_neg h0, if_neg hmax, if_pos halign]
    exact h
  rw [if_neg h0, if_neg hmax, if_neg halign]
  cases ho : overlapping ((r.evictExpired now).pending pb now) (offsetOf pb)
      (offsetOf pb + pb.data.length) with
  | some frag =>
    -- a new set has nothing to overlap with
    have hold : Q ((r.evictExpired now).pending pb now) := hpend.resolve_right fun hfresh => by
      rw [hfresh] at ho
      cases ho
    dsimp only
    split_ifs
    · exact forall_store hev hold
    · exact fun e he => hev e (mem_store_filter he)
  | none =>
    have hadd : Q (addFragment ((r.evictExpired now).pending pb now) pb) := by
      rcases hpend with hold | hfresh
      · exact hQ.add hP hold h0 ho
      · rw [hfresh]
        exact hQ.first hP h0
    dsimp only
    split_ifs
    · exact fun e he => hev e (mem_store_filter he)
    · refine ⟨fun e he => ?_, hadd⟩
      rcases List.mem_cons.1 he with rfl | he
      · exact hadd
      · exact hev e (mem_store_filter he)

theorem Kept.process (hQ : Kept P Q) (hP : P pb now) (h : ∀ e ∈ r.sets, Q e.2)
    (hp : r.process pb now = some (r', out)) : ∀ e ∈ r'.sets, Q e.2 := by
  have hin := @Kept.intake r pb now P Q hQ hP h
  rw [Reassembler.process] at hp
  cases hi : r.intake pb now with
  | dropped r₁ =>
    rw [hi] at hp hin
    cases hp
    exact hin
  | stored r₁ key set =>
    rw [hi] at hp hin
    dsimp only at hp
    split_ifs at hp with hready hsort
    · obtain ⟨raw, -, he⟩ := Option.map_eq_some_iff.1 hp
      cases he
      exact fun e he => hin.1 e (releaseSet_subset _ _ _ he)
    · cases hp
      exact fun e he => forall_store hin.1 (hQ.sorted hin.2) e (trimMemory_subset _ _ he)
    · cases hp
      exact fun e he => forall_store hin.1 hin.2 e (trimMemory_subset _ _ he)

/-- A datagram is returned if the set of the packet is ready, and then that of the set. -/
theorem process_out (h : r.process pb now = some (r', out)) : match r.intake pb now with
    | .dropped _ => out = none
    | .stored _ _ set => (ready set = true ∧ out.isSome = true ∧ out = set.sorted.assemble) ∨
        (ready set = false ∧ out = none) := by
  rw [Reassembler.process] at h
  cases hi : r.intake pb now with
  | dropped r₁ =>
    rw [hi] at h
    cases h
    rfl
  | stored r₁ key set =>
    rw [hi] at h
    dsimp only at h ⊢
    by_cases hready : ready set = true
    · rw [if_pos hready] at h
      obtain ⟨raw, hraw, he⟩ := Option.map_eq_some_iff.1 h
      cases he
      exact .inl ⟨hready, rfl, hraw.symm⟩
    · rw [if_neg hready] at h
      cases h
      exact .inr ⟨by simpa using hready, rfl⟩

end

/-! ### Fragments that do not overlap -/

/-- Two fragments do not overlap. -/
def Fragment.Apart (a b : Fragment) : Prop :=
  a.offset + a.data.length ≤ b.offset ∨ b.offset + b.data.length ≤ a.offset

/-- The header is a header, and the fragments are not empty and do not overlap. -/
structure FragmentSet.Sane (set : FragmentSet) : Prop where
  header : ∀ h ∈ set.header, ipv4MinHeaderSize ≤ h.length
  apart : set.fragments.Pairwise Fragment.Apart
  pos : ∀ frag ∈ set.fragments, 0 < frag.data.length

theorem FragmentSet.Sane.addFragment {set : FragmentSet} {pb : PacketBuffer} (h : set.Sane)
    (h0 : pb.data.length ≠ 0)
    (ho : overlapping set (offsetOf pb) (offsetOf pb + pb.data.length) = none) :
    (Reassembler.addFragment set pb).Sane := by
  rw [overlapping, List.find?_eq_none] at ho
  refine ⟨?_, ?_, ?_⟩
  · intro hdr hhdr
    rw [Reassembler.addFragment] at hhdr
    dsimp only at hhdr
    split_ifs at hhdr
    · cases hhdr
      exact pb.header_len
    · exact h.header hdr hhdr
  · refine List.pairwise_append.2 ⟨h.apart, List.pairwise_singleton _ _, ?_⟩
    intro frag hfrag q hq
    rw [List.mem_singleton.1 hq]
    have := ho frag hfrag
    simp only [Bool.not_eq_true, Bool.not_eq_false', Bool.or_eq_true, decide_eq_true_eq] at this
    exact this.symm
  · intro frag hfrag
    rcases List.mem_append.1 hfrag with hfrag | hfrag
    · exact h.pos frag hfrag
    · rw [List.mem_singleton.1 hfrag]
      exact Nat.pos_of_ne_zero h0

theorem kept_sane : Kept (fun _ _ => True) FragmentSet.Sane where
  first {_ now} _ h0 := by
    have hfresh : (freshSet now).Sane := ⟨by simp [freshSet], List.Pairwise.nil, by simp [freshSet]⟩
    exact hfresh.addFragment h0 rfl
  add _ h h0 ho := h.addFragment h0 ho
  sorted := by
    intro set h
    have hperm : set.sorted.fragments.Perm set.fragments := List.perm_insertionSort _ _
    refine ⟨h.header, (hperm.pairwise_iff fun hab => hab.symm).2 h.apart, fun frag hfrag => ?_⟩
    exact h.pos frag (hperm.mem_iff.1 hfrag)

end Netstack.Stack
