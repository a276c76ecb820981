import Netstack.Stack.Pending
import Netstack.Stack.Reassembly

/-! The books of the reassembler, in every run.

    Sets are created, extended, completed, dropped on overlap or conflict, expired and evicted on
    different paths; the global counter and those of the sets stay in step on all of them, and the
    counter never falls below zero when a set is released. -/

namespace Netstack.Stack
open Netstack.Copy Netstack.Header Netstack.Trace

namespace Reassembler

variable {r r' : Reassembler} {key : FragmentKey} {set : FragmentSet} {pb : PacketBuffer} {now : ℤ}
  {out : Option (List UInt8)}

/-! ### Expired sets -/

/-- The loop of `evictExpiredLocked` over the entries left. -/
def evictLoop (now : ℤ) (l : List (FragmentKey × FragmentSet)) (r : Reassembler) : Reassembler :=
  l.foldl (fun r e => if now - e.2.createdAt > r.timeout then r.releaseSet e.1 e.2 else r) r

/-- The sets it releases, each with the state it is released from. -/
def evictReleases (now : ℤ) : List (FragmentKey × FragmentSet) → Reassembler →
    List (Reassembler × FragmentSet)
  | [], _ => []
  | e :: l, r =>
    if now - e.2.createdAt > r.timeout then (r, e.2) :: evictReleases now l (r.releaseSet e.1 e.2)
    else evictReleases now l r

/-- A release from books that cover the set. -/
def Covered (p : Reassembler × FragmentSet) : Prop := p.2.mem ≤ p.1.mem

/-- The loop keeps the books, leaves nothing behind that has expired, and releases only what the
    books cover. -/
theorem evictLoop_books : ∀ {l : List (FragmentKey × FragmentSet)} {r : Reassembler}, Accounted r →
    (l.map Prod.fst).Nodup → l ⊆ r.sets →
    (∀ e ∈ r.sets, e ∈ l ∨ now - e.2.createdAt ≤ r.timeout) →
    Accounted (evictLoop now l r) ∧ (evictLoop now l r).timeout = r.timeout ∧
    (∀ e ∈ (evictLoop now l r).sets, now - e.2.createdAt ≤ r.timeout) ∧
    (evictLoop now l r).mem ≤ r.mem ∧ ∀ p ∈ evictReleases now l r, Covered p
  | [], r, h, _, _, hl =>
    ⟨h, rfl, fun e he => (hl e he).resolve_left List.not_mem_nil, le_refl _, fun _ hp => by cases hp⟩
  | e :: l, r, h, hn, hsub, hl => by
      rw [List.map_cons, List.nodup_cons] at hn
      rw [evictLoop, List.foldl_cons, evictReleases]
      by_cases hexp : now - e.2.createdAt > r.timeout
      · have hlook : r.lookup e.1 = some e.2 := (mem_sets_iff h.keyed).1 (hsub (List.mem_cons_self ..))
        have hle := h.mem_le hlook
        have hpos : 0 ≤ e.2.mem := by
          rw [h.sets e (hsub (List.mem_cons_self ..))]
          exact Int.natCast_nonneg _
        have hsub' : l ⊆ (r.releaseSet e.1 e.2).sets := by
          intro q hq
          refine List.mem_filter.2 ⟨hsub (List.mem_cons_of_mem _ hq), ?_⟩
          have hne : q.1 ≠ e.1 := fun hk => hn.1 (hk ▸ List.mem_map_of_mem hq)
          simpa using hne
        have hl' : ∀ q ∈ (r.releaseSet e.1 e.2).sets, q ∈ l ∨ now - q.2.createdAt ≤ r.timeout := by
          intro q hq
          obtain ⟨hmem, hne⟩ := List.mem_filter.1 hq
          refine (hl q hmem).imp_left fun hq' => ?_
          rcases List.mem_cons.1 hq' with rfl | hq'
          · simp at hne
          · exact hq'
        obtain ⟨h1, h2, h3, h4, h5⟩ := @evictLoop_books l (r.releaseSet e.1 e.2) (h.release hlook).accounted hn.2 hsub' hl'
        rw [if_pos hexp, if_pos hexp]
        have hmem : (r.releaseSet e.1 e.2).mem ≤ r.mem := by
          show max 0 (r.mem - e.2.mem) ≤ r.mem
          omega
        exact ⟨h1, h2, h3, h4.trans hmem, List.forall_mem_cons.2 ⟨hle, h5⟩⟩
      · rw [if_neg hexp, if_neg hexp]
        refine evictLoop_books h hn.2 (fun q hq => hsub (List.mem_cons_of_mem _ hq)) fun q hq => ?_
        rcases hl q hq with hq | hq
        · rcases List.mem_cons.1 hq with rfl | hq
          · exact .inr (by omega)
          · exact .inl hq
        · exact .inr hq

theorem evictExpired_books (h : Accounted r) (now : ℤ) : Accounted (r.evictExpired now) ∧
    (r.evictExpired now).timeout = r.timeout ∧
    (∀ e ∈ (r.evictExpired now).sets, now - e.2.createdAt ≤ r.timeout) ∧
    (r.evictExpired now).mem ≤ r.mem ∧ ∀ p ∈ evictReleases now r.sets r, Covered p :=
  evictLoop_books h h.keyed (List.Subset.refl _) fun _ he => .inl he

/-! ### Memory pressure -/

theorem oldest_mem : ∀ {l : List (FragmentKey × FragmentSet)} {e : FragmentKey × FragmentSet},
    oldest l = some e → e ∈ l
  | [], _, h => by cases h
  | e :: l, q, h => by
      have hfold : ∀ (l : List (FragmentKey × FragmentSet)) (o : FragmentKey × FragmentSet),
          l.foldl (fun o e => if e.2.createdAt < o.2.createdAt then e else o) o ∈ o :: l := by
        intro l
        induction l with
        | nil => exact fun o => List.mem_cons_self ..
        | cons e l ih =>
          intro o
          rw [List.foldl_cons]
          rcases List.mem_cons.1 (ih (if e.2.createdAt < o.2.createdAt then e else o)) with he | he
          · rw [he]
            split_ifs
            · exact List.mem_cons_of_mem _ (List.mem_cons_self ..)
            · exact List.mem_cons_self ..
          · exact List.mem_cons_of_mem _ (List.mem_cons_of_mem _ he)
      rw [oldest] at h
      exact Option.some.inj h ▸ hfold l e

/-- The sets `trimMemoryLocked` releases, each with the state it is released from. -/
def trimReleases : ℕ → Reassembler → List (Reassembler × FragmentSet)
  | 0, _ => []
  | fuel + 1, r =>
    if r.mem > ipv4ReassemblyHighThreshold then
      match oldest r.sets with
      | none => []
      | some (key, set) =>
        (r, set) :: (if (r.releaseSet key set).mem ≤ ipv4ReassemblyLowThreshold then []
          else trimReleases fuel (r.releaseSet key set))
    else []

/-- Trimming keeps the books and brings the counter down. -/
theorem trimMemory_books : ∀ {fuel : ℕ} {r : Reassembler}, Accounted r → r.sets.length < fuel →
    Accounted (r.trimMemory fuel) ∧ (r.trimMemory fuel).mem ≤ ipv4ReassemblyHighThreshold ∧
    (r.trimMemory fuel).timeout = r.timeout ∧ ∀ p ∈ trimReleases fuel r, Covered p
  | 0, _, _, hf => by omega
  | fuel + 1, r, h, hf => by
      rw [trimMemory, trimReleases]
      by_cases hhigh : r.mem > ipv4ReassemblyHighThreshold
      · rw [if_pos hhigh, if_pos hhigh]
        cases ho : oldest r.sets with
        | none =>
          -- nothing is pending, so nothing is buffered
          have hnil : r.sets = [] := by
            cases hs : r.sets with
            | nil => rfl
            | cons e l => rw [hs, oldest] at ho; cases ho
          have hmem : r.mem = 0 := by rw [h.mem, buffered, hnil]; rfl
          rw [ipv4ReassemblyHighThreshold] at hhigh
          omega
        | some e =>
          obtain ⟨key, set⟩ := e
          have hmem : (key, set) ∈ r.sets := oldest_mem ho
          have hlook : r.lookup key = some set := (mem_sets_iff h.keyed).1 hmem
          have hacc := (h.release hlook).accounted
          have hlen : (r.releaseSet key set).sets.length < r.sets.length :=
            List.length_filter_lt_length_iff_exists.2 ⟨_, hmem, by simp⟩
          dsimp only
          by_cases hlow : (r.releaseSet key set).mem ≤ ipv4ReassemblyLowThreshold
          · rw [if_pos hlow, if_pos hlow]
            refine ⟨hacc, ?_, rfl, List.forall_mem_singleton.2 (h.mem_le hlook)⟩
            rw [ipv4ReassemblyLowThreshold] at hlow
            rw [ipv4ReassemblyHighThreshold]
            omega
          · rw [if_neg hlow, if_neg hlow]
            obtain ⟨h1, h2, h3, h4⟩ := @trimMemory_books fuel _ hacc (by omega)
            exact ⟨h1, h2, h3, List.forall_mem_cons.2 ⟨h.mem_le hlook, h4⟩⟩
      · rw [if_neg hhigh, if_neg hhigh]
        exact ⟨h, by omega, rfl, fun _ hp => by cases hp⟩

/-! ### A call of `process` -/

/-- The sets `process` releases before the call of `complete`. -/
def intakeReleases (r : Reassembler) (pb : PacketBuffer) (now : ℤ) : List (Reassembler × FragmentSet) :=
  if pb.data.length = 0 then []
  else if offsetOf pb + pb.data.length > ipv4MaxPayloadSize then []
  else if IPv4.more pb.networkHeader ∧ pb.data.length % 8 ≠ 0 then []
  else
    let expired := evictReleases now r.sets r
    let r := r.evictExpired now
    let set := r.pending pb now
    let r := r.store (keyOf pb) set
    let stop := offsetOf pb + pb.data.length
    match overlapping set (offsetOf pb) stop with
    | some frag =>
      if offsetOf pb = frag.offset ∧ stop = frag.offset + frag.data.length then expired
      else expired ++ [(r, set)]
    | none =>
      if !IPv4.more pb.networkHeader ∧ set.totalLen ≥ 0 ∧ set.totalLen ≠ stop then expired ++ [(r, set)]
      else expired

/-- The sets `process` releases, each with the state it is released from. -/
def releases (r : Reassembler) (pb : PacketBuffer) (now : ℤ) : List (Reassembler × FragmentSet) :=
  r.intakeReleases pb now ++
    match r.intake pb now with
    | .dropped _ => []
    | .stored r key set =>
      if ready set then [(r, set)]
      else
        let r := r.store key (settled set)
        trimReleases (r.sets.length + 1) r

/-- A packet that has a place meets the state after the expired sets are gone. -/
theorem intake_evicted (h : Accounted r) (hrej : ¬rejects pb) :
    r.intake pb now = (r.evictExpired now).intake pb now := by
  obtain ⟨-, htime, hfresh, -⟩ := evictExpired_books h now
  have hsame : (r.evictExpired now).evictExpired now = r.evictExpired now :=
    evictExpired_eq (by rw [htime]; exact hfresh)
  have h0 : ¬pb.data.length = 0 := fun h0 => hrej (.inl h0)
  have hmax : ¬offsetOf pb + pb.data.length > ipv4MaxPayloadSize := fun hmax => hrej (.inr (.inl hmax))
  have halign : ¬(IPv4.more pb.networkHeader = true ∧ pb.data.length % 8 ≠ 0) :=
    fun halign => hrej (.inr (.inr halign))
  rw [intake, intake]
  dsimp only
  rw [if_neg h0, if_neg h0, if_neg hmax, if_neg hmax, if_neg halign, if_neg halign, hsame]

theorem intake_rejected (hrej : rejects pb) : r.intake pb now = .dropped r := by
  rw [intake]
  rcases hrej with h | h | h
  · rw [if_pos h]
  · rw [PacketBuffer.stop] at h
    dsimp only
    split_ifs
    all_goals rfl
  · dsimp only
    split_ifs
    all_goals rfl

/-- What a call leaves of the books before it returns a packet or trims. -/
theorem intake_accounts (h : Accounted r) (pb : PacketBuffer) (now : ℤ) : match r.intake pb now with
    | .dropped r' => Accounted r' ∧ r'.mem ≤ r.mem
    | .stored r' key set => Accounted r' ∧ r'.mem ≤ r.mem + pb.data.length ∧
        r'.lookup key = some set ∧ pb.data.length ≤ set.mem := by
  by_cases hrej : rejects pb
  · rw [intake_rejected hrej]
    exact ⟨h, le_rfl⟩
  · obtain ⟨hacc, htime, hfresh, hmem, -⟩ := evictExpired_books h now
    rw [← htime] at hfresh
    have hin := intake_books pb hfresh hacc
    rw [intake_evicted h hrej]
    cases hi : (r.evictExpired now).intake pb now with
    | dropped r' =>
      rw [hi] at hin
      exact ⟨hin.1.accounted, hin.2.trans hmem⟩
    | stored r' key set =>
      rw [hi] at hin
      obtain ⟨-, hbook, hadd, hlook, hle⟩ := hin
      exact ⟨hbook.accounted, by omega, hlook, hle⟩

theorem process_accounts (h : Accounted r) (hhigh : r.mem ≤ ipv4ReassemblyHighThreshold)
    (hp : r.process pb now = some (r', out)) :
    Accounted r' ∧ r'.mem ≤ ipv4ReassemblyHighThreshold := by
  have hin := intake_accounts h pb now
  rw [process] at hp
  cases hi : r.intake pb now with
  | dropped r₁ =>
    rw [hi] at hin hp
    cases hp
    exact ⟨hin.1, hin.2.trans hhigh⟩
  | stored r₁ key set =>
    rw [hi] at hin hp
    obtain ⟨hacc, hmem, hlook, hle⟩ := hin
    dsimp only at hp
    split at hp
    · obtain ⟨raw, -, hraw⟩ := Option.map_eq_some_iff.1 hp
      cases hraw
      refine ⟨(hacc.release hlook).accounted, ?_⟩
      show max 0 (r₁.mem - set.mem) ≤ _
      rw [ipv4ReassemblyHighThreshold] at hhigh ⊢
      omega
    · cases hp
      rw [← settled]
      obtain ⟨h1, h2, -⟩ := trimMemory_books (hacc.settle hlook).accounted (Nat.lt_succ_self _)
      exact ⟨h1, h2⟩

/-- The set a packet falls into is covered, be it new. -/
theorem pending_covered (h : Accounted r) (pb : PacketBuffer) (now : ℤ) : (r.pending pb now).mem ≤ r.mem := by
  rw [pending]
  cases hl : r.lookup (keyOf pb) with
  | none =>
    rw [Option.getD_none, h.mem]
    exact Int.natCast_nonneg _
  | some set => exact h.mem_le hl

/-- Whatever `process` releases, the counter covers it. -/
theorem releases_covered (h : Accounted r) : ∀ p ∈ r.releases pb now, Covered p := by
  have hintake : ∀ p ∈ r.intakeReleases pb now, Covered p := by
    obtain ⟨hacc, -, -, -, hev⟩ := evictExpired_books h now
    have hlast : Covered ((r.evictExpired now).store (keyOf pb) ((r.evictExpired now).pending pb now),
        (r.evictExpired now).pending pb now) := pending_covered hacc pb now
    have hboth := List.forall_mem_append.2 ⟨hev, List.forall_mem_singleton.2 hlast⟩
    intro p hp
    rw [intakeReleases] at hp
    dsimp only at hp
    split at hp
    · cases hp
    split at hp
    · cases hp
    split at hp
    · cases hp
    split at hp
    · split at hp
      · exact hev p hp
      · exact hboth p hp
    · split at hp
      · exact hboth p hp
      · exact hev p hp
  have hin := intake_accounts h pb now
  rw [releases]
  refine List.forall_mem_append.2 ⟨hintake, ?_⟩
  cases hi : r.intake pb now with
  | dropped r₁ => exact fun p hp => by cases hp
  | stored r₁ key set =>
    rw [hi] at hin
    obtain ⟨hacc, -, hlook, -⟩ := hin
    dsimp only
    split
    · exact List.forall_mem_singleton.2 (hacc.mem_le hlook)
    · exact (trimMemory_books (hacc.settle hlook).accounted (Nat.lt_succ_self _)).2.2.2

/-! ### In every run -/

/-- A stored set is not empty. -/
theorem kept_nonempty : Kept (fun _ _ => True) fun set => set.fragments ≠ [] where
  first _ _ := by simp [addFragment]
  add _ _ _ _ := by simp [addFragment]
  sorted := by
    intro set h hnil
    have hperm : set.sorted.fragments.Perm set.fragments := List.perm_insertionSort _ _
    rw [hnil] at hperm
    exact h hperm.symm.eq_nil

/-- The books are in order, within their limit, and every set has its fragments apart. -/
structure Books (r : Reassembler) : Prop where
  accounted : Accounted r
  high : r.mem ≤ ipv4ReassemblyHighThreshold
  nonempty : ∀ e ∈ r.sets, e.2.fragments ≠ []
  sane : ∀ e ∈ r.sets, e.2.Sane

theorem books_reach (hr : Reach (· = newIPv4Reassembler) step (fun _ _ => True) r) : Books r := by
  refine hr.invariant (fun s hs => ?_) (fun s a s' hs _ hstep => ?_)
  · subst hs
    exact ⟨⟨List.nodup_nil, by simp [newIPv4Reassembler], rfl⟩, by decide, by simp [newIPv4Reassembler],
      by simp [newIPv4Reassembler]⟩
  · unfold Reassembler.step at hstep
    split_ifs at hstep with hh
    obtain ⟨⟨r', out⟩, hproc, rfl⟩ := Option.map_eq_some_iff.1 hstep
    obtain ⟨h1, h2⟩ := process_accounts (hs.accounted.order hh.2) hs.high hproc
    exact ⟨h1, h2, kept_nonempty.process trivial (fun e he => hs.nonempty e (hh.2.mem_iff.1 he)) hproc,
      kept_sane.process trivial (fun e he => hs.sane e (hh.2.mem_iff.1 he)) hproc⟩

/-- SAFE: in every state of every run, the counter is the sum of those of the sets, each of which
    counts the bytes of its fragments; no set is empty or has fragments that overlap; the counter is
    at most the high threshold; and whatever the next call releases, the counter covers it. -/
theorem books_in_order (hr : Reach (· = newIPv4Reassembler) step (fun _ _ => True) r) :
    r.mem = (r.sets.map fun e => e.2.mem).sum ∧
    (∀ e ∈ r.sets, e.2.mem = (e.2.fragments.map fun frag => (frag.data.length : ℤ)).sum ∧
      e.2.fragments ≠ [] ∧ e.2.fragments.Pairwise Fragment.Apart) ∧
    r.mem ≤ ipv4ReassemblyHighThreshold ∧
    ∀ a, handed r a → ∀ p ∈ { r with sets := a.order }.releases a.pb a.now, p.2.mem ≤ p.1.mem := by
  have hb := books_reach hr
  refine ⟨?_, fun e he => ⟨?_, hb.nonempty e he, (hb.sane e he).apart⟩, hb.high,
    fun a hh p hp => releases_covered (hb.accounted.order hh.2) p hp⟩
  · have hsum : ((r.sets.map fun e => e.2.mem)).sum = ((r.sets.map fun e => e.2.bytes).sum : ℕ) := by
      rw [Nat.cast_list_sum, List.map_map]
      exact congrArg List.sum (List.map_congr_left fun e he => hb.accounted.sets e he)
    rw [hb.accounted.mem, hsum]
    rfl
  · rw [hb.accounted.sets e he, FragmentSet.bytes, Nat.cast_list_sum, List.map_map]
    rfl

/-- One fragment of eight bytes is pending. -/
theorem books_in_order_early : earlyState.sets ≠ [] ∧ earlyState.mem = 8 ∧
    (earlyState.mem = (earlyState.sets.map fun e => e.2.mem).sum ∧
    (∀ e ∈ earlyState.sets, e.2.mem = (e.2.fragments.map fun frag => (frag.data.length : ℤ)).sum ∧
      e.2.fragments ≠ [] ∧ e.2.fragments.Pairwise Fragment.Apart) ∧
    earlyState.mem ≤ ipv4ReassemblyHighThreshold ∧
    ∀ a, handed earlyState a → ∀ p ∈ { earlyState with sets := a.order }.releases a.pb a.now,
      p.2.mem ≤ p.1.mem) := by
  have h1 : newIPv4Reassembler.step (sampleArrival 0x2003 newIPv4Reassembler) = some earlyState := by
    decide +kernel
  exact ⟨by decide +kernel, by decide +kernel, books_in_order (.next (.start rfl) trivial h1)⟩

end Reassembler
end Netstack.Stack
