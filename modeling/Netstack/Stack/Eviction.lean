import Netstack.Stack.Accounting

/-! Memory pressure: which sets `trimMemoryLocked` evicts, and where it stops.

    Each turn of the loop releases the oldest pending set, so what goes is older than what stays.
    The loop runs while the counter is above the high threshold. The test on the low one in its body
    decides nothing, for a counter at or below the low threshold ends the loop anyway: the trim stops
    below the high threshold, and gets to the low one only when one eviction leaps over the band
    between them. -/

namespace Netstack.Stack

namespace Reassembler

variable {r r' : Reassembler} {e : FragmentKey × FragmentSet} {gone : List (FragmentKey × FragmentSet)}
  {fuel : ℕ}

/-- The counter once the sets of `gone` are released, one after the other. -/
def left (mem : ℤ) (gone : List (FragmentKey × FragmentSet)) : ℤ :=
  gone.foldl (fun mem e => max 0 (mem - e.2.mem)) mem

/-- `r'` is `r` with the sets of `gone` evicted: whole sets, in order of creation, none of them
    younger than one that is kept. -/
structure Evicts (r r' : Reassembler) (gone : List (FragmentKey × FragmentSet)) : Prop where
  sets : r.sets.Perm (gone ++ r'.sets)
  order : gone.Pairwise fun a b => a.2.createdAt ≤ b.2.createdAt
  older : ∀ a ∈ gone, ∀ b ∈ r'.sets, a.2.createdAt ≤ b.2.createdAt
  mem : r'.mem = left r.mem gone
  timeout : r'.timeout = r.timeout

theorem foldl_oldest_le : ∀ (l : List (FragmentKey × FragmentSet)) (o : FragmentKey × FragmentSet),
    ∀ q ∈ o :: l, (l.foldl (fun o e => if e.2.createdAt < o.2.createdAt then e else o) o).2.createdAt
      ≤ q.2.createdAt
  | [], o, q, hq => by rw [List.mem_singleton.1 hq, List.foldl_nil]
  | e :: l, o, q, hq => by
      have hrest := foldl_oldest_le l (if e.2.createdAt < o.2.createdAt then e else o)
      have hnew := hrest _ (List.mem_cons_self ..)
      rw [List.foldl_cons]
      rcases List.mem_cons.1 hq with rfl | hq
      · split_ifs at hnew ⊢ with hlt
        · exact hnew.trans hlt.le
        · exact hnew
      rcases List.mem_cons.1 hq with rfl | hq
      · split_ifs at hnew ⊢ with hlt
        · exact hnew
        · exact hnew.trans (not_lt.1 hlt)
      · exact hrest q (List.mem_cons_of_mem _ hq)

/-- No pending set is older than the one chosen. -/
theorem oldest_le : ∀ {l : List (FragmentKey × FragmentSet)}, oldest l = some e →
    ∀ q ∈ l, e.2.createdAt ≤ q.2.createdAt
  | [], h => by cases h
  | o :: l, h => by
      rw [oldest] at h
      exact Option.some.inj h ▸ foldl_oldest_le l o

/-- A release takes one set out of the map. -/
theorem perm_releaseSet (hkeys : (r.sets.map Prod.fst).Nodup) (he : e ∈ r.sets) :
    r.sets.Perm (e :: (r.releaseSet e.1 e.2).sets) := by
  obtain ⟨l, hl⟩ := List.mem_iff_append.1 he
  obtain ⟨l', hl⟩ := hl
  have hnot : ∀ q ∈ l ++ l', decide (q.1 ≠ e.1) = true := by
    rw [hl, List.map_append, List.map_cons, List.nodup_middle, ← List.map_append] at hkeys
    exact fun q hq => decide_eq_true fun h => (List.nodup_cons.1 hkeys).1 (h ▸ List.mem_map_of_mem hq)
  have hself : decide (e.1 ≠ e.1) = false := decide_eq_false fun h => h rfl
  have hrest : (r.releaseSet e.1 e.2).sets = l ++ l' := by
    show r.sets.filter (fun q => decide (q.1 ≠ e.1)) = l ++ l'
    rw [hl, List.filter_append, List.filter_cons, hself, if_neg Bool.false_ne_true, ← List.filter_append]
    exact List.filter_eq_self.2 hnot
  rw [hrest, hl]
  exact List.perm_middle

theorem nodup_releaseSet (hkeys : (r.sets.map Prod.fst).Nodup) (e : FragmentKey × FragmentSet) :
    ((r.releaseSet e.1 e.2).sets.map Prod.fst).Nodup :=
  hkeys.sublist (List.filter_sublist.map _)

/-- The oldest set goes first. -/
theorem Evicts.cons (hkeys : (r.sets.map Prod.fst).Nodup) (ho : oldest r.sets = some e)
    (h : Evicts (r.releaseSet e.1 e.2) r' gone) : Evicts r r' (e :: gone) := by
  have hperm := perm_releaseSet hkeys (oldest_mem ho)
  have hrest : ∀ q ∈ gone ++ r'.sets, e.2.createdAt ≤ q.2.createdAt := fun q hq =>
    oldest_le ho q (hperm.mem_iff.2 (List.mem_cons_of_mem _ (h.sets.mem_iff.2 hq)))
  refine ⟨hperm.trans (h.sets.cons e), List.pairwise_cons.2 ⟨fun q hq => ?_, h.order⟩, ?_, h.mem, h.timeout⟩
  · exact hrest q (List.mem_append_left _ hq)
  · refine List.forall_mem_cons.2 ⟨fun q hq => hrest q (List.mem_append_right _ hq), h.older⟩

theorem Evicts.refl (r : Reassembler) : Evicts r r [] :=
  ⟨List.Perm.refl _, .nil, fun _ ha => absurd ha List.not_mem_nil, rfl, rfl⟩

/-! ### The loop -/

theorem trimMemory_of_le (h : r.mem ≤ ipv4ReassemblyHighThreshold) : r.trimMemory fuel = r := by
  cases fuel with
  | zero => rfl
  | succ fuel => rw [trimMemory, if_neg (not_lt.2 h)]

theorem trimReleases_of_le (h : r.mem ≤ ipv4ReassemblyHighThreshold) : trimReleases fuel r = [] := by
  cases fuel with
  | zero => rfl
  | succ fuel => rw [trimReleases, if_neg (not_lt.2 h)]

theorem low_lt_high : ipv4ReassemblyLowThreshold < ipv4ReassemblyHighThreshold := by decide

/-- A turn of the loop: the exit on the low threshold is one the loop takes anyway. -/
theorem trimMemory_turn (hhigh : r.mem > ipv4ReassemblyHighThreshold) (ho : oldest r.sets = some e) :
    r.trimMemory (fuel + 1) = (r.releaseSet e.1 e.2).trimMemory fuel ∧
    trimReleases (fuel + 1) r = (r, e.2) :: trimReleases fuel (r.releaseSet e.1 e.2) := by
  rw [trimMemory, trimReleases, if_pos hhigh, if_pos hhigh, ho]
  dsimp only
  split_ifs with hlow
  · have hle := hlow.trans low_lt_high.le
    rw [trimMemory_of_le hle, trimReleases_of_le hle]
    exact ⟨rfl, rfl⟩
  · exact ⟨rfl, rfl⟩

/-- Where no set counts more than the band is wide, a trim never gets to the low threshold. -/
theorem low_lt_trimMemory : ∀ {fuel : ℕ} {r : Reassembler}, (r.sets.map Prod.fst).Nodup →
    (∀ e ∈ r.sets, e.2.mem ≤ ipv4ReassemblyHighThreshold - ipv4ReassemblyLowThreshold) →
    r.mem > ipv4ReassemblyHighThreshold → ipv4ReassemblyLowThreshold < (r.trimMemory fuel).mem
  | 0, _, _, _, hhigh => low_lt_high.trans hhigh
  | fuel + 1, r, hkeys, hsmall, hhigh => by
      cases ho : oldest r.sets with
      | none =>
        rw [trimMemory, if_pos hhigh, ho]
        exact low_lt_high.trans hhigh
      | some e =>
        have hmem : r.mem - e.2.mem ≤ (r.releaseSet e.1 e.2).mem := le_max_right ..
        have he := hsmall e (oldest_mem ho)
        rw [(trimMemory_turn hhigh ho).1]
        by_cases hnext : (r.releaseSet e.1 e.2).mem > ipv4ReassemblyHighThreshold
        · exact low_lt_trimMemory (nodup_releaseSet hkeys e)
            (fun q hq => hsmall q (List.mem_filter.1 hq).1) hnext
        · rw [trimMemory_of_le (not_lt.1 hnext)]
          omega

end Reassembler
end Netstack.Stack
