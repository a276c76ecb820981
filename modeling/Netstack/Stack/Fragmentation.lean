import Mathlib.Data.List.Sort
import Netstack.Header.IPv4
import Netstack.Lib.Trace

/-! Reassembly of IPv4 fragments (`stack/fragmentation.go`).

    Fragments are kept per datagram key until the bytes from 0 to the end announced by the final
    fragment are there; `assemble` then copies every stored fragment into one buffer of exactly
    that length. The map of pending sets is an association list; the order in which Go walks a map
    is unspecified, so an arriving packet may find the entries in any order. A slice expression out
    of range stops the program: `process` returns `none` there. -/

namespace Netstack.Stack
open Netstack.Copy Netstack.Header Netstack.Trace

def ipv4ReassemblyTimeout : ℤ := 30 * 1000000000
def ipv4ReassemblyHighThreshold : ℤ := 4 * 2 ^ 20
def ipv4ReassemblyLowThreshold : ℤ := 3 * 2 ^ 20
def ipv4MaxPayloadSize : ℕ := 0xffff - ipv4MinHeaderSize

/-- A packet as the read loop hands it on: the header view and the rest of the datagram. -/
structure PacketBuffer where
  networkHeader : List UInt8
  data : List UInt8
  header_len : ipv4MinHeaderSize ≤ networkHeader.length
  deriving DecidableEq

/-- `ipv4FragmentKey`. -/
structure FragmentKey where
  src : UInt32
  dst : UInt32
  id : UInt16
  proto : UInt8
  deriving DecidableEq

/-- `ipv4Fragment`. -/
structure Fragment where
  offset : ℕ
  data : List UInt8
  deriving DecidableEq

/-- `ipv4FragmentSet`; `header` is `none` while it is nil, `totalLen` is -1 while unknown. -/
structure FragmentSet where
  createdAt : ℤ
  header : Option (List UInt8)
  fragments : List Fragment
  totalLen : ℤ
  mem : ℤ
  deriving DecidableEq

/-- `ipv4Reassembler`. -/
structure Reassembler where
  sets : List (FragmentKey × FragmentSet)
  mem : ℤ
  timeout : ℤ
  deriving DecidableEq

/-- `newIPv4Reassembler`. -/
def newIPv4Reassembler : Reassembler where
  sets := []
  mem := 0
  timeout := ipv4ReassemblyTimeout

namespace FragmentSet

/-- The walk of `complete` over the sorted fragments. -/
def contiguous (totalLen : ℤ) : List Fragment → ℤ → Bool
  | [], _ => false
  | frag :: rest, next =>
    if (frag.offset : ℤ) ≠ next then false
    else
      let next := next + frag.data.length
      if next = totalLen then true
      else if next > totalLen then false
      else contiguous totalLen rest next

/-- `sort.Slice` by offset. -/
def sorted (s : FragmentSet) : FragmentSet :=
  { s with fragments := s.fragments.insertionSort fun a b => a.offset ≤ b.offset }

/-- `complete`, on the set whose fragments it has sorted. -/
def complete (s : FragmentSet) : Bool := contiguous s.totalLen s.sorted.fragments 0

/-- The copying loop of `assemble`: `none` where `raw[hdrLen+frag.offset:]` is out of range. -/
def copyAll (hdrLen : ℕ) : List Fragment → List UInt8 → Option (List UInt8)
  | [], raw => some raw
  | frag :: rest, raw =>
    if hdrLen + frag.offset > raw.length then none
    else copyAll hdrLen rest (blit raw (hdrLen + frag.offset) frag.data)

/-- The header fields `assemble` rewrites. -/
def finishHeader (hdrLen : ℕ) (raw : List UInt8) : List UInt8 :=
  let raw := IPv4.setTotalLength raw (UInt16.ofNat raw.length)
  let raw := IPv4.setFlagsFragmentOffset raw 0 0
  let raw := IPv4.setChecksum raw 0
  IPv4.setChecksum raw (checksum (raw.take hdrLen) 0)

/-- `assemble`: the bytes of the datagram, header first. -/
def assemble (s : FragmentSet) : Option (List UInt8) :=
  let header := s.header.getD []
  let raw := blit (List.replicate (header.length + s.totalLen.toNat) 0) 0 header
  (copyAll header.length s.fragments raw).map (finishHeader header.length)

end FragmentSet

namespace Reassembler

/-- `releaseSetLocked`. -/
def releaseSet (r : Reassembler) (key : FragmentKey) (set : FragmentSet) : Reassembler :=
  { r with sets := r.sets.filter (·.1 ≠ key), mem := max 0 (r.mem - set.mem) }

/-- `evictExpiredLocked`. -/
def evictExpired (r : Reassembler) (now : ℤ) : Reassembler :=
  r.sets.foldl (fun r e => if now - e.2.createdAt > r.timeout then r.releaseSet e.1 e.2 else r) r

/-- The inner loop of `trimMemoryLocked`: the first set no other is older than. -/
def oldest : List (FragmentKey × FragmentSet) → Option (FragmentKey × FragmentSet)
  | [] => none
  | e :: rest => some (rest.foldl (fun o e => if e.2.createdAt < o.2.createdAt then e else o) e)

/-- `trimMemoryLocked`: each turn of its loop releases a set, so `fuel` above their number is
    never used up. -/
def trimMemory : ℕ → Reassembler → Reassembler
  | 0, r => r
  | fuel + 1, r =>
    if r.mem > ipv4ReassemblyHighThreshold then
      match oldest r.sets with
      | none => r
      | some (key, set) =>
        let r := r.releaseSet key set
        if r.mem ≤ ipv4ReassemblyLowThreshold then r else trimMemory fuel r
    else r

/-- `r.sets[key]`. -/
def lookup (r : Reassembler) (key : FragmentKey) : Option FragmentSet :=
  (r.sets.find? (·.1 = key)).map (·.2)

/-- The map with `set` stored under `key`. -/
def store (r : Reassembler) (key : FragmentKey) (set : FragmentSet) : Reassembler :=
  { r with sets := (key, set) :: r.sets.filter (·.1 ≠ key) }

/-- `key` of a packet. -/
def keyOf (pb : PacketBuffer) : FragmentKey where
  src := IPv4.sourceAddress pb.networkHeader
  dst := IPv4.destinationAddress pb.networkHeader
  id := IPv4.id pb.networkHeader
  proto := IPv4.protocol pb.networkHeader

/-- Where a packet's payload starts in its datagram. -/
def offsetOf (pb : PacketBuffer) : ℕ := (IPv4.fragmentOffset pb.networkHeader).toNat * 8

/-- The set a packet falls into: the pending one of its key, else a new one. -/
def pending (r : Reassembler) (pb : PacketBuffer) (now : ℤ) : FragmentSet :=
  (r.lookup (keyOf pb)).getD
    { createdAt := now, header := none, fragments := [], totalLen := -1, mem := 0 }

/-- The first stored fragment that overlaps `[offset, stop)`. -/
def overlapping (set : FragmentSet) (offset stop : ℕ) : Option Fragment :=
  set.fragments.find? fun frag =>
    !(decide (stop ≤ frag.offset) || decide (frag.offset + frag.data.length ≤ offset))

/-- A set once `process` has stored the packet in it: the header of a first fragment, the end
    announced by a final one, and the payload. -/
def addFragment (set : FragmentSet) (pb : PacketBuffer) : FragmentSet where
  createdAt := set.createdAt
  header := if offsetOf pb = 0 then some pb.networkHeader else set.header
  totalLen := if IPv4.more pb.networkHeader then set.totalLen
    else (offsetOf pb + pb.data.length : ℕ)
  fragments := set.fragments ++ [{ offset := offsetOf pb, data := pb.data }]
  mem := set.mem + pb.data.length

/-- How the part of `process` before the call of `complete` ends: the fragment is dropped (with its
    set or alone), or it is stored in `set`. -/
inductive Intake where
  | dropped (r : Reassembler)
  | stored (r : Reassembler) (key : FragmentKey) (set : FragmentSet)
  deriving DecidableEq

/-- `process` up to the call of `complete`. -/
def intake (r : Reassembler) (pb : PacketBuffer) (now : ℤ) : Intake :=
  let payloadLen := pb.data.length
  let offset := offsetOf pb
  let more := IPv4.more pb.networkHeader
  if payloadLen = 0 then .dropped r
  else if offset + payloadLen > ipv4MaxPayloadSize then .dropped r
  else if more ∧ payloadLen % 8 ≠ 0 then .dropped r
  else
    let key := keyOf pb
    let r := r.evictExpired now
    let set := r.pending pb now
    let r := r.store key set
    let stop := offset + payloadLen
    match overlapping set offset stop with
    | some frag =>
      if offset = frag.offset ∧ stop = frag.offset + frag.data.length then .dropped r
      else .dropped (r.releaseSet key set)
    | none =>
      -- a second final fragment must announce the same end
      if !more ∧ set.totalLen ≥ 0 ∧ set.totalLen ≠ stop then .dropped (r.releaseSet key set)
      else
        let set := addFragment set pb
        .stored { r.store key set with mem := r.mem + payloadLen } key set

/-- The test in front of `assemble`. -/
def ready (set : FragmentSet) : Bool :=
  decide (set.totalLen ≥ 0) && set.header.isSome && set.complete

/-- `process`: the new state and the datagram completed, if any; `none` is a slice out of range. -/
def process (r : Reassembler) (pb : PacketBuffer) (now : ℤ) :
    Option (Reassembler × Option (List UInt8)) :=
  match r.intake pb now with
  | .dropped r => some (r, none)
  | .stored r key set =>
    if ready set then set.sorted.assemble.map fun raw => (r.releaseSet key set, some raw)
    else
      -- `complete`, when it ran, has sorted the stored fragments
      let set := if set.totalLen ≥ 0 ∧ set.header.isSome then set.sorted else set
      let r := r.store key set
      some (r.trimMemory (r.sets.length + 1), none)

/-! ### Runs of the reassembler -/

/-- A packet arriving at time `now`, with the order in which the map happens to be walked. -/
structure Arrival where
  pb : PacketBuffer
  now : ℤ
  order : List (FragmentKey × FragmentSet)
  deriving DecidableEq

/-- What the read loop hands to `process`: packets with the MF flag or a non-zero offset. -/
def Arrival.isFragment (a : Arrival) : Bool :=
  IPv4.more a.pb.networkHeader || IPv4.fragmentOffset a.pb.networkHeader != 0

/-- An arrival as `process` meets it in state `r`. -/
def handed (r : Reassembler) (a : Arrival) : Prop := a.isFragment = true ∧ a.order.Perm r.sets

instance (r : Reassembler) (a : Arrival) : Decidable (handed r a) :=
  inferInstanceAs (Decidable (_ ∧ _))

/-- One call of `process` from the read loop. -/
def arrive (r : Reassembler) (a : Arrival) : Option (Reassembler × Option (List UInt8)) :=
  { r with sets := a.order }.process a.pb a.now

def step (r : Reassembler) (a : Arrival) : Option Reassembler :=
  if handed r a then (r.arrive a).map (·.1) else none

/-- No stored fragment starts past the end of the datagram, once that end is known. -/
def InRange (set : FragmentSet) : Prop :=
  0 ≤ set.totalLen → ∀ frag ∈ set.fragments, (frag.offset : ℤ) ≤ set.totalLen

/-- The arriving fragment leaves none stranded past the end: it does not itself start past the end
    its set already knows, and a final fragment does not announce an end before a stored one. -/
def NoneStranded (r : Reassembler) (pb : PacketBuffer) (now : ℤ) : Prop :=
  let set := (r.evictExpired now).pending pb now
  if IPv4.more pb.networkHeader then 0 ≤ set.totalLen → (offsetOf pb : ℤ) ≤ set.totalLen
  else ∀ frag ∈ set.fragments, frag.offset ≤ offsetOf pb + pb.data.length

/-- Every pending set is in range. -/
def Inv (r : Reassembler) : Prop := ∀ e ∈ r.sets, InRange e.2

theorem Inv.of_subset {r r' : Reassembler} (h : Inv r) (hsub : r'.sets ⊆ r.sets) : Inv r' :=
  fun e he => h e (hsub he)

theorem releaseSet_subset (r : Reassembler) (key : FragmentKey) (set : FragmentSet) :
    (r.releaseSet key set).sets ⊆ r.sets := fun _ he => (List.mem_filter.1 he).1

theorem evictExpired_subset (r : Reassembler) (now : ℤ) : (r.evictExpired now).sets ⊆ r.sets := by
  -- every turn of the loop keeps the map or releases a set of it
  suffices h : ∀ (l : List (FragmentKey × FragmentSet)) (r' : Reassembler), r'.sets ⊆ r.sets →
      (l.foldl (fun r e => if now - e.2.createdAt > r.timeout then r.releaseSet e.1 e.2 else r)
        r').sets ⊆ r.sets from h r.sets r (List.Subset.refl _)
  intro l
  induction l with
  | nil => intro r' h; exact h
  | cons e l ih =>
    intro r' h
    rw [List.foldl_cons]
    split
    · exact ih _ (List.Subset.trans (releaseSet_subset r' e.1 e.2) h)
    · exact ih _ h

theorem trimMemory_subset : ∀ (fuel : ℕ) (r : Reassembler), (r.trimMemory fuel).sets ⊆ r.sets
  | 0, r => List.Subset.refl _
  | fuel + 1, r => by
      rw [trimMemory]
      split
      · split
        · exact List.Subset.refl _
        · dsimp only
          split
          · exact releaseSet_subset ..
          · exact List.Subset.trans (trimMemory_subset fuel _) (releaseSet_subset ..)
      · exact List.Subset.refl _

theorem Inv.store {r : Reassembler} (h : Inv r) (key : FragmentKey) {set : FragmentSet}
    (hs : InRange set) : Inv (r.store key set) := by
  intro e he
  rcases List.mem_cons.1 he with rfl | he
  · exact hs
  · exact h e (List.mem_filter.1 he).1

theorem Inv.pending {r : Reassembler} (h : Inv r) (pb : PacketBuffer) (now : ℤ) :
    InRange (r.pending pb now) := by
  unfold Reassembler.pending lookup
  cases hf : r.sets.find? (·.1 = keyOf pb) with
  | none => intro h0; simp at h0
  | some e => exact h e (List.mem_of_find?_eq_some hf)

/-- What `process` drops leaves the map in range. -/
theorem intake_dropped {r r' : Reassembler} (h : Inv r) {pb : PacketBuffer} {now : ℤ}
    (hi : r.intake pb now = .dropped r') : Inv r' := by
  have hev : Inv (r.evictExpired now) := h.of_subset (evictExpired_subset r now)
  have hst : Inv ((r.evictExpired now).store (keyOf pb) ((r.evictExpired now).pending pb now)) :=
    hev.store _ (hev.pending pb now)
  unfold intake at hi
  dsimp only at hi
  split at hi
  · cases hi; exact h
  · split at hi
    · cases hi; exact h
    · split at hi
      · cases hi; exact h
      · split at hi
        · split at hi <;> cases hi
          · exact hst
          · exact hst.of_subset (releaseSet_subset ..)
        · split at hi <;> cases hi
          exact hst.of_subset (releaseSet_subset ..)

/-- A packet that is stored goes to its pending set. -/
theorem intake_stored {r r' : Reassembler} {pb : PacketBuffer} {now : ℤ} {key : FragmentKey}
    {set : FragmentSet} (hi : r.intake pb now = .stored r' key set) :
    set = addFragment ((r.evictExpired now).pending pb now) pb ∧
    r'.sets = (((r.evictExpired now).store (keyOf pb) ((r.evictExpired now).pending pb now)).store
      (keyOf pb) set).sets := by
  unfold intake at hi
  dsimp only at hi
  split at hi
  · cases hi
  · split at hi
    · cases hi
    · split at hi
      · cases hi
      · split at hi
        · split at hi <;> cases hi
        · split at hi <;> cases hi
          exact ⟨rfl, rfl⟩

/-- The set a packet is stored in stays in range when nothing is stranded. -/
theorem addFragment_inRange {set : FragmentSet} (hs : InRange set) {pb : PacketBuffer}
    (ha : if IPv4.more pb.networkHeader then 0 ≤ set.totalLen → (offsetOf pb : ℤ) ≤ set.totalLen
      else ∀ frag ∈ set.fragments, frag.offset ≤ offsetOf pb + pb.data.length) :
    InRange (addFragment set pb) := by
  intro h0 frag hfrag
  simp only [addFragment, List.mem_append, List.mem_singleton] at h0 hfrag ⊢
  by_cases hm : IPv4.more pb.networkHeader = true
  · simp only [hm, if_true] at ha h0 ⊢
    rcases hfrag with hold | rfl
    · exact hs h0 frag hold
    · exact ha h0
  · rw [if_neg hm] at ha ⊢
    rcases hfrag with hold | rfl
    · exact_mod_cast ha frag hold
    · simp

/-! ### Assembly stays in bounds -/

theorem copyAll_isSome (hdrLen : ℕ) : ∀ (l : List Fragment) (raw : List UInt8),
    (∀ frag ∈ l, hdrLen + frag.offset ≤ raw.length) →
    (FragmentSet.copyAll hdrLen l raw).isSome
  | [], raw, _ => rfl
  | frag :: rest, raw, h => by
      have hfrag := h frag (List.mem_cons_self ..)
      rw [FragmentSet.copyAll, if_neg (by omega)]
      refine copyAll_isSome hdrLen rest _ fun f hf => ?_
      rw [length_blit _ hfrag]
      exact h f (List.mem_cons_of_mem _ hf)

theorem assemble_isSome {set : FragmentSet} (h0 : 0 ≤ set.totalLen) (hs : InRange set) :
    set.sorted.assemble.isSome := by
  unfold FragmentSet.assemble
  rw [Option.isSome_map]
  apply copyAll_isSome
  intro frag hfrag
  have := hs h0 frag ((List.mem_insertionSort _).1 hfrag)
  rw [length_blit _ (Nat.zero_le _), List.length_replicate]
  simp only [FragmentSet.sorted] at *
  omega

/-- One call of `process` that strands nothing does not panic and keeps the map in range. -/
theorem process_safe {r : Reassembler} (h : Inv r) {pb : PacketBuffer} {now : ℤ}
    (ha : NoneStranded r pb now) : ∃ res, r.process pb now = some res ∧ Inv res.1 := by
  unfold process
  cases hi : r.intake pb now with
  | dropped r' => exact ⟨_, rfl, intake_dropped h hi⟩
  | stored r' key set =>
    obtain ⟨hset, hsets⟩ := intake_stored hi
    have hev : Inv (r.evictExpired now) := h.of_subset (evictExpired_subset r now)
    have hin : InRange set := hset ▸ addFragment_inRange (hev.pending pb now) ha
    have hr' : Inv r' := by
      intro e he
      rw [hsets] at he
      exact ((hev.store _ (hev.pending pb now)).store _ hin) e he
    have hsorted : InRange set.sorted :=
      fun h0 frag hfrag => hin h0 frag ((List.mem_insertionSort _).1 hfrag)
    dsimp only
    split
    · rename_i hready
      have h0 : 0 ≤ set.totalLen := by
        simp only [ready, Bool.and_eq_true, decide_eq_true_eq] at hready; exact hready.1.1
      obtain ⟨raw, hraw⟩ := Option.isSome_iff_exists.1 (assemble_isSome h0 hin)
      exact ⟨_, by rw [hraw, Option.map_some], hr'.of_subset (releaseSet_subset ..)⟩
    · refine ⟨_, rfl, Inv.of_subset (Inv.store hr' key ?_) (trimMemory_subset ..)⟩
      split
      · exact hsorted
      · exact hin

/-- The side condition of a run: no arrival strands a fragment. -/
def Tidy (r : Reassembler) (a : Arrival) : Prop :=
  NoneStranded { r with sets := a.order } a.pb a.now

theorem inv_reach {r : Reassembler}
    (hr : Reach (· = newIPv4Reassembler) step Tidy r) : Inv r := by
  refine hr.invariant (fun s hs => ?_) (fun s a s' hs hok hstep => ?_)
  · subst hs; intro e he; cases he
  · unfold step at hstep
    split at hstep
    · rename_i hh
      have hord : Inv { s with sets := a.order } := fun e he => hs e (hh.2.mem_iff.1 he)
      obtain ⟨res, hres, hinv⟩ := process_safe hord hok
      rw [arrive, hres] at hstep
      cases hstep; exact hinv
    · cases hstep

/-- An IPv4 header of a UDP fragment with the given flags-and-offset word, checksum included. -/
def sampleHeader (flagsFrag : UInt16) : List UInt8 :=
  let hdr := [0x45, 0, 0, 28, 0, 1] ++ bytes16 flagsFrag ++
    [64, 17, 0, 0, 10, 0, 0, 1, 10, 0, 0, 2]
  IPv4.setChecksum hdr (checksum hdr 0)

theorem length_sampleHeader (flagsFrag : UInt16) :
    ipv4MinHeaderSize ≤ (sampleHeader flagsFrag).length := by
  simp [sampleHeader, IPv4.setChecksum, bytes16, ipv4MinHeaderSize]

/-- Eight bytes of payload behind `sampleHeader`, arriving with the map in the order it has. -/
def sampleArrival (flagsFrag : UInt16) (r : Reassembler) : Arrival where
  pb := { networkHeader := sampleHeader flagsFrag, data := [1, 2, 3, 4, 5, 6, 7, 8],
          header_len := length_sampleHeader flagsFrag }
  now := 0
  order := r.sets

/-- The state after a fragment of bytes 24 to 32. -/
def earlyState : Reassembler :=
  (newIPv4Reassembler.step (sampleArrival 0x2003 newIPv4Reassembler)).getD newIPv4Reassembler

end Reassembler
end Netstack.Stack
