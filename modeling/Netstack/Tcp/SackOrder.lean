import Netstack.Tcp.Reassembly
import Netstack.Tcp.SackReport
import Netstack.Tcp.Shutdown

/-! Which block `sackBlocks` puts first (`rcv.go`).

    The source calls the order of the blocks most-recent-first, but it is the order of the list
    reversed: after `insertOOO` has stored a segment, the first regular block is the range it was joined
    into only if no other range lies above that one. Where the wrap has no entry on it, the ranges above
    the wrap count as the lower ones, because they are dropped or compared by their plain numbers. -/

namespace Netstack.Tcp
open Netstack.Header Netstack.Serial Netstack.Copy Netstack.Trace TCPConn

/-! ### Which entry comes first -/

instance (e : OOOSegment) (x : UInt32) : Decidable (e.Covers x) := inferInstanceAs (Decidable (_ < _))

/-- The number before the wrap. -/
def lastNumber : UInt32 := 0xFFFFFFFF

section
variable {base : UInt32} {top edge lo : ℕ}

/-- An entry covers the number before the wrap iff it runs up to the wrap or past it. -/
theorem covers_lastNumber {e : OOOSegment} {o : ℕ} (he : e.seq = seqAt base o) :
    e.Covers lastNumber ↔ 2 ^ 32 ≤ (base.toNat + o) % 2 ^ 32 + e.data.length := by
  have hb := base.toNat_lt
  rw [OOOSegment.Covers, he, UInt32.toNat_sub, toNat_seqAt, show lastNumber.toNat = 2 ^ 32 - 1 from rfl]
  omega

/-- Past the wrap there is no gap with the wrap in it. -/
theorem Filed.isChain_past (hedge : edge ≤ 2 ^ 32) : ∀ {l : List OOOSegment} {lo : ℕ},
    Filed base (fun _ _ => True) top edge lo l → 2 ^ 32 ≤ base.toNat + lo →
    l.IsChain fun e e' => e.stop < e'.seq
  | [], _, _, _ => .nil
  | [e], _, _, _ => .singleton e
  | e :: e' :: rest, lo, ⟨o, h1, h2, h3, h4, h5, _, o', g1, g2, g3, g4, g5, _, g7⟩, hpast => by
      have hb := base.toNat_lt
      refine List.isChain_cons_cons.2 ⟨?_, Filed.isChain_past hedge ⟨o', g1, g2, g3, g4, g5, trivial, g7⟩
        (by omega)⟩
      rw [stop_eq h4, g4, UInt32.lt_iff_toNat_lt, toNat_seqAt, toNat_seqAt]
      omega

/-- If the wrap lies in an entry or at its end, it lies in no gap. -/
theorem Filed.isChain_covers (hedge : edge ≤ 2 ^ 32) : ∀ {l : List OOOSegment} {lo : ℕ},
    Filed base (fun _ _ => True) top edge lo l → (∃ e ∈ l, e.Covers lastNumber) →
    l.IsChain fun e e' => e.stop < e'.seq
  | [], _, _, _ => .nil
  | [e], _, _, _ => .singleton e
  | e :: e' :: rest, lo, ⟨o, h1, h2, h3, h4, h5, _, hrest⟩, ⟨x, hx, hcov⟩ => by
      have hb := base.toNat_lt
      have hpos := List.length_pos_iff.2 h5
      have htail := hrest
      obtain ⟨o', g1, g2, g3, g4, g5, -, g7⟩ := hrest
      rcases List.mem_cons.1 hx with rfl | hx
      · rw [covers_lastNumber h4] at hcov
        refine List.isChain_cons_cons.2 ⟨?_, htail.isChain_past hedge (by omega)⟩
        rw [stop_eq h4, g4, UInt32.lt_iff_toNat_lt, toNat_seqAt, toNat_seqAt]
        omega
      · refine List.isChain_cons_cons.2 ⟨?_, Filed.isChain_covers hedge htail ⟨x, hx, hcov⟩⟩
        -- the entry with the wrap is `e'` or comes after it
        have hat : ∃ y, x.seq = seqAt base y ∧ o' ≤ y ∧ y + x.data.length ≤ edge := by
          rcases List.mem_cons.1 hx with rfl | hx
          · exact ⟨o', g4, le_refl _, g3⟩
          · obtain ⟨y, k1, -, k3, k4, -⟩ := g7.entry hx
            exact ⟨y, k4, by omega, k3⟩
        obtain ⟨y, hy, hle, hend⟩ := hat
        rw [covers_lastNumber hy] at hcov
        rw [stop_eq h4, g4, UInt32.lt_iff_toNat_lt, toNat_seqAt, toNat_seqAt]
        omega

/-- Otherwise the last entry reported is the one with the greatest number. -/
theorem Filed.exists_last_reported (hedge : edge ≤ 2 ^ 32) : ∀ {l : List OOOSegment} {lo : ℕ},
    Filed base (fun _ _ => True) top edge lo l → l ≠ [] → (∀ e ∈ l, ¬e.Covers lastNumber) →
    ∃ k ∈ l, (reported l).getLast? = some k ∧ ∀ e ∈ l, e.seq ≤ k.seq
  | [e], _, _, _, _ => ⟨e, List.mem_singleton_self e, rfl, by simp⟩
  | e :: e' :: rest, lo, h, _, hno => by
      have hfiled := h
      obtain ⟨o, h1, h2, h3, h4, h5, -, hrest⟩ := h
      have hb := base.toNat_lt
      have hpos := List.length_pos_iff.2 h5
      have hne := hno e List.mem_cons_self
      rw [covers_lastNumber h4] at hne
      rw [reported]
      split
      · rename_i hlt
        obtain ⟨k, hk, hlast, hmax⟩ := Filed.exists_last_reported hedge hrest (by simp)
          fun x hx => hno x (List.mem_cons_of_mem _ hx)
        refine ⟨k, List.mem_cons_of_mem _ hk, ?_, fun x hx => ?_⟩
        · obtain ⟨y, t, hy⟩ := List.exists_cons_of_ne_nil (reported_ne_nil (List.cons_ne_nil e' rest))
          rw [hy] at hlast ⊢
          rwa [List.getLast?_cons_cons]
        · rcases List.mem_cons.1 hx with rfl | hx
          · have hfirst := hmax e' List.mem_cons_self
            rw [stop_eq h4] at hlt
            rw [h4]
            simp only [UInt32.le_iff_toNat_le, UInt32.lt_iff_toNat_lt, toNat_seqAt] at hfirst hlt ⊢
            omega
          · exact hmax x hx
      · rename_i hge
        have hwrap := UInt32.not_lt.1 hge
        refine ⟨e, List.mem_cons_self, rfl, fun x hx => ?_⟩
        rcases List.mem_cons.1 hx with rfl | hx
        · exact UInt32.le_refl _
        · obtain ⟨hle, -⟩ := hfiled.past_wrap hedge hwrap x hx
          obtain ⟨y, k1, -, k3, k4, -⟩ := hrest.entry hx
          rw [stop_eq h4, k4] at hle
          rw [h4, k4]
          simp only [UInt32.le_iff_toNat_le, toNat_seqAt] at hle ⊢
          omega

theorem Filed.eq_of_seq {l : List OOOSegment} (h : Filed base (fun _ _ => True) top edge lo l)
    (hedge : edge ≤ 2 ^ 32) {e e' : OOOSegment} (he : e ∈ l) (he' : e' ∈ l) (hseq : e.seq = e'.seq) :
    e = e' :=
  List.inj_on_of_nodup_map (h.nodup hedge) he he' hseq

/-- The last entry reported, in both cases. -/
theorem Filed.last_reported_iff {l : List OOOSegment} {k : OOOSegment}
    (h : Filed base (fun _ _ => True) top edge lo l) (hedge : edge ≤ 2 ^ 32) (hk : k ∈ l) :
    ((∃ e ∈ l, e.Covers lastNumber) → ((reported l).getLast? = some k ↔ l.getLast? = some k)) ∧
    ((∀ e ∈ l, ¬e.Covers lastNumber) → ((reported l).getLast? = some k ↔ ∀ e ∈ l, e.seq ≤ k.seq)) := by
  refine ⟨fun hcov => ?_, fun hno => ?_⟩
  · rw [(reported_eq_iff l).2 (h.isChain_covers hedge hcov)]
  · obtain ⟨k', hk', hlast, hmax⟩ := h.exists_last_reported hedge (List.ne_nil_of_mem hk) hno
    rw [hlast, Option.some.injEq]
    refine ⟨fun he => he ▸ hmax, fun hle => h.eq_of_seq hedge hk' hk ?_⟩
    exact UInt32.le_antisymm (hle k' hk') (hmax k hk)

end

/-! ### The range that was just stored -/

section
variable {base : UInt32} {top edge lo o : ℕ}

/-- The entries around one of the list. -/
theorem Filed.around {k : OOOSegment} {above : List OOOSegment} : ∀ {below : List OOOSegment} {lo : ℕ},
    Filed base (fun _ _ => True) top edge lo (below ++ k :: above) →
    ∃ a, lo < a ∧ a + k.data.length ≤ edge ∧ k.seq = seqAt base a ∧
      (∀ e ∈ below, ∃ x, lo < x ∧ x + e.data.length < a ∧ e.seq = seqAt base x) ∧
      ∀ e ∈ above, ∃ x, a + k.data.length < x ∧ x + e.data.length ≤ edge ∧ e.seq = seqAt base x
  | [], lo, ⟨a, h1, _, h3, h4, _, _, h7⟩ => by
      refine ⟨a, h1, h3, h4, by simp, fun e he => ?_⟩
      obtain ⟨x, g1, -, g3, g4, -⟩ := h7.entry he
      exact ⟨x, g1, g3, g4⟩
  | e :: below, lo, ⟨x, h1, _, h3, h4, _, _, h7⟩ => by
      obtain ⟨a, g1, g2, g3, hbelow, habove⟩ := Filed.around h7
      refine ⟨a, by omega, g2, g3, fun e' he' => ?_, habove⟩
      rcases List.mem_cons.1 he' with rfl | he'
      · exact ⟨x, h1, g1, h4⟩
      · obtain ⟨y, k1, k2, k3⟩ := hbelow e' he'
        exact ⟨y, by omega, k2, k3⟩

/-- A number is covered by one entry only. -/
theorem Filed.eq_of_covers {l : List OOOSegment} (h : Filed base (fun _ _ => True) top edge lo l)
    (hedge : edge ≤ 2 ^ 32) {k e : OOOSegment} {x : UInt32} (hk : k ∈ l) (he : e ∈ l)
    (hkx : k.Covers x) (hex : e.Covers x) : e = k := by
  obtain ⟨below, above, rfl⟩ := List.append_of_mem hk
  obtain ⟨a, h1, h2, h3, hbelow, habove⟩ := h.around
  obtain ⟨n, hn, hn', rfl⟩ := (covers_iff_offset h3 (by omega)).1 hkx
  have hother : ∀ y, e.seq = seqAt base y → y + e.data.length ≤ 2 ^ 32 →
      y ≤ n ∧ n < y + e.data.length := by
    intro y hy hend
    obtain ⟨m, hm, hm', heq⟩ := (covers_iff_offset hy (by omega)).1 hex
    rw [seqAt_inj base (by omega) (by omega)] at heq
    omega
  have hcases : e ∈ below ∨ e = k ∨ e ∈ above := by simpa using he
  rcases hcases with hb | rfl | ha
  · obtain ⟨y, g1, g2, g3⟩ := hbelow e hb
    have := hother y g3 (by omega)
    omega
  · rfl
  · obtain ⟨y, g1, g2, g3⟩ := habove e ha
    have := hother y g3 (by omega)
    omega

end

/-- Whether the stored part `data` of a segment at `seq` will be in the first block: no entry starts
    above its end. Above is meant from `rcv.nxt` on if an entry or the segment lies on the wrap, and by
    the plain numbers otherwise. -/
structure ComesFirst (nxt : UInt32) (l : List OOOSegment) (seq : UInt32) (data : List UInt8) :
    Prop where
  wrapped : (∃ e ∈ ⟨seq, data⟩ :: l, e.Covers lastNumber) →
    ∀ e ∈ l, e.seq - nxt ≤ seq + UInt32.ofNat data.length - nxt
  plain : (∀ e ∈ ⟨seq, data⟩ :: l, ¬e.Covers lastNumber) →
    ∀ e ∈ l, e.seq ≤ seq + UInt32.ofNat data.length

section
variable {nxt : UInt32} {top edge o stop : ℕ} {below mid above : List OOOSegment} {k : OOOSegment}
  {a : ℕ}

/-- The entries around the joined one. -/
theorem Joined.around (hj : Joined nxt o stop mid k a) (hos : o < stop) (hstop : stop ≤ edge)
    (hF' : Filed nxt (fun _ _ => True) top edge 0 (below ++ k :: above)) (hedge : edge < 2 ^ 32) :
    a + k.data.length ≤ edge ∧
    (∀ e ∈ below, ∃ x, x + e.data.length < a ∧ e.seq = seqAt nxt x) ∧
    ∀ e ∈ above, ∃ x, a + k.data.length < x ∧ x ≤ edge ∧ e.seq = seqAt nxt x := by
  obtain ⟨a', h1, h2, h3, hbelow, habove⟩ := hF'.around
  have hstart := hj.start_le
  obtain rfl : a = a' := (seqAt_inj nxt (by omega) (by omega)).1 (hj.seq.symm.trans h3)
  refine ⟨h2, fun e he => ?_, fun e he => ?_⟩
  · obtain ⟨x, -, hx, hseq⟩ := hbelow e he
    exact ⟨x, hx, hseq⟩
  · obtain ⟨x, hx, hend, hseq⟩ := habove e he
    exact ⟨x, hx, by omega, hseq⟩

/-- The joined entry is the last one iff no entry started above the segment. -/
theorem Joined.last_iff (hj : Joined nxt o stop mid k a) (hos : o < stop) (hstop : stop ≤ edge)
    (hF' : Filed nxt (fun _ _ => True) top edge 0 (below ++ k :: above)) (hedge : edge < 2 ^ 32) :
    (below ++ k :: above).getLast? = some k ↔
      ∀ e ∈ below ++ mid ++ above, e.seq - nxt ≤ seqAt nxt stop - nxt := by
  obtain ⟨hk, hbelow, habove⟩ := hj.around hos hstop hF' hedge
  have hstart := hj.start_le
  have hend := hj.le_end
  have hle : ∀ x, x < 2 ^ 32 → (seqAt nxt x - nxt ≤ seqAt nxt stop - nxt ↔ x ≤ stop) := by
    intro x hx
    have h1 := toNat_sub_of_le nxt (Nat.zero_le x) hx
    have h2 := toNat_sub_of_le nxt (Nat.zero_le stop) (by omega)
    rw [seqAt_zero] at h1 h2
    rw [UInt32.le_iff_toNat_le, h1, h2, Nat.sub_zero, Nat.sub_zero]
  constructor
  · intro hlast e he
    have hcases : e ∈ below ∨ e ∈ mid ∨ e ∈ above := by simpa using he
    rcases hcases with hb | hm | ha
    · obtain ⟨x, hx, hseq⟩ := hbelow e hb
      rw [hseq, hle x (by omega)]
      omega
    · obtain ⟨x, hseq, -, -, hx, -⟩ := hj.inside e hm
      rw [hseq, hle x (by omega)]
      exact hx
    · -- an entry above would come after the joined one
      exfalso
      rcases List.eq_nil_or_concat above with rfl | ⟨init, z, rfl⟩
      · exact List.not_mem_nil ha
      · obtain ⟨x, hx, hxe, hseq⟩ := habove z (by simp)
        rw [List.concat_eq_append, ← List.cons_append, ← List.append_assoc, List.getLast?_concat,
          Option.some.injEq] at hlast
        rw [hlast, hj.seq, seqAt_inj nxt (by omega) (by omega)] at hseq
        omega
  · intro hall
    have hnil : above = [] := by
      refine List.eq_nil_iff_forall_not_mem.2 fun e he => ?_
      obtain ⟨x, hx, hxe, hseq⟩ := habove e he
      have := hall e (by simp [he])
      rw [hseq, hle x (by omega)] at this
      omega
    simp [hnil]

/-- With no entry on the wrap, the joined entry has the greatest number iff no entry had a number above
    the end of the segment. -/
theorem Joined.greatest_iff (hj : Joined nxt o stop mid k a) (hos : o < stop) (hstop : stop ≤ edge)
    (hF' : Filed nxt (fun _ _ => True) top edge 0 (below ++ k :: above)) (hedge : edge < 2 ^ 32)
    (hno : ¬k.Covers lastNumber) :
    (∀ e ∈ below ++ k :: above, e.seq ≤ k.seq) ↔
      ∀ e ∈ below ++ mid ++ above, e.seq ≤ seqAt nxt stop := by
  obtain ⟨hk, hbelow, habove⟩ := hj.around hos hstop hF' hedge
  have hstart := hj.start_le
  have hend := hj.le_end
  have hb := nxt.toNat_lt
  rw [covers_lastNumber hj.seq] at hno
  rw [hj.seq]
  -- an entry that was not joined is on the same side of the joined entry and of the segment's end
  have hside : ∀ e, e ∈ below ∨ e ∈ above → (e.seq ≤ seqAt nxt a ↔ e.seq ≤ seqAt nxt stop) := by
    intro e he
    obtain ⟨x, hx, hseq⟩ : ∃ x, (x + e.data.length < a ∨ a + k.data.length < x ∧ x ≤ edge) ∧
        e.seq = seqAt nxt x := by
      rcases he with he | he
      · obtain ⟨x, hx, hseq⟩ := hbelow e he
        exact ⟨x, .inl hx, hseq⟩
      · obtain ⟨x, hx, hxe, hseq⟩ := habove e he
        exact ⟨x, .inr ⟨hx, hxe⟩, hseq⟩
    rw [hseq]
    simp only [UInt32.le_iff_toNat_le, toNat_seqAt]
    omega
  constructor
  · intro hall e he
    have hcases : e ∈ below ∨ e ∈ mid ∨ e ∈ above := by simpa using he
    rcases hcases with he | he | he
    · exact (hside e (.inl he)).1 (hall e (by simp [he]))
    · obtain ⟨x, hseq, hx, -, hxs, -⟩ := hj.inside e he
      rw [hseq, UInt32.le_iff_toNat_le, toNat_seqAt, toNat_seqAt]
      omega
    · exact (hside e (.inr he)).1 (hall e (by simp [he]))
  · intro hall e he
    have hcases : e ∈ below ∨ e = k ∨ e ∈ above := by simpa using he
    rcases hcases with he | rfl | he
    · exact (hside e (.inl he)).2 (hall e (by simp [he]))
    · rw [hj.seq]
      exact UInt32.le_refl _
    · exact (hside e (.inr he)).2 (hall e (by simp [he]))

end

/-- The first block after the DSACK block, if there is one. -/
def Receiver.firstRegular (r : Receiver) (tsEnabled : Bool) : Option SACKBlock :=
  ((r.sackBlocks tsEnabled).drop r.hasDSACKBlock.toNat).head?

theorem firstRegular_eq (r : Receiver) (tsEnabled : Bool) :
    r.firstRegular tsEnabled = (sackRanges r.ooo).getLast? := by
  rw [Receiver.firstRegular, Receiver.sackBlocks]
  cases r.hasDSACKBlock <;> cases tsEnabled <;> simp [List.head?_take]

/-- The first regular block is the range that the bytes `data` at `seq` lie in. -/
def Receiver.FirstHolds (r : Receiver) (tsEnabled : Bool) (seq : UInt32) (data : List UInt8) : Prop :=
  ∃ e ∈ r.ooo, (∀ i < data.length, e.Covers (seq + UInt32.ofNat i)) ∧
    r.firstRegular tsEnabled = some e.range

instance (r : Receiver) (tsEnabled : Bool) (seq : UInt32) (data : List UInt8) :
    Decidable (r.FirstHolds tsEnabled seq data) :=
  inferInstanceAs (Decidable (∃ e ∈ r.ooo, _ ∧ _))

section
variable {nxt : UInt32} {top edge o : ℕ} {data : List UInt8}

/-- CORRECT: after `insertOOO` has stored a segment, its range comes first if and only if no entry was
    above it. -/
theorem insertOOO_firstHolds_iff {r : Receiver} (h : Fits (fun _ _ => True) top edge 0 o data)
    (hF : Filed nxt (fun _ _ => True) top edge 0 r.ooo) (hedge : edge < 2 ^ 32)
    (hcov : covered r.ooo (seqAt nxt o) (seqAt nxt (o + data.length)) = false) (tsEnabled : Bool) :
    (r.insertOOO (seqAt nxt o) data).FirstHolds tsEnabled (seqAt nxt o) data ↔
      ComesFirst nxt r.ooo (seqAt nxt o) data := by
  have hpos := h.pos
  have hstop := h.inWindow
  obtain ⟨hF', hfiles⟩ := insertOOO_spec sliceable_true h hF hcov
  have hcovers : (∃ e ∈ (r.insertOOO (seqAt nxt o) data).ooo, e.Covers lastNumber) ↔
      ∃ e ∈ ⟨seqAt nxt o, data⟩ :: r.ooo, e.Covers lastNumber :=
    hfiles.covers hF hF' (by omega) (by omega)
  have hfirst := firstRegular_eq (r.insertOOO (seqAt nxt o) data) tsEnabled
  rw [sackRanges_eq (by omega) hF', List.getLast?_map] at hfirst
  rw [Receiver.FirstHolds, hfirst]
  generalize (r.insertOOO (seqAt nxt o) data).ooo = l' at *
  generalize r.ooo = l at *
  obtain ⟨below, mid, above, k, a, rfl, rfl, hj⟩ := hfiles
  have hk : k ∈ below ++ k :: above := by simp
  have hlen := hF'.length_le (by omega) hk
  have hstart := hj.start_le
  have hend := hj.le_end
  -- the entry that holds the segment is the joined one
  have hholds : ∀ i < data.length, k.Covers (seqAt nxt o + UInt32.ofNat i) := fun i hi => by
    rw [← seqAt_add]
    exact (covers_iff_offset hj.seq hlen).2 ⟨o + i, by omega, by omega, rfl⟩
  have hiff : (∃ e ∈ below ++ k :: above, (∀ i < data.length, e.Covers (seqAt nxt o + UInt32.ofNat i)) ∧
      (reported (below ++ k :: above)).getLast?.map OOOSegment.range = some e.range) ↔
      (reported (below ++ k :: above)).getLast? = some k := by
    constructor
    · rintro ⟨e, he, hall, hrange⟩
      obtain rfl : e = k := hF'.eq_of_covers (by omega) hk he (hholds 0 hpos) (hall 0 hpos)
      obtain ⟨e', he', hsame⟩ := Option.map_eq_some_iff.1 hrange
      have hmem : e' ∈ below ++ e :: above :=
        (reported_isPrefix _).subset (List.mem_of_getLast? he')
      rw [he', hF'.eq_of_seq (by omega) hmem hk (congrArg SACKBlock.start hsame)]
    · intro hlast
      exact ⟨k, hk, hholds, by rw [hlast, Option.map_some]⟩
  obtain ⟨hwrapped, hplain⟩ := hF'.last_reported_iff (by omega) hk
  have hnum : seqAt nxt o + UInt32.ofNat data.length = seqAt nxt (o + data.length) :=
    (seqAt_add nxt o data.length).symm
  rw [hiff]
  by_cases hon : ∃ e ∈ below ++ k :: above, e.Covers lastNumber
  · rw [hwrapped hon, hj.last_iff (by omega) hstop hF' hedge, ← hnum]
    refine ⟨fun hall => ⟨fun _ => hall, fun hno => ?_⟩, fun hc => hc.wrapped (hcovers.1 hon)⟩
    obtain ⟨e, he, hcov⟩ := hcovers.1 hon
    exact absurd hcov (hno e he)
  · have hno : ∀ e ∈ below ++ k :: above, ¬e.Covers lastNumber := fun e he hcov => hon ⟨e, he, hcov⟩
    rw [hplain hno, hj.greatest_iff (by omega) hstop hF' hedge (hno k hk), ← hnum]
    refine ⟨fun hall => ⟨fun hon' => absurd (hcovers.2 hon') hon, fun _ => hall⟩, fun hc => hc.plain ?_⟩
    exact fun e he hcov => hon (hcovers.2 ⟨e, he, hcov⟩)

end

/-! ### A segment that `handleData` stores -/

namespace TCPConn

/-- What is inside the window of a payload at `seq`. -/
def inWindow (c : TCPConn) (seq : UInt32) (data : List UInt8) : List UInt8 :=
  data.take (c.rx.rcv.nxt + c.rcvWnd - seq).toNat

/-- An out-of-order payload that changes the list is handed to `insertOOO`, as far as it is inside the
    window, and not found covered. -/
theorem handleData_stores {c : TCPConn} {seq : UInt32} {data : List UInt8}
    (hfree : c.rx.readBuf.free < 2 ^ 32) (hlen : data.length < 2 ^ 16)
    (hgt : seqGreaterThan seq c.rx.rcv.nxt = true)
    (hchg : (c.handleData seq data).rx.rcv.ooo ≠ c.rx.rcv.ooo) :
    c.app.readShutdown = false ∧
    (c.handleData seq data).rx.rcv = c.rx.rcv.insertOOO seq (c.inWindow seq data) ∧
    ∃ o, seq = seqAt c.rx.rcv.nxt o ∧
      Fits (fun _ _ => True) (2 ^ 31) c.rx.readBuf.free 0 o (c.inWindow seq data) := by
  obtain ⟨o, hseq, hpos, hfar⟩ : ∃ o, seq = seqAt c.rx.rcv.nxt o ∧ 0 < o ∧ o < 2 ^ 31 := by
    have hseq := seqAt_of_sub c.rx.rcv.nxt seq 0
    rw [seqAt_zero, Nat.zero_add] at hseq
    exact ⟨_, hseq, (toInt32_pos_iff _).1 (of_decide_eq_true hgt)⟩
  have hnxt : c.rx.rcv.nxt = seqAt c.rx.rcv.nxt 0 := (seqAt_zero _).symm
  have hW : c.rx.readBuf.free % 2 ^ 32 = c.rx.readBuf.free := Nat.mod_eq_of_lt hfree
  have hnil : data ≠ [] := by
    rintro rfl
    exact hchg rfl
  have hdpos := List.length_pos_iff.2 hnil
  have hdata : c.handleData seq data = if o < c.rx.readBuf.free ∧ c.rx.readBuf.free ≤ o + 2 ^ 31 then
      c.acceptData seq (data.take (c.rx.readBuf.free - o)) else c := by
    rw [hseq, handleData_offsets hnxt hnil (by omega) (by omega) (by omega), if_pos (by omega),
      max_eq_left (Nat.zero_le o), Nat.zero_sub, List.drop_zero,
      windowData_offsets hnxt hW (by omega) (Nat.zero_le o) (by omega), Nat.zero_add]
  rw [hdata] at hchg ⊢
  by_cases hin : o < c.rx.readBuf.free ∧ c.rx.readBuf.free ≤ o + 2 ^ 31
  · have hcut : data.take (c.rx.readBuf.free - o) = c.inWindow seq data := by
      rw [inWindow, wndEnd_eq hnxt hW, hseq, toNat_sub_of_le _ (by omega) (by omega), Nat.zero_add]
    have hlen' : (c.inWindow seq data).length = min (c.rx.readBuf.free - o) data.length := by
      rw [← hcut, List.length_take]
    have hne : seq ≠ c.rx.rcv.nxt := by
      have hne := seqAt_inj c.rx.rcv.nxt (x := o) (y := 0) (by omega) (by omega)
      rw [seqAt_zero, ← hseq] at hne
      exact fun he => absurd (hne.1 he) (by omega)
    rw [if_pos hin, hcut, acceptData] at hchg ⊢
    cases hshut : c.app.readShutdown with
    | true =>
      rw [hshut, if_pos rfl] at hchg
      exact absurd rfl hchg
    | false =>
      rw [if_neg (by simp), if_neg hne, if_pos hgt]
      exact ⟨rfl, rfl, o, hseq, hpos, hfar, by omega, by omega, by omega,
        List.ne_nil_of_length_pos (by omega), by omega, trivial⟩
  · rw [if_neg hin] at hchg
    exact absurd rfl hchg

end TCPConn

/-- `CloseRead` is for good. -/
theorem readShutdown_step {s s' : Sys} {e : Event} (h : Sys.Step s e s')
    (hs' : s'.conn.app.readShutdown = false) :
    s.conn.app.readShutdown = false ∧ e ≠ .closeRead := by
  cases hq : Sys.quiet e with
  | true =>
    refine ⟨(h.quiet hq).readShutdown ▸ hs', ?_⟩
    rintro rfl
    cases hq
  | false =>
    cases h <;> simp only [Sys.quiet, reduceCtorEq] at hq
    case inbound seg _ => exact ⟨(congrArg App.readShutdown (onInbound_app s.conn seg)) ▸ hs', by simp⟩
    case forceCloseCh =>
      refine ⟨?_, by simp⟩
      have happ : s.conn.onForceClose.app = s.conn.app := by
        rw [onForceClose]
        split <;> exact exitRun_app _
      exact happ ▸ hs'
    case readCall => exact ⟨hs', by simp⟩
    case closeRead =>
      exfalso
      revert hs'
      dsimp only
      rw [TCPConn.closeRead]
      split
      · rename_i hshut
        simp [hshut]
      · simp

/-- `readBuf` is below `2 ^ 32` bytes. -/
def CapKept (s : Sys) (_ : Event) : Prop := s.conn.rx.readBuf.cap < 2 ^ 32

theorem readKept_reach {s : Sys} (hr : Reach Sys.Init Sys.step CapKept s)
    (hshut : s.conn.app.readShutdown = false) : Reach Sys.Init Sys.step ReadKept s := by
  induction hr with
  | start h => exact .start h
  | next _ hok hs ih =>
    obtain ⟨hshut', hne⟩ := readShutdown_step (Sys.step_inv hs).2 hshut
    exact .next (ih hshut') ⟨hne, hok⟩ hs

/-- CORRECT: for every receiver that is reached with `readBuf` below `2 ^ 32` bytes and still open, and
    every out-of-order payload that `handleData` stores, the first regular block that `sackBlocks` then
    returns is the range of that payload if and only if no entry of the list was above it. -/
theorem stored_range_first_iff {s : Sys} (hr : Reach Sys.Init Sys.step CapKept s)
    (hcap : s.conn.rx.readBuf.cap < 2 ^ 32) (hs : s.conn.ctl.synced = true)
    (hopen : s.conn.rx.readBuf.closed = false) {c : TCPConn} (hrx : c.rx = s.conn.rx)
    (happ : c.app = s.conn.app) {seq : UInt32} {data : List UInt8} (hlen : data.length < 2 ^ 16)
    (hgt : seqGreaterThan seq c.rx.rcv.nxt = true)
    (hstored : (c.handleData seq data).rx.rcv.ooo ≠ c.rx.rcv.ooo) (tsEnabled : Bool) :
    (c.handleData seq data).rx.rcv.FirstHolds tsEnabled seq (c.inWindow seq data) ↔
      ComesFirst c.rx.rcv.nxt c.rx.rcv.ooo seq (c.inWindow seq data) := by
  have hfree : c.rx.readBuf.free < 2 ^ 32 := by
    have := c.rx.readBuf.len_add_free
    rw [hrx] at this ⊢
    omega
  obtain ⟨hshut, hrcv, o, hseq, hfits⟩ := handleData_stores hfree hlen hgt hstored
  have hlive := (promising_reach (readKept_reach hr (happ ▸ hshut))).live hs
  have ho := (hlive.resolve_left (by rw [hopen]; simp)).ahead
  rw [← hrx] at ho
  have hcov : covered c.rx.rcv.ooo seq (seq + UInt32.ofNat (c.inWindow seq data).length) = false := by
    by_contra hcov
    rw [hrcv, Receiver.insertOOO, if_pos (by simpa using hcov)] at hstored
    exact hstored rfl
  rw [hrcv]
  rw [hseq] at hfits hcov ⊢
  rw [← seqAt_add] at hcov
  exact insertOOO_firstHolds_iff hfits ho hfree hcov tsEnabled

/-- A second range that arrives above the first comes first. -/
theorem stored_range_first_above : ∃ s : Sys, Reach Sys.Init Sys.step CapKept s ∧
    s.conn.rx.rcv.ooo = [⟨103, [1]⟩] ∧
    (s.conn.handleData 106 [2]).rx.rcv.FirstHolds s.conn.env.tsEnabled 106 [2] := by
  obtain ⟨s, hr, hs, hopen, hcap, hgt, hooo, hnxt, hin, hstored⟩ := exists_reach_sack ReadKept 100
    (fun s => s.conn.ctl.synced = true ∧ s.conn.rx.readBuf.closed = false ∧
      s.conn.rx.readBuf.cap < 2 ^ 32 ∧ seqGreaterThan 106 s.conn.rx.rcv.nxt = true ∧
      s.conn.rx.rcv.ooo = [⟨103, [1]⟩] ∧ s.conn.rx.rcv.nxt = 101 ∧ s.conn.inWindow 106 [2] = [2] ∧
      (s.conn.handleData 106 [2]).rx.rcv.ooo ≠ s.conn.rx.rcv.ooo)
    [Sys.dataAt 101 [], Sys.dataAt 103 [1]] (by decide +kernel)
  have hr' : Reach Sys.Init Sys.step CapKept s := hr.mono fun _ _ h => h.2
  have hiff := stored_range_first_iff hr' hcap hs hopen rfl rfl (by decide) hgt hstored
    s.conn.env.tsEnabled
  rw [hin, hooo, hnxt] at hiff
  exact ⟨s, hr', hooo, hiff.2 ⟨by decide, by decide⟩⟩

/-- A second range that arrives below the first is stored, but the first one is reported first. -/
theorem stored_range_not_first : ∃ s : Sys, Reach Sys.Init Sys.step (fun _ _ => True) s ∧
    s.conn.ctl.state = .established ∧ seqGreaterThan 103 s.conn.rx.rcv.nxt = true ∧
    s.conn.rx.rcv.ooo = [⟨106, [2]⟩] ∧
    (s.conn.handleData 103 [1]).rx.rcv.ooo = [⟨103, [1]⟩, ⟨106, [2]⟩] ∧
    (s.conn.handleData 103 [1]).rx.rcv.sackBlocks s.conn.env.tsEnabled = [⟨106, 107⟩, ⟨103, 104⟩] ∧
    ¬(s.conn.handleData 103 [1]).rx.rcv.FirstHolds s.conn.env.tsEnabled 103 [1] := by
  obtain ⟨s, hr, hs⟩ := exists_reach_sack ReadKept 100
    (fun s => s.conn.ctl.state = .established ∧ seqGreaterThan 103 s.conn.rx.rcv.nxt = true ∧
      s.conn.rx.rcv.ooo = [⟨106, [2]⟩] ∧
      (s.conn.handleData 103 [1]).rx.rcv.ooo = [⟨103, [1]⟩, ⟨106, [2]⟩] ∧
      (s.conn.handleData 103 [1]).rx.rcv.sackBlocks s.conn.env.tsEnabled = [⟨106, 107⟩, ⟨103, 104⟩] ∧
      ¬(s.conn.handleData 103 [1]).rx.rcv.FirstHolds s.conn.env.tsEnabled 103 [1])
    [Sys.dataAt 101 [], Sys.dataAt 106 [2]] (by decide +kernel)
  exact ⟨s, hr.mono fun _ _ _ => trivial, hs⟩

end Netstack.Tcp
