import Netstack.Lib.SerialRange
import Netstack.Tcp.SegmentIsolation

/-! Which segments a SACK report marks (`processSACKBlocks` of `snd.go`).

    A segment is meant to be marked when some block contains its whole range. The test compares plain
    32-bit numbers, which is the same thing as long as the range and the block are alike with respect to
    the wrap. A block that straddles it marks none of the segments on either side, and a segment that
    straddles it is marked by a block that ends before the wrap. -/

namespace Netstack.Tcp
open Netstack.Header Netstack.Serial

/-- Every sequence number of the segment lies in the block. -/
def Reports (b : SACKBlock) (seg : UnackedSegment) : Prop :=
  ∀ j < seg.data.length, Between b.start b.stop (seg.seq + UInt32.ofNat j)

/-- The test of the marking loop. -/
def PlainlyInside (b : SACKBlock) (seg : UnackedSegment) : Prop :=
  b.start ≤ seg.seq ∧ seg.seq + UInt32.ofNat seg.data.length ≤ b.stop

/-- Both of the ranges straddle the wrap, or neither does. -/
def Alike (b : SACKBlock) (seg : UnackedSegment) : Prop :=
  Straddling b.start b.stop ↔ Straddling seg.seq (seg.seq + UInt32.ofNat seg.data.length)

/-- A segment with data that has not been reported yet. -/
structure Unreported (seg : UnackedSegment) : Prop where
  unmarked : seg.sacked = false
  notFIN : seg.fin = false
  data : seg.data ≠ []

instance (b : SACKBlock) (seg : UnackedSegment) : Decidable (Reports b seg) :=
  inferInstanceAs (Decidable (∀ j < seg.data.length, _))

/-- Fewer than `2 ^ 31` bytes are in flight. -/
def Sender.FlightBounded (s : Sender) : Prop := (s.unacked.map fun e => e.data.length).sum < 2 ^ 31

/-- The end of every block is after its start, by less than `2 ^ 31`. -/
def BlocksOrdered (blocks : List SACKBlock) : Prop :=
  ∀ b ∈ blocks, 0 < (b.stop - b.start).toNat ∧ (b.stop - b.start).toNat < 2 ^ 31

instance (s : Sender) : Decidable s.FlightBounded := inferInstanceAs (Decidable (_ < _))

instance (blocks : List SACKBlock) : Decidable (BlocksOrdered blocks) :=
  inferInstanceAs (Decidable (∀ b ∈ blocks, _))

/-- `processSACKBlocks` marks exactly the unreported segments that a block, other than a leading
    D-SACK, contains. -/
def Sender.MarksExactly (s : Sender) (blocks : List SACKBlock) (ack : UInt32) : Prop :=
  ∀ (i : ℕ) (seg : UnackedSegment), s.unacked[i]? = some seg → Unreported seg →
    ∃ seg' : UnackedSegment, (s.processSACKBlocks blocks ack).unacked[i]? = some seg' ∧
      (seg'.sacked = true ↔ ∃ b ∈ sackedBlocks blocks ack, Reports b seg)

/-- A block not alike the segment does not matter: either it is nowhere near, by both measures, or a
    block that is alike contains the segment anyway. -/
def WrapHarmless (blocks : List SACKBlock) (seg : UnackedSegment) : Prop :=
  (∃ b ∈ blocks, ¬Alike b seg ∧ (PlainlyInside b seg ∨ Reports b seg)) →
    ∃ b ∈ blocks, Alike b seg ∧ Reports b seg

section
variable {b : SACKBlock} {seg : UnackedSegment}

theorem plainlyInside_iff_reports (hpos : 0 < seg.data.length) (hlen : seg.data.length < 2 ^ 31)
    (hb : (b.stop - b.start).toNat < 2 ^ 31) (h : Alike b seg) : PlainlyInside b seg ↔ Reports b seg :=
  plain_iff_forall_between hpos hlen hb h

/-- Of two ranges not alike at most one is seen inside the other: plainly or in truth, never both. -/
theorem not_both_of_not_alike (hpos : 0 < seg.data.length) (hlen : seg.data.length < 2 ^ 31)
    (hb : (b.stop - b.start).toNat < 2 ^ 31) (h : ¬Alike b seg) :
    (Straddling seg.seq (seg.seq + UInt32.ofNat seg.data.length) → ¬Reports b seg) ∧
    (¬Straddling seg.seq (seg.seq + UInt32.ofNat seg.data.length) → ¬PlainlyInside b seg) := by
  constructor
  · intro hs hr
    exact h ⟨fun _ => hs, fun _ => straddling_of_forall_between hpos hlen hb hr hs⟩
  · intro hs hp
    exact h ⟨fun hb => straddling_of_plain hp hb, fun hs' => absurd hs' hs⟩

theorem sacked_markSACKed_iff {blocks : List SACKBlock} (h : seg.sacked = false) :
    (Sender.markSACKed blocks seg).sacked = true ↔ ∃ b ∈ blocks, PlainlyInside b seg := by
  rw [Sender.markSACKed, if_neg (by simp [h])]
  simp [PlainlyInside, List.any_eq_true]

/-- For one segment: the marking is exact iff the wrap does no harm. -/
theorem mark_exact_iff {blocks : List SACKBlock} (hseg : Unreported seg)
    (hlen : seg.data.length < 2 ^ 31) (hb : BlocksOrdered blocks) :
    ((∃ b ∈ blocks, PlainlyInside b seg) ↔ ∃ b ∈ blocks, Reports b seg) ↔ WrapHarmless blocks seg := by
  have hpos : 0 < seg.data.length := List.length_pos_iff.2 hseg.data
  have halike : ∀ b ∈ blocks, Alike b seg → (PlainlyInside b seg ↔ Reports b seg) := fun b hmem h =>
    plainlyInside_iff_reports hpos hlen (hb b hmem).2 h
  have hboth := fun b hmem => @not_both_of_not_alike b seg hpos hlen (hb b hmem).2
  constructor
  · rintro hiff ⟨b, hmem, hnot, hor⟩
    have hr : ∃ b ∈ blocks, Reports b seg := hor.elim (fun hp => hiff.1 ⟨b, hmem, hp⟩) fun hr => ⟨b, hmem, hr⟩
    have hp : ∃ b ∈ blocks, PlainlyInside b seg := hiff.2 hr
    by_cases hs : Straddling seg.seq (seg.seq + UInt32.ofNat seg.data.length)
    · obtain ⟨b', hmem', hr'⟩ := hr
      exact ⟨b', hmem', by_contra fun hna => (hboth b' hmem' hna).1 hs hr', hr'⟩
    · obtain ⟨b', hmem', hp'⟩ := hp
      have ha : Alike b' seg := by_contra fun hna => (hboth b' hmem' hna).2 hs hp'
      exact ⟨b', hmem', ha, (halike b' hmem' ha).1 hp'⟩
  · intro hw
    constructor
    · rintro ⟨b, hmem, hp⟩
      by_cases ha : Alike b seg
      · exact ⟨b, hmem, (halike b hmem ha).1 hp⟩
      · obtain ⟨b', hmem', -, hr⟩ := hw ⟨b, hmem, ha, .inl hp⟩
        exact ⟨b', hmem', hr⟩
    · rintro ⟨b, hmem, hr⟩
      by_cases ha : Alike b seg
      · exact ⟨b, hmem, (halike b hmem ha).2 hr⟩
      · obtain ⟨b', hmem', ha', hr'⟩ := hw ⟨b, hmem, ha, .inr hr⟩
        exact ⟨b', hmem', (halike b' hmem' ha').2 hr'⟩

end

theorem Sender.FlightBounded.length {s : Sender} (h : s.FlightBounded) {seg : UnackedSegment}
    (hseg : seg ∈ s.unacked) : seg.data.length < 2 ^ 31 := by
  have hmem : seg.data.length ∈ s.unacked.map fun e => e.data.length := List.mem_map.2 ⟨seg, hseg, rfl⟩
  exact lt_of_le_of_lt (List.single_le_sum (fun _ _ => Nat.zero_le _) _ hmem) h

theorem BlocksOrdered.sacked {blocks : List SACKBlock} (h : BlocksOrdered blocks) (ack : UInt32) :
    BlocksOrdered (sackedBlocks blocks ack) := by
  cases blocks with
  | nil => exact h
  | cons b rest =>
    rw [sackedBlocks]
    split_ifs
    · exact fun b' hb' => h b' (.tail _ hb')
    · exact h

/-- CORRECT: the marking is exact if and only if, for each unreported segment of the queue, the blocks
    that are not alike it with respect to the wrap do not matter. -/
theorem marksExactly_iff {s : Sender} {blocks : List SACKBlock} (hs : s.FlightBounded)
    (hb : BlocksOrdered blocks) (ack : UInt32) : s.MarksExactly blocks ack ↔
      ∀ seg ∈ s.unacked, Unreported seg → WrapHarmless (sackedBlocks blocks ack) seg := by
  have hmark : ∀ i seg, s.unacked[i]? = some seg → (s.processSACKBlocks blocks ack).unacked[i]?
      = some (Sender.markSACKed (sackedBlocks blocks ack) seg) := fun i seg hi => by
    rw [s.processSACKBlocks_marks, List.getElem?_map, hi]
    rfl
  constructor
  · intro h seg hmem hseg
    obtain ⟨i, hi⟩ := List.getElem?_of_mem hmem
    obtain ⟨seg', hi', hiff⟩ := h i seg hi hseg
    obtain rfl := Option.some.inj ((hmark i seg hi).symm.trans hi')
    rw [sacked_markSACKed_iff hseg.unmarked] at hiff
    exact (mark_exact_iff hseg (hs.length hmem) (hb.sacked ack)).1 hiff
  · intro h i seg hi hseg
    have hmem := List.mem_of_getElem? hi
    refine ⟨_, hmark i seg hi, ?_⟩
    rw [sacked_markSACKed_iff hseg.unmarked]
    exact (mark_exact_iff hseg (hs.length hmem) (hb.sacked ack)).2 (h seg hmem hseg)

/-- `len` bytes in flight from `seq`. -/
def flightSegment (seq : UInt32) (len : ℕ) : UnackedSegment where
  seq := seq
  data := List.replicate len 0
  fin := false
  sentAt := 0
  retransmitted := false
  sacked := false

/-- A sender with one segment in flight. -/
def senderWith (seq : UInt32) (len : ℕ) : Sender :=
  { newSender 0 65535 0 1500 1460 defaultConfig with unacked := [flightSegment seq len] }

/-- Nothing is near the wrap. -/
theorem marksExactly_plain : (senderWith 1000 8).MarksExactly [⟨900, 1100⟩] 500 := by
  refine (marksExactly_iff (by decide) (by decide) 500).2 ?_
  intro seg hmem _ ⟨b, hb, hnot, _⟩
  obtain rfl : seg = flightSegment 1000 8 := List.mem_singleton.1 hmem
  obtain rfl : b = ⟨900, 1100⟩ := List.mem_singleton.1 hb
  exact absurd ⟨fun h => absurd h (by decide), fun h => absurd h (by decide)⟩ hnot

/-- A block that straddles the wrap leaves a segment before it unmarked that it contains, and a block
    that ends before the wrap marks a segment that goes on behind it. -/
theorem marks_wrongly :
    (∃ s : Sender, ∃ seg : UnackedSegment, ∃ b : SACKBlock, s.FlightBounded ∧ BlocksOrdered [b] ∧
      s.unacked = [seg] ∧ Unreported seg ∧ Reports b seg ∧
      (s.processSACKBlocks [b] 0xFFFFFF00).unacked = [seg]) ∧
    ∃ s : Sender, ∃ seg : UnackedSegment, ∃ b : SACKBlock, s.FlightBounded ∧ BlocksOrdered [b] ∧
      s.unacked = [seg] ∧ Unreported seg ∧ ¬Reports b seg ∧
      (s.processSACKBlocks [b] 0xFFFFFF00).unacked = [{ seg with sacked := true }] := by
  refine ⟨⟨senderWith 0xFFFFFFF0 8, flightSegment 0xFFFFFFF0 8, ⟨0xFFFFFFE0, 0x20⟩, by decide, by decide, rfl,
    ⟨rfl, rfl, by decide⟩, by decide, by decide⟩, senderWith 0xFFFFFFF8 16, flightSegment 0xFFFFFFF8 16, ⟨0xFFFFFFE0, 0xFFFFFFFC⟩,
    by decide, by decide, rfl, ⟨rfl, rfl, by decide⟩, by decide, by decide⟩

end Netstack.Tcp
