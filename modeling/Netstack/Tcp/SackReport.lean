import Netstack.Lib.SerialRange
import Netstack.Tcp.Mss
import Netstack.Tcp.WindowPromise

/-! What `sackBlocks` reports of the out-of-order list (`rcv.go`).

    The list is kept in sequence order, but `sackBlocks` joins its ranges by plain comparison of the
    numbers. As long as every gap lies on one side of the wrap nothing is joined, and the highest
    ranges are reported, the highest first. A gap that the wrap lies in makes all ranges above it
    disappear. -/

namespace Netstack.Tcp
open Netstack.Header Netstack.Serial Netstack.Trace TCPConn

/-- The range of an entry. -/
def OOOSegment.range (e : OOOSegment) : SACKBlock := ⟨e.seq, e.stop⟩

/-- The entries come one after the other in sequence order, non-empty and with a gap before each, all
    in one round of the sequence numbers. -/
def InSequence (l : List OOOSegment) : Prop :=
  ∃ base : UInt32, Filed base (fun _ _ => True) (2 ^ 32) (2 ^ 32) 0 l

section
variable {base : UInt32} {Q : ℕ → List UInt8 → Prop} {p top edge : ℕ}

/-- The list, with offsets counted from `p`. -/
theorem Filed.rebase : ∀ {l : List OOOSegment} {lo : ℕ},
    Filed base Q (p + top) (p + edge) (p + lo) l →
    Filed (seqAt base p) (fun _ _ => True) top edge lo l
  | [], _, _ => trivial
  | e :: rest, lo, ⟨off, h1, h2, h3, h4, h5, _, h7⟩ => by
      have hrest : Filed base Q (p + top) (p + edge) (p + (off - p + e.data.length)) rest := by
        rwa [show p + (off - p + e.data.length) = off + e.data.length by omega]
      refine ⟨off - p, by omega, by omega, by omega, ?_, h5, trivial, hrest.rebase⟩
      rw [h4, show off = p + (off - p) by omega, seqAt_add, Nat.add_sub_cancel_left]
      rfl

/-- The list of a receiver, counted from `rcv.nxt`. -/
theorem TCPConn.Open.ahead {c : TCPConn} (h : Open base Q c p) :
    Filed c.rx.rcv.nxt (fun _ _ => True) (2 ^ 31) c.rx.readBuf.free 0 c.rx.rcv.ooo := by
  rw [h.nxt]
  exact Filed.rebase h.ooo

end

/-- The list is in sequence order in every state in which `readBuf` is open, if it has always been
    below `2 ^ 32` bytes. -/
theorem inSequence_reach {s : Sys} (hr : Reach Sys.Init Sys.step ReadKept s)
    (hs : s.conn.ctl.synced = true) (hopen : s.conn.rx.readBuf.closed = false)
    (hcap : s.conn.rx.readBuf.cap < 2 ^ 32) : InSequence s.conn.rx.rcv.ooo := by
  have ho := ((promising_reach hr).live hs).resolve_left (by rw [hopen]; simp)
  have hfree := s.conn.rx.readBuf.len_add_free
  exact ⟨_, ho.ahead.mono (by decide) (by omega) (le_refl _)⟩

/-- The entries up to the first gap that the wrap lies in. -/
def reported : List OOOSegment → List OOOSegment
  | [] => []
  | [e] => [e]
  | e :: e' :: rest => if e.stop < e'.seq then e :: reported (e' :: rest) else [e]

theorem reported_isPrefix : ∀ l : List OOOSegment, reported l <+: l
  | [] => List.prefix_refl _
  | [e] => List.prefix_refl _
  | e :: e' :: rest => by
      rw [reported]
      split
      · exact List.cons_prefix_cons.2 ⟨rfl, reported_isPrefix (e' :: rest)⟩
      · exact List.cons_prefix_cons.2 ⟨rfl, List.nil_prefix⟩

theorem reported_ne_nil : ∀ {l : List OOOSegment}, l ≠ [] → reported l ≠ []
  | [e], _ => by simp [reported]
  | e :: e' :: rest, _ => by
      rw [reported]
      split <;> simp

/-- All entries are reported iff no gap has the wrap in it. -/
theorem reported_eq_iff : ∀ l : List OOOSegment,
    reported l = l ↔ l.IsChain fun e e' => e.stop < e'.seq
  | [] => by simp [reported]
  | [e] => by simp [reported]
  | e :: e' :: rest => by
      rw [reported, List.isChain_cons_cons, ← reported_eq_iff (e' :: rest)]
      split
      · rename_i hlt
        simp [hlt]
      · rename_i hge
        simp [hge]

section
variable {base : UInt32} {top edge lo : ℕ}

/-- The wrap lies in the gap before `e'`: its number, and all after it, are small. -/
theorem Filed.past_wrap {e e' : OOOSegment} {rest : List OOOSegment}
    (h : Filed base (fun _ _ => True) top edge lo (e :: e' :: rest)) (hedge : edge ≤ 2 ^ 32)
    (hwrap : e'.seq ≤ e.stop) : ∀ x ∈ e' :: rest, x.seq ≤ e.stop ∧ x.stop ≤ e.stop := by
  intro x hx
  obtain ⟨o, h1, h2, h3, h4, h5, -, hrest⟩ := h
  have hin : ∃ o'', o + e.data.length < o'' ∧ o'' + x.data.length ≤ edge ∧ x.seq = seqAt base o'' ∧
      ∃ o', e'.seq = seqAt base o' ∧ o + e.data.length < o' ∧ o' ≤ o'' := by
    obtain ⟨o', g1, g2, g3, g4, g5, -, g7⟩ := hrest
    rcases List.mem_cons.1 hx with rfl | hx
    · exact ⟨o', g1, g3, g4, o', g4, g1, le_refl _⟩
    · obtain ⟨o'', k1, k2, k3, k4, -⟩ := g7.entry hx
      exact ⟨o'', by omega, k3, k4, o', g4, g1, by omega⟩
  obtain ⟨o'', k1, k2, k3, o', g1, g2, g3⟩ := hin
  have hb := base.toNat_lt
  rw [stop_eq h4, stop_eq k3, k3]
  rw [stop_eq h4, g1] at hwrap
  simp only [UInt32.le_iff_toNat_le, toNat_seqAt] at hwrap ⊢
  omega

/-- Ranges that are plainly below the end of `cur` disappear in it. -/
theorem coalesce_past {cur : SACKBlock} : ∀ {rest : List OOOSegment},
    (∀ e ∈ rest, e.seq ≤ cur.stop ∧ e.stop ≤ cur.stop) → coalesce cur rest = [cur]
  | [], _ => rfl
  | e :: rest, h => by
      obtain ⟨hseq, hstop⟩ := h e List.mem_cons_self
      have hsame : ¬e.seq + UInt32.ofNat e.data.length > cur.stop := UInt32.not_lt.2 hstop
      rw [coalesce, if_pos hseq, if_neg hsame]
      exact coalesce_past fun e he => h e (List.mem_cons_of_mem _ he)

/-- What the coalescing loop makes of the list. -/
theorem sackRanges_eq (hedge : edge ≤ 2 ^ 32) : ∀ {l : List OOOSegment} {lo : ℕ},
    Filed base (fun _ _ => True) top edge lo l → sackRanges l = (reported l).map OOOSegment.range
  | [], _, _ => rfl
  | [e], _, _ => rfl
  | e :: e' :: rest, lo, h => by
      have hrest := h
      obtain ⟨o, -, -, -, -, -, -, hrest⟩ := hrest
      rw [reported]
      split
      · rename_i hlt
        rw [List.map_cons, ← sackRanges_eq hedge hrest]
        have hapart : ¬e'.seq ≤ e.stop := UInt32.not_le.2 hlt
        exact if_neg hapart
      · rename_i hge
        exact coalesce_past (h.past_wrap hedge (UInt32.not_lt.1 hge))

/-- No two entries start at the same number. -/
theorem Filed.nodup (hedge : edge ≤ 2 ^ 32) : ∀ {l : List OOOSegment} {lo : ℕ},
    Filed base (fun _ _ => True) top edge lo l → (l.map OOOSegment.seq).Nodup
  | [], _, _ => List.nodup_nil
  | e :: rest, lo, ⟨o, h1, h2, h3, h4, h5, _, h7⟩ => by
      have hpos := List.length_pos_iff.2 h5
      refine List.nodup_cons.2 ⟨fun hmem => ?_, Filed.nodup hedge h7⟩
      obtain ⟨x, hx, hseq⟩ := List.mem_map.1 hmem
      obtain ⟨o', k1, -, k3, k4, -⟩ := h7.entry hx
      rw [h4, k4, seqAt_inj base (by omega) (by omega)] at hseq
      omega

end

/-- The last entry is reported only if all are. -/
theorem reported_eq_of_last {l : List OOOSegment} (hnodup : (l.map OOOSegment.seq).Nodup)
    (hlast : (reported l).getLast?.map OOOSegment.seq = l.getLast?.map OOOSegment.seq) :
    reported l = l := by
  obtain ⟨t, ht⟩ := reported_isPrefix l
  rcases List.eq_nil_or_concat t with rfl | ⟨t', x, rfl⟩
  · rwa [List.append_nil] at ht
  · exfalso
    have hne : reported l ≠ [] := reported_ne_nil fun hnil => by simp [hnil] at ht
    have hl : l.getLast? = some x := by rw [← ht]; simp
    rw [hl, List.getLast?_eq_some_getLast hne, Option.map_some, Option.map_some, Option.some.injEq] at hlast
    rw [← ht, List.map_append] at hnodup
    refine (List.nodup_append.1 hnodup).2.2 _ (List.mem_map_of_mem (List.getLast_mem hne)) x.seq ?_ hlast
    simp

/-- CORRECT: with no DSACK block pending, the blocks are the ranges of the highest entries of a list in
    sequence order, the highest first, if and only if no gap of the list has the wrap in it. -/
theorem sackBlocks_complete_iff {r : Receiver} (hseq : InSequence r.ooo)
    (hdsack : r.hasDSACKBlock = false) (tsEnabled : Bool) :
    r.sackBlocks tsEnabled
      = (r.ooo.map OOOSegment.range).reverse.take (if tsEnabled then 3 else 4) ↔
    r.ooo.IsChain fun e e' => e.stop < e'.seq := by
  obtain ⟨base, hfiled⟩ := hseq
  have hblocks : r.sackBlocks tsEnabled
      = ((reported r.ooo).map OOOSegment.range).reverse.take (if tsEnabled then 3 else 4) := by
    rw [← sackRanges_eq (le_refl _) hfiled]
    simp [Receiver.sackBlocks, hdsack]
  rw [hblocks, ← reported_eq_iff]
  refine ⟨fun h => ?_, fun h => by rw [h]⟩
  -- the first blocks are the last entries
  have hhead := congrArg List.head? h
  have hlimit : (if tsEnabled then 3 else 4) ≠ 0 := by split <;> simp
  rw [List.head?_take, List.head?_take, if_neg hlimit, if_neg hlimit, List.head?_reverse,
    List.head?_reverse, List.getLast?_map, List.getLast?_map] at hhead
  refine reported_eq_of_last (hfiled.nodup (le_refl _)) ?_
  have hstart := congrArg (Option.map SACKBlock.start) hhead
  rwa [Option.map_map, Option.map_map] at hstart

/-- A SYN that permits SACK, on a connection whose peer starts at `irs`. -/
def Sys.sackSYN (irs : UInt32) : Sys :=
  Sys.start (Sys.sampleHandler 8 4) irs 200 [4, 2] Sys.sampleHandler_read_pos
    Sys.sampleHandler_write_pos

theorem exists_reach_sack (ok : Sys → Event → Prop) [∀ s e, Decidable (ok s e)] (irs : UInt32)
    (P : Sys → Prop) [DecidablePred P] (es : List Event)
    (h : (exec Sys.step ok (Sys.sackSYN irs) es).any (fun s => P s) = true) :
    ∃ s, Reach Sys.Init Sys.step ok s ∧ P s := by
  have hinit : (Sys.sackSYN irs).Init :=
    Sys.init_iff.2 ⟨_, _, _, _, _, _, ⟨(Sys.sampleHandler 8 4).cfg, rfl⟩, rfl⟩
  exact exists_reach_exec hinit es h

/-- A payload at `seq`, with the ACK that completes the handshake. -/
def Sys.dataAt (seq : UInt32) (payload : List UInt8) (h : payload.length < 2 ^ 16 := by decide) : Event :=
  .inbound (Sys.sampleSegment tcpFlagACK seq 201 1000 payload h)

/-- Two ranges away from the wrap: both are reported, the higher one first. -/
theorem sackBlocks_complete_two : ∃ s : Sys, Reach Sys.Init Sys.step (fun _ _ => True) s ∧
    s.conn.rx.rcv.sackBlocks false
      = ([⟨103, 104⟩, ⟨106, 107⟩] : List SACKBlock).reverse.take (if false then 3 else 4) := by
  obtain ⟨s, hr, hs, hopen, hcap, hdsack, hchain, hranges⟩ := exists_reach_sack ReadKept 100
    (fun s => s.conn.ctl.synced = true ∧ s.conn.rx.readBuf.closed = false ∧
      s.conn.rx.readBuf.cap < 2 ^ 32 ∧ s.conn.rx.rcv.hasDSACKBlock = false ∧
      (s.conn.rx.rcv.ooo.IsChain fun e e' => e.stop < e'.seq) ∧
      s.conn.rx.rcv.ooo.map OOOSegment.range = [⟨103, 104⟩, ⟨106, 107⟩])
    [Sys.dataAt 101 [], Sys.dataAt 103 [1], Sys.dataAt 106 [2]]
    (by decide +kernel)
  refine ⟨s, hr.mono fun _ _ _ => trivial, ?_⟩
  rw [← hranges]
  exact (sackBlocks_complete_iff (inSequence_reach hr hs hopen hcap) hdsack false).2 hchain

/-- One range before the wrap and one after it: the one after it is not reported. -/
theorem sackBlocks_incomplete_at_wrap : ∃ s : Sys, Reach Sys.Init Sys.step (fun _ _ => True) s ∧
    InSequence s.conn.rx.rcv.ooo ∧ s.conn.rx.rcv.hasDSACKBlock = false ∧
    s.conn.rx.rcv.ooo.map OOOSegment.range = [⟨0xFFFFFFFD, 0xFFFFFFFE⟩, ⟨1, 2⟩] ∧
    s.conn.rx.rcv.sackBlocks s.conn.env.tsEnabled = [⟨0xFFFFFFFD, 0xFFFFFFFE⟩] := by
  obtain ⟨s, hr, hs, hopen, hcap, hdsack, hranges, hblocks⟩ := exists_reach_sack ReadKept 0xFFFFFFFA
    (fun s => s.conn.ctl.synced = true ∧ s.conn.rx.readBuf.closed = false ∧
      s.conn.rx.readBuf.cap < 2 ^ 32 ∧ s.conn.rx.rcv.hasDSACKBlock = false ∧
      s.conn.rx.rcv.ooo.map OOOSegment.range = [⟨0xFFFFFFFD, 0xFFFFFFFE⟩, ⟨1, 2⟩] ∧
      s.conn.rx.rcv.sackBlocks s.conn.env.tsEnabled = [⟨0xFFFFFFFD, 0xFFFFFFFE⟩])
    [Sys.dataAt 0xFFFFFFFB [], Sys.dataAt 0xFFFFFFFD [1], Sys.dataAt 1 [2]] (by decide +kernel)
  exact ⟨s, hr.mono fun _ _ _ => trivial, inSequence_reach hr hs hopen hcap, hdsack, hranges, hblocks⟩

end Netstack.Tcp
