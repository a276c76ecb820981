import Netstack.Tcp.SackTruth

/-! The out-of-order list.

    `insertOOO` and `deliverOOO` compare sequence numbers modulo 2^32 and rebuild the list on every
    segment. Whatever the segments are, what they leave in a connection that is still ESTABLISHED is a
    list of ranges in order, with a gap before each, ahead of `rcv.nxt` and inside the free space of
    `readBuf`: that is `Open`, counted from a base that is 2^31 bytes behind, so that a segment from
    anywhere has an offset. -/

namespace Netstack.Tcp
open Netstack.Header Netstack.Trace Netstack.Serial Netstack.Copy

/-- How far ahead of `nxt` an entry starts. -/
def OOOSegment.ahead (e : OOOSegment) (nxt : UInt32) : ℕ := (e.seq - nxt).toNat

/-- The out-of-order list is in order: sorted, with non-empty entries and a missing byte between two
    of them, the first after `rcv.nxt` and the last inside the free space of `readBuf`, of which they
    do not take all. -/
structure TCPConn.OOOOrdered (c : TCPConn) : Prop where
  sorted : c.rx.rcv.ooo.Pairwise fun e e' => seqLessThan e.seq e'.seq = true
  apart : c.rx.rcv.ooo.Pairwise fun e e' =>
    e.ahead c.rx.rcv.nxt + e.data.length < e'.ahead c.rx.rcv.nxt
  nonempty : ∀ e ∈ c.rx.rcv.ooo, e.data ≠ []
  first : ∀ e ∈ c.rx.rcv.ooo.head?, seqGreaterThan e.seq c.rx.rcv.nxt = true
  last : ∀ e ∈ c.rx.rcv.ooo.getLast?, e.ahead c.rx.rcv.nxt + e.data.length ≤ c.rx.readBuf.free
  total : c.rx.rcv.ooo ≠ [] → (c.rx.rcv.ooo.map fun e => e.data.length).sum < c.rx.readBuf.free

/-! ### Reading it off the offsets -/

section
variable {base : UInt32} {Q : ℕ → List UInt8 → Prop} {top edge : ℕ}

/-- Two entries, in the order of the list. -/
theorem Filed.pairwise : ∀ {l : List OOOSegment} {lo : ℕ}, Filed base Q top edge lo l →
    l.Pairwise fun e e' => ∃ x x', e.seq = seqAt base x ∧ e'.seq = seqAt base x' ∧ lo < x ∧
      x + e.data.length < x' ∧ x' + e'.data.length ≤ edge
  | [], _, _ => List.Pairwise.nil
  | e :: rest, lo, ⟨off, h1, h2, h3, h4, h5, h6, h7⟩ => by
      refine List.Pairwise.cons (fun e' he' => ?_) (h7.pairwise.imp fun h => ?_)
      · obtain ⟨off', k1, -, k3, k4, -⟩ := h7.entry he'
        exact ⟨off, off', h4, k4, h1, k1, k3⟩
      · obtain ⟨x, x', hx, hx', hlo, hgap, hle⟩ := h
        exact ⟨x, x', hx, hx', by omega, hgap, hle⟩

/-- Each entry has a missing byte in front of it. -/
theorem Filed.sum_le : ∀ {l : List OOOSegment} {lo : ℕ}, lo ≤ edge → Filed base Q top edge lo l →
    lo + (l.map fun e => e.data.length).sum + l.length ≤ edge
  | [], _, hle, _ => by simpa using hle
  | e :: rest, lo, _, ⟨off, h1, h2, h3, h4, h5, h6, h7⟩ => by
      have ih := h7.sum_le h3
      rw [List.map_cons, List.sum_cons, List.length_cons]
      omega

end

theorem TCPConn.Open.ordered {base : UInt32} {c : TCPConn} {p : ℕ} (h : Open base (fun _ _ => True) c p)
    (hfree : c.rx.readBuf.free < 2 ^ 31) : c.OOOOrdered := by
  have hoff : ∀ {e : OOOSegment} {x : ℕ}, e.seq = seqAt base x → p < x → x ≤ p + c.rx.readBuf.free →
      e.ahead c.rx.rcv.nxt = x - p := by
    intro e x hx hlt hle
    rw [OOOSegment.ahead, hx, h.nxt, toNat_sub_of_le base hlt.le (by omega)]
  refine ⟨h.ooo.pairwise.imp ?_, h.ooo.pairwise.imp ?_, fun e he => h.ooo.ne_nil he, fun e he => ?_,
    fun e he => ?_, fun hne => ?_⟩
  · rintro e e' ⟨x, x', hx, hx', hlo, hgap, hle⟩
    rw [hx, hx', seqLessThan_seqAt base (by omega) (by omega)]
    exact decide_eq_true (by omega)
  · rintro e e' ⟨x, x', hx, hx', hlo, hgap, hle⟩
    rw [hoff hx hlo (by omega), hoff hx' (by omega) (by omega)]
    omega
  · obtain ⟨x, hlt, -, hle, hx, -⟩ := h.ooo.entry (List.mem_of_mem_head? he)
    rw [hx, h.nxt, seqGreaterThan_seqAt base (by omega) (by omega)]
    exact decide_eq_true hlt
  · obtain ⟨x, hlt, -, hle, hx, -⟩ := h.ooo.entry (List.mem_of_mem_getLast? he)
    rw [hoff hx hlt (by omega)]
    omega
  · have hsum := h.ooo.sum_le (Nat.le_add_right _ _)
    have hpos := List.length_pos_iff.2 hne
    omega

/-! ### Runs -/

/-- What happens to a receiver: a segment's data, a `Read`, a `Grow`, or something that is not its
    business. -/
inductive Turn where
  | data (seg : Segment)
  | read (n : ℕ)
  | grow (newCap : ℕ)
  | other (c : TCPConn)

/-- `c'` differs from `c` in what the out-of-order list does not depend on; it may have left
    ESTABLISHED. -/
structure TCPConn.SameList (c c' : TCPConn) : Prop where
  nxt : c'.rx.rcv.nxt = c.rx.rcv.nxt
  ooo : c'.rx.rcv.ooo = c.rx.rcv.ooo
  readBuf : c'.rx.readBuf = c.rx.readBuf
  readShutdown : c'.app.readShutdown = c.app.readShutdown
  established : c'.ctl.state = .established → c.ctl.state = .established

/-- One turn. Data is handed to the receiver in ESTABLISHED. -/
def TCPConn.turn (c : TCPConn) : Turn → Option TCPConn
  | .data seg =>
    if c.ctl.state = .established then some (c.handleData seg.seq seg.payload) else none
  | .read n => some { c with rx.readBuf := (c.rx.readBuf.readNoBlock n).1 }
  | .grow newCap => some { c with rx.readBuf := c.rx.readBuf.grow newCap }
  | .other c' => some c'

/-- `readBuf` is below 2^31 bytes, and other turns leave the list alone. -/
def SmallBuf (c : TCPConn) (t : Turn) : Prop :=
  c.rx.readBuf.cap < 2 ^ 31 ∧ ∀ c', t = .other c' → c.SameList c'

/-- A connection with a new receiver, open for reading. -/
structure NewlyOpen (c : TCPConn) : Prop where
  ooo : c.rx.rcv.ooo = []
  closed : c.rx.readBuf.closed = false
  readShutdown : c.app.readShutdown = false

/-- While it is ESTABLISHED, the receiver is open at some offset from some base. -/
structure StaysOpen (c : TCPConn) : Prop where
  readShutdown : c.app.readShutdown = false
  isOpen : c.ctl.state = .established → ∃ base p, 2 ^ 31 ≤ p ∧ TCPConn.Open base (fun _ _ => True) c p

theorem NewlyOpen.staysOpen {c : TCPConn} (h : NewlyOpen c) : StaysOpen c := by
  refine ⟨h.readShutdown, fun _ => ⟨c.rx.rcv.nxt - UInt32.ofNat (2 ^ 31), 2 ^ 31, le_rfl, ?_, h.closed, ?_⟩⟩
  · rw [seqAt, UInt32.sub_add_cancel]
  · rw [h.ooo]
    trivial

/-- Data from anywhere. -/
theorem StaysOpen.handleData {c : TCPConn} (h : StaysOpen c) (hest : c.ctl.state = .established)
    (hcap : c.rx.readBuf.cap < 2 ^ 31) (seg : Segment) : StaysOpen (c.handleData seg.seq seg.payload) := by
  obtain ⟨base, p, hp, hopen⟩ := h.isOpen hest
  have hsum := c.rx.readBuf.len_add_free
  obtain ⟨o, hseq, hop, hpo⟩ := exists_seqAt_near base seg.seq hp
  obtain ⟨run, c₁, hrec, -, hopen₁, hcases⟩ := TCPConn.handleData_takesIn sliceable_true hopen (by omega)
    h.readShutdown seg.payload_lt hop hpo trivial
  have hshut₁ : c₁.app.readShutdown = false := by
    rw [hrec.same]
    exact h.readShutdown
  have hstay : StaysOpen c₁ := ⟨hshut₁, fun _ => ⟨base, p + run.length, by omega, hopen₁⟩⟩
  rw [hseq]
  rcases hcases with he | he <;> rw [he]
  · exact hstay
  · refine ⟨?_, ?_⟩
    · rw [(TCPConn.RxOnly.deferredFIN c₁).app]
      exact hshut₁
    · rw [TCPConn.deferredFIN]
      split
      · -- the FIN has been counted, which ends ESTABLISHED
        exact fun hest' => by cases hest'
      · exact hstay.isOpen

theorem staysOpen_turn {c c' : TCPConn} {t : Turn} (h : StaysOpen c) (hok : SmallBuf c t)
    (ht : c.turn t = some c') : StaysOpen c' := by
  obtain ⟨hcap, hother⟩ := hok
  cases t with
  | data seg =>
    rw [TCPConn.turn] at ht
    split_ifs at ht with hest
    rw [← Option.some.inj ht]
    exact h.handleData hest hcap seg
  | read n =>
    rw [← Option.some.inj ht]
    refine ⟨h.readShutdown, fun hest => ?_⟩
    obtain ⟨base, p, hp, ho⟩ := h.isOpen hest
    have hfree := c.rx.readBuf.free_le_free_readNoBlock n
    exact ⟨base, p, hp, ho.nxt, (c.rx.readBuf.closed_readNoBlock n).trans ho.closed,
      ho.ooo.mono le_rfl (Nat.add_le_add_left hfree _) le_rfl⟩
  | grow newCap =>
    rw [← Option.some.inj ht]
    refine ⟨h.readShutdown, fun hest => ?_⟩
    obtain ⟨base, p, hp, ho⟩ := h.isOpen hest
    have hfree := c.rx.readBuf.free_le_free_grow newCap
    exact ⟨base, p, hp, ho.nxt, (c.rx.readBuf.closed_grow newCap).trans ho.closed,
      ho.ooo.mono le_rfl (Nat.add_le_add_left hfree _) le_rfl⟩
  | other c₁ =>
    obtain rfl := Option.some.inj ht
    have hsame := hother c₁ rfl
    refine ⟨hsame.readShutdown.trans h.readShutdown, fun hest => ?_⟩
    obtain ⟨base, p, hp, ho⟩ := h.isOpen (hsame.established hest)
    refine ⟨base, p, hp, hsame.nxt.trans ho.nxt, by rw [hsame.readBuf]; exact ho.closed, ?_⟩
    rw [hsame.readBuf, hsame.ooo]
    exact ho.ooo

/-- SAFE: in every run of segments from anywhere, reads and growth on a connection that started with a
    new receiver, the out-of-order list is in order whenever the connection is ESTABLISHED. -/
theorem ooo_list_ordered {c : TCPConn} (hr : Reach NewlyOpen TCPConn.turn SmallBuf c)
    (hest : c.ctl.state = .established) (hcap : c.rx.readBuf.cap < 2 ^ 31) : c.OOOOrdered := by
  have hstay : StaysOpen c := hr.invariant (fun _ h => h.staysOpen) fun _ _ _ h hok ht =>
    staysOpen_turn h hok ht
  obtain ⟨base, p, -, hopen⟩ := hstay.isOpen hest
  have hsum := c.rx.readBuf.len_add_free
  exact hopen.ordered (by omega)

/-- Two segments with a gap before each: four bytes are buffered in eight. -/
theorem ooo_list_ordered_gaps : ∃ c : TCPConn, Reach NewlyOpen TCPConn.turn SmallBuf c ∧
    c.ctl.state = .established ∧ c.rx.rcv.nxt = 101 ∧ c.rx.readBuf.free = 8 ∧
    c.rx.rcv.ooo = [⟨102, [1, 2]⟩, ⟨105, [3, 4]⟩] ∧ c.OOOOrdered := by
  have hsmall : ∀ {c : TCPConn} {seg : Segment}, c.rx.readBuf.cap = 8 → SmallBuf c (.data seg) := by
    intro c seg hcap
    refine ⟨by rw [hcap]; decide, fun c' h => ?_⟩
    cases h
  obtain ⟨late, hseq, hpay⟩ : ∃ seg : Segment, seg.seq = 105 ∧ seg.payload = [3, 4] :=
    ⟨Sys.sampleSegment tcpFlagACK 105 201 1000 [3, 4], rfl, rfl⟩
  obtain ⟨early, hseq', hpay'⟩ : ∃ seg : Segment, seg.seq = 102 ∧ seg.payload = [1, 2] :=
    ⟨Sys.sampleSegment tcpFlagACK 102 201 1000 [1, 2], rfl, rfl⟩
  obtain ⟨s, -, hnil, hclosed, hshut, hest, hcap, hest₁, hcap₁, hest₂, hcap₂, hnxt, hfree, hooo⟩ :=
    Sys.exists_reach Sys.init_sample (fun _ _ => true)
      (fun s => s.conn.rx.rcv.ooo = [] ∧ s.conn.rx.readBuf.closed = false ∧
        s.conn.app.readShutdown = false ∧ s.conn.ctl.state = .established ∧ s.conn.rx.readBuf.cap = 8 ∧
        (s.conn.handleData 105 [3, 4]).ctl.state = .established ∧
        (s.conn.handleData 105 [3, 4]).rx.readBuf.cap = 8 ∧
        ((s.conn.handleData 105 [3, 4]).handleData 102 [1, 2]).ctl.state = .established ∧
        ((s.conn.handleData 105 [3, 4]).handleData 102 [1, 2]).rx.readBuf.cap = 8 ∧
        ((s.conn.handleData 105 [3, 4]).handleData 102 [1, 2]).rx.rcv.nxt = 101 ∧
        ((s.conn.handleData 105 [3, 4]).handleData 102 [1, 2]).rx.readBuf.free = 8 ∧
        ((s.conn.handleData 105 [3, 4]).handleData 102 [1, 2]).rx.rcv.ooo
          = [⟨102, [1, 2]⟩, ⟨105, [3, 4]⟩])
      [Sys.sampleACK] (by decide +kernel)
  have hr : Reach NewlyOpen TCPConn.turn SmallBuf s.conn := .start ⟨hnil, hclosed, hshut⟩
  have hturn : s.conn.turn (.data late) = some (s.conn.handleData 105 [3, 4]) := by
    rw [TCPConn.turn, if_pos hest, hseq, hpay]
  have hturn' : (s.conn.handleData 105 [3, 4]).turn (.data early)
      = some ((s.conn.handleData 105 [3, 4]).handleData 102 [1, 2]) := by
    rw [TCPConn.turn, if_pos hest₁, hseq', hpay']
  have hr' := (hr.next (hsmall hcap) hturn).next (hsmall hcap₁) hturn'
  exact ⟨_, hr', hest₂, hnxt, hfree, hooo, ooo_list_ordered hr' hest₂ (by rw [hcap₂]; decide)⟩

end Netstack.Tcp
