import Mathlib.Data.List.TakeWhile
import Netstack.Tcp.Frame

/-! The out-of-order list as a set of ranges of the peer's stream.

    The source numbers the ranges by 32-bit words and compares these by the sign of their
    difference. `Filed` reads the list back as ranges of stream offsets: in order, non-empty, with a
    gap before each, none past the right edge of the window. As long as the right edge is less than
    `2 ^ 32` ahead of the receiver, every comparison that `insertOOO` and `deliverOOO` make on such a
    list agrees with the offsets, or else makes `insertOOO` drop the segment. The entries a segment
    touches are joined with it into one, so the list covers what it covered before and the segment, and
    nothing else. -/

namespace Netstack.Tcp
open Netstack.Serial Netstack.Copy

/-- The entries are ranges that start above `lo`, one after the other with a gap before each, below
    `top` and not past `edge`, whose bytes satisfy `Q`. -/
def Filed (base : UInt32) (Q : ℕ → List UInt8 → Prop) (top edge : ℕ) : ℕ → List OOOSegment → Prop
  | _, [] => True
  | lo, e :: rest => ∃ off, lo < off ∧ off < top ∧ off + e.data.length ≤ edge ∧
      e.seq = seqAt base off ∧ e.data ≠ [] ∧ Q off e.data ∧
      Filed base Q top edge (off + e.data.length) rest

section
variable {base : UInt32} {Q : ℕ → List UInt8 → Prop} {top edge lo : ℕ}

theorem Filed.mono {top' edge' lo' : ℕ} (htop : top ≤ top') (hedge : edge ≤ edge') :
    ∀ {l : List OOOSegment} {lo : ℕ}, lo' ≤ lo → Filed base Q top edge lo l →
      Filed base Q top' edge' lo' l
  | [], _, _, _ => trivial
  | e :: rest, lo, hlo, ⟨off, h1, h2, h3, h4, h5, h6, h7⟩ =>
      ⟨off, by omega, by omega, by omega, h4, h5, h6, Filed.mono htop hedge (le_refl _) h7⟩

theorem Filed.entry {e : OOOSegment} : ∀ {l : List OOOSegment} {lo : ℕ}, Filed base Q top edge lo l →
    e ∈ l → ∃ off, lo < off ∧ off < top ∧ off + e.data.length ≤ edge ∧ e.seq = seqAt base off ∧
      Q off e.data
  | e' :: rest, lo, ⟨off, h1, h2, h3, h4, h5, h6, h7⟩, he => by
      rcases List.mem_cons.1 he with rfl | he
      · exact ⟨off, h1, h2, h3, h4, h6⟩
      · obtain ⟨off', k1, k2⟩ := h7.entry he
        exact ⟨off', by omega, k2⟩

theorem stop_eq {e : OOOSegment} {off : ℕ} (h : e.seq = seqAt base off) :
    e.stop = seqAt base (off + e.data.length) := by
  rw [OOOSegment.stop, h, seqAt_add]

/-- An entry that is extended by a range reaching past its end. -/
theorem extend_eq {e : OOOSegment} {off o : ℕ} {data : List UInt8} (he : e.seq = seqAt base off)
    (hle : o ≤ off + e.data.length) (hnear : off + e.data.length < o + 2 ^ 32)
    (hlt : off + e.data.length < o + data.length)
    (hlen : o + data.length < off + e.data.length + 2 ^ 31) :
    e.extend (seqAt base o) data = ⟨seqAt base off, e.data ++ data.drop (off + e.data.length - o)⟩ := by
  have hgt : seqGreaterThan (seqAt base o + UInt32.ofNat data.length) e.stop = true := by
    rw [stop_eq he, ← seqAt_add, seqGreaterThan_seqAt base (by omega) (by omega)]
    exact decide_eq_true hlt
  rw [OOOSegment.extend, if_pos hgt, stop_eq he, toNat_sub_of_le base hle (by omega), he]

/-- What the forward merge makes of an entry of `n` bytes at `a`: `k`, joined from it and `mid`. -/
structure Absorbed (base : UInt32) (a n lo : ℕ) (mid : List OOOSegment) (k : OOOSegment) : Prop where
  seq : k.seq = seqAt base a
  grown : n ≤ k.data.length
  inside : ∀ e ∈ mid, ∃ x, e.seq = seqAt base x ∧ lo < x ∧ x ≤ a + n ∧
    x + e.data.length ≤ a + k.data.length
  last : k.data.length = n ∨ ∃ e ∈ mid, ∃ x, e.seq = seqAt base x ∧ lo < x ∧ x ≤ a + n ∧
    x + e.data.length = a + k.data.length

/-- The forward merge from `cur`, a range above `lo`: the list stays in order, and what `cur` touches is
    joined with it. -/
theorem absorb_spec (hQ : Sliceable Q) : ∀ (rest : List OOOSegment) {a lo' : ℕ} {data : List UInt8},
    lo < a → a < top → a + data.length ≤ edge → data ≠ [] → Q a data →
    a + data.length ≤ lo' + 2 ^ 31 → edge < a + data.length + 2 ^ 31 →
    top ≤ a + data.length + 2 ^ 31 → Filed base Q top edge lo' rest →
    Filed base Q top edge lo (absorb ⟨seqAt base a, data⟩ rest) ∧
    ∃ mid above k, rest = mid ++ above ∧ absorb ⟨seqAt base a, data⟩ rest = k :: above ∧
      Absorbed base a data.length lo' mid k
  | [], a, lo', data, h1, h2, h3, h4, h5, _, _, _, _ =>
      ⟨⟨a, h1, h2, h3, rfl, h4, h5, trivial⟩, [], [], _, rfl, rfl, rfl, le_refl _, by simp, .inl rfl⟩
  | next :: rest, a, lo', data, h1, h2, h3, h4, h5, h6, h7, h8, ⟨x, g1, g2, g3, g4, g5, g6, g7⟩ => by
      have hstop := @stop_eq base ⟨seqAt base a, data⟩ a rfl
      dsimp only at hstop
      have hpos := List.length_pos_iff.2 g5
      rw [absorb, hstop, g4, seqLessThan_seqAt base (by omega) (by omega)]
      by_cases hgap : a + data.length < x
      · rw [if_pos (decide_eq_true hgap)]
        exact ⟨⟨a, h1, h2, h3, rfl, h4, h5, x, hgap, g2, g3, g4, g5, g6, g7⟩,
          [], next :: rest, _, rfl, rfl, rfl, le_refl _, by simp, .inl rfl⟩
      rw [if_neg (by simpa using hgap)]
      by_cases hreach : a + data.length < x + next.data.length
      · -- `next` reaches past `cur`: its tail is appended, and none of the ones above it is touched
        rw [extend_eq rfl (by dsimp only; omega) (by dsimp only; omega) hreach (by dsimp only; omega)]
        dsimp only
        have hlen : (data ++ next.data.drop (a + data.length - x)).length
            = x + next.data.length - a := by
          rw [List.length_append, List.length_drop]; omega
        have hq : Q a (data ++ next.data.drop (a + data.length - x)) := by
          refine hQ.append h5 ?_
          have h := hQ.drop (a + data.length - x) g6
          rwa [show x + (a + data.length - x) = a + data.length by omega] at h
        obtain ⟨hfiled, mid, above, k, hrest, habs, hk⟩ := absorb_spec hQ rest h1 h2 (by rw [hlen]; omega)
          (List.append_ne_nil_of_left_ne_nil h4 _) hq (by rw [hlen]; omega) (by rw [hlen]; omega)
          (by rw [hlen]; omega) g7
        have hnone : mid = [] := by
          refine List.eq_nil_iff_forall_not_mem.2 fun e he => ?_
          obtain ⟨y, -, hy, hyle, -⟩ := hk.inside e he
          rw [hlen] at hyle
          omega
        subst hnone
        have hend : k.data.length = x + next.data.length - a := by
          rcases hk.last with hl | ⟨e, he, -⟩
          · rw [hl, hlen]
          · exact absurd he List.not_mem_nil
        refine ⟨hfiled, [next], above, k, by rw [hrest]; rfl, habs, hk.seq, by omega, fun e he => ?_,
          .inr ⟨next, List.mem_singleton_self _, x, g4, g1, by omega, by omega⟩⟩
        obtain rfl := List.mem_singleton.1 he
        exact ⟨x, g4, g1, by omega, by omega⟩
      · -- `next` lies inside `cur`
        have hno : seqGreaterThan (seqAt base x + UInt32.ofNat next.data.length)
            (OOOSegment.stop ⟨seqAt base a, data⟩) = false := by
          rw [hstop, ← seqAt_add, seqGreaterThan_seqAt base (by omega) (by omega)]
          exact decide_eq_false hreach
        rw [OOOSegment.extend, if_neg (by rw [hno]; simp)]
        obtain ⟨hfiled, mid, above, k, hrest, habs, hk⟩ :=
          absorb_spec hQ rest h1 h2 h3 h4 h5 (by omega) h7 h8 g7
        refine ⟨hfiled, next :: mid, above, k, by rw [hrest]; rfl, habs, hk.seq, hk.grown, fun e he => ?_, ?_⟩
        · have hgrown := hk.grown
          rcases List.mem_cons.1 he with rfl | he
          · exact ⟨x, g4, g1, by omega, by omega⟩
          · obtain ⟨y, hy, h, hle, hend⟩ := hk.inside e he
            exact ⟨y, hy, by omega, hle, hend⟩
        · refine hk.last.imp id ?_
          rintro ⟨e, he, y, hy, h, hle, hend⟩
          exact ⟨e, List.mem_cons_of_mem _ he, y, hy, by omega, hle, hend⟩

/-- `k` is joined from the segment `[o, stop)` and the entries `mid`, all of which touch it. -/
structure Joined (base : UInt32) (o stop : ℕ) (mid : List OOOSegment) (k : OOOSegment) (a : ℕ) :
    Prop where
  seq : k.seq = seqAt base a
  start_le : a ≤ o
  le_end : stop ≤ a + k.data.length
  inside : ∀ e ∈ mid, ∃ x, e.seq = seqAt base x ∧ a ≤ x ∧ x + e.data.length ≤ a + k.data.length ∧
    x ≤ stop ∧ o ≤ x + e.data.length
  first : a = o ∨ ∃ e ∈ mid, e.seq = seqAt base a ∧ o ≤ a + e.data.length
  last : a + k.data.length = stop ∨ ∃ e ∈ mid, ∃ x, e.seq = seqAt base x ∧ x ≤ stop ∧
    x + e.data.length = a + k.data.length

/-- The list `l` with the segment `[o, stop)` filed is `l'`. -/
def Files (base : UInt32) (o stop : ℕ) (l l' : List OOOSegment) : Prop :=
  ∃ below mid above k a, l = below ++ mid ++ above ∧ l' = below ++ k :: above ∧
    Joined base o stop mid k a

theorem Files.cons {o stop : ℕ} {l l' : List OOOSegment} (h : Files base o stop l l')
    (e : OOOSegment) : Files base o stop (e :: l) (e :: l') := by
  obtain ⟨below, mid, above, k, a, rfl, rfl, hj⟩ := h
  exact ⟨e :: below, mid, above, k, a, rfl, rfl, hj⟩

/-- Facts about a segment `[o, o + len)` that `insertOOO` files among ranges above `lo`. -/
structure Fits (Q : ℕ → List UInt8 → Prop) (top edge lo o : ℕ) (data : List UInt8) : Prop where
  above : lo < o
  below : o < top
  near : top ≤ lo + 2 ^ 31
  inWindow : o + data.length ≤ edge
  window : edge ≤ o + 2 ^ 31
  nonempty : data ≠ []
  short : data.length < 2 ^ 31
  reads : Q o data

theorem Fits.pos {o : ℕ} {data : List UInt8} (h : Fits Q top edge lo o data) : 0 < data.length :=
  List.length_pos_iff.2 h.nonempty

/-- An entry of its own, merged forward. One that starts where the segment does is replaced by it. -/
theorem fresh_spec (hQ : Sliceable Q) {o : ℕ} {data : List UInt8} {after : List OOOSegment}
    (h : Fits Q top edge lo o data) (hafter : Filed base Q top edge (o - 1) after)
    (hsame : ∀ e ∈ after.head?, e.seq = seqAt base o → e.data.length ≤ data.length) :
    Filed base Q top edge lo (absorb ⟨seqAt base o, data⟩ (replaced (seqAt base o) after)) ∧
    Files base o (o + data.length) after
      (absorb ⟨seqAt base o, data⟩ (replaced (seqAt base o) after)) := by
  have hpos := h.pos
  obtain ⟨h1, h2, h3, h4, h5, h6, h7, h8⟩ := h
  -- what the merge leaves touches the segment
  have hjoin : ∀ {lo' : ℕ} {mid : List OOOSegment} {k : OOOSegment}, o - 1 ≤ lo' →
      Absorbed base o data.length lo' mid k → Joined base o (o + data.length) mid k o := by
    intro lo' mid k hlo hk
    have hgrown := hk.grown
    refine ⟨hk.seq, le_refl _, by omega, fun e he => ?_, .inl rfl, ?_⟩
    · obtain ⟨x, hx, hlt, hle, hend⟩ := hk.inside e he
      exact ⟨x, hx, by omega, hend, hle, by omega⟩
    · refine hk.last.imp (fun hl => by omega) ?_
      rintro ⟨e, he, x, hx, -, hle, hend⟩
      exact ⟨e, he, x, hx, hle, hend⟩
  have hkeep : ∀ {l : List OOOSegment}, Filed base Q top edge (o - 1) l →
      Filed base Q top edge lo (absorb ⟨seqAt base o, data⟩ l) ∧
      Files base o (o + data.length) l (absorb ⟨seqAt base o, data⟩ l) := by
    intro l hl
    obtain ⟨hfiled, mid, above, k, hrest, habs, hk⟩ :=
      absorb_spec hQ l h1 h2 h4 h6 h8 (by omega) (by omega) (by omega) hl
    exact ⟨hfiled, [], mid, above, k, o, hrest, habs, hjoin (le_refl _) hk⟩
  cases after with
  | nil => exact hkeep hafter
  | cons e rest =>
    rw [replaced]
    split
    · rename_i heq
      have hshort := hsame e rfl heq
      obtain ⟨x, g1, g2, g3, g4, g5, g6, g7⟩ := hafter
      obtain rfl : x = o := (seqAt_inj base (by omega) (by omega)).1 (g4.symm.trans heq)
      obtain ⟨hfiled, mid, above, k, hrest, habs, hk⟩ :=
        absorb_spec hQ rest h1 h2 h4 h6 h8 (by omega) (by omega) (by omega) g7
      have hj := hjoin (by omega) hk
      have hend := hj.le_end
      refine ⟨hfiled, [], e :: mid, above, k, x, by rw [hrest]; rfl, habs, hj.seq, hj.start_le, hj.le_end,
        fun e' he' => ?_, .inl rfl, hj.last.imp id ?_⟩
      · rcases List.mem_cons.1 he' with rfl | he'
        · exact ⟨x, g4, le_refl _, by omega, by omega, by omega⟩
        · exact hj.inside e' he'
      · rintro ⟨e', he', hrest⟩
        exact ⟨e', List.mem_cons_of_mem _ he', hrest⟩
    · exact hkeep hafter

/-- The entries from the insertion point on start at `o` or later. -/
theorem filed_after {o : ℕ} (hlo : lo < o) (ho : o < top) (hnear : top ≤ lo + 2 ^ 31) :
    ∀ {after : List OOOSegment}, Filed base Q top edge lo after →
      (∀ e ∈ after.head?, seqLessThan e.seq (seqAt base o) = false) →
      Filed base Q top edge (o - 1) after
  | [], _, _ => trivial
  | e :: rest, ⟨x, g1, g2, g3, g4, g5, g6, g7⟩, hhead => by
      have hx := hhead e rfl
      rw [g4, seqLessThan_seqAt base (by omega) (by omega), decide_eq_false_iff_not] at hx
      exact ⟨x, by omega, g2, g3, g4, g5, g6, g7⟩

theorem mergeOOO_cons (e e' : OOOSegment) (before after : List OOOSegment) (seq : UInt32)
    (data : List UInt8) : mergeOOO (e :: e' :: before) after seq data
      = e :: mergeOOO (e' :: before) after seq data := by
  simp only [mergeOOO, List.getLast?_cons_cons]
  cases h : (e' :: before).getLast? with
  | none => rfl
  | some prev =>
    dsimp only
    split <;> rfl

/-- The insertion keeps the list in order and files the segment. `before` are the entries that start
    before `o`, and the segment reaches past each of them. -/
theorem mergeOOO_spec (hQ : Sliceable Q) {o : ℕ} {data : List UInt8} :
    ∀ (before after : List OOOSegment) {lo : ℕ}, Fits Q top edge lo o data →
      Filed base Q top edge lo (before ++ after) →
      (∀ e ∈ before, seqLessThan e.seq (seqAt base o) = true) →
      (∀ e ∈ after.head?, seqLessThan e.seq (seqAt base o) = false) →
      (∀ e ∈ before, seqGreaterThan (seqAt base (o + data.length)) e.stop = true) →
      (∀ e ∈ after.head?, e.seq = seqAt base o → e.data.length ≤ data.length) →
      Filed base Q top edge lo (mergeOOO before after (seqAt base o) data) ∧
      Files base o (o + data.length) (before ++ after) (mergeOOO before after (seqAt base o) data)
  | [], after, lo, h, hF, _, hafter, _, hsame =>
      fresh_spec hQ h (filed_after h.above h.below h.near hF hafter) hsame
  | [e], after, lo, h, ⟨x, g1, g2, g3, g4, g5, g6, g7⟩, hbefore, hafter, hpast, hsame => by
      have hpos := h.pos
      obtain ⟨h1, h2, h3, h4, h5, h6, h7, h8⟩ := h
      have hx := hbefore e (List.mem_singleton_self e)
      rw [g4, seqLessThan_seqAt base (by omega) (by omega), decide_eq_true_iff] at hx
      obtain ⟨hy, -⟩ : x + e.data.length < o + data.length ∧ _ :=
        lt_of_seqGreaterThan base (by omega) (by omega)
          (stop_eq g4 ▸ hpast e (List.mem_singleton_self e))
      have hrest : Filed base Q top edge (o - 1) after :=
        filed_after h1 h2 h3 (g7.mono (le_refl _) (le_refl _) (by omega)) hafter
      simp only [mergeOOO, List.getLast?_singleton, List.dropLast_singleton, List.nil_append]
      rw [stop_eq g4, seqLessThan_seqAt base (by omega) (by omega)]
      by_cases hgap : x + e.data.length < o
      · -- a gap after the previous entry
        rw [decide_eq_true hgap]
        obtain ⟨hfiled, hfiles⟩ := fresh_spec hQ ⟨hgap, h2, by omega, h4, h5, h6, h7, h8⟩ hrest hsame
        exact ⟨⟨x, g1, g2, g3, g4, g5, g6, hfiled⟩, hfiles.cons e⟩
      · -- the previous entry is extended
        rw [decide_eq_false hgap, extend_eq g4 (by omega) (by omega) hy (by omega)]
        have hlen : (e.data ++ data.drop (x + e.data.length - o)).length = o + data.length - x := by
          rw [List.length_append, List.length_drop]; omega
        have hq : Q x (e.data ++ data.drop (x + e.data.length - o)) := by
          refine hQ.append g6 ?_
          have hd := hQ.drop (x + e.data.length - o) h8
          rwa [show o + (x + e.data.length - o) = x + e.data.length by omega] at hd
        obtain ⟨hfiled, mid, above, k, hafter', habs, hk⟩ := absorb_spec hQ after g1 g2
          (by rw [hlen]; omega) (List.append_ne_nil_of_left_ne_nil g5 _) hq (by rw [hlen]; omega)
          (by rw [hlen]; omega) (by rw [hlen]; omega) hrest
        have hgrown := hk.grown
        rw [hlen] at hgrown
        refine ⟨hfiled, [], e :: mid, above, k, x, by rw [hafter']; rfl, habs, hk.seq, by omega, by omega,
          fun e' he' => ?_, .inr ⟨e, List.mem_cons_self, g4, by omega⟩, ?_⟩
        · rcases List.mem_cons.1 he' with rfl | he'
          · exact ⟨x, g4, le_refl _, by omega, by omega, by omega⟩
          · obtain ⟨y, hy, hlt, hle, hend⟩ := hk.inside e' he'
            rw [hlen] at hle
            exact ⟨y, hy, by omega, hend, by omega, by omega⟩
        · rcases hk.last with hl | ⟨e', he', y, hy, hlt, hle, hend⟩
          · rw [hlen] at hl
            exact .inl (by omega)
          · rw [hlen] at hle
            exact .inr ⟨e', List.mem_cons_of_mem _ he', y, hy, by omega, hend⟩
  | e :: e' :: before, after, lo, h, ⟨x, g1, g2, g3, g4, g5, g6, g7⟩, hbefore, hafter, hpast,
      hsame => by
      rw [mergeOOO_cons]
      have hbelow : x + e.data.length < o := by
        obtain ⟨x', k1, k2, k3, k4, -⟩ := g7
        have hx' := hbefore e' (by simp)
        have := h.above; have := h.below; have := h.near
        rw [k4, seqLessThan_seqAt base (by omega) (by omega), decide_eq_true_iff] at hx'
        omega
      have hfits : Fits Q top edge (x + e.data.length) o data :=
        ⟨hbelow, h.below, by have := h.near; omega, h.inWindow, h.window, h.nonempty, h.short,
          h.reads⟩
      obtain ⟨hfiled, hfiles⟩ := mergeOOO_spec hQ (e' :: before) after hfits g7
        (fun e he => hbefore e (List.mem_cons_of_mem _ he)) hafter
        (fun e he => hpast e (List.mem_cons_of_mem _ he)) hsame
      exact ⟨⟨x, g1, g2, g3, g4, g5, g6, hfiled⟩, hfiles.cons e⟩

/-- A segment not judged covered: the entries that start before it are judged so and judged to end
    before it, the first of the others starts at it or later. -/
theorem uncovered_before {l : List OOOSegment} {o : ℕ} {data : List UInt8}
    (h : Fits Q top edge lo o data) (hF : Filed base Q top edge lo l)
    (hcov : ∀ e ∈ l, ¬(!seqLessThan (seqAt base o) e.seq &&
      !seqGreaterThan (seqAt base (o + data.length)) e.stop) = true) :
    (∀ e ∈ l.takeWhile fun e => seqLessThan e.seq (seqAt base o),
      seqLessThan e.seq (seqAt base o) = true) ∧
    (∀ e ∈ (l.dropWhile fun e => seqLessThan e.seq (seqAt base o)).head?,
      seqLessThan e.seq (seqAt base o) = false) ∧
    ∀ e ∈ l.takeWhile fun e => seqLessThan e.seq (seqAt base o),
      seqGreaterThan (seqAt base (o + data.length)) e.stop = true := by
  have hlt : ∀ e ∈ l.takeWhile fun e => seqLessThan e.seq (seqAt base o),
      seqLessThan e.seq (seqAt base o) = true := fun e he =>
    List.mem_takeWhile_imp (p := fun e : OOOSegment => seqLessThan e.seq (seqAt base o)) he
  refine ⟨hlt, fun e he => ?_, fun e he => ?_⟩
  · have hnot := List.head?_dropWhile_not (fun e => seqLessThan e.seq (seqAt base o)) l
    rw [he] at hnot
    exact hnot
  · -- it starts after the entry and is not judged covered: so it is judged to reach past it
    have hmem := List.takeWhile_subset _ he
    obtain ⟨x, k1, k2, -, k3, -⟩ := hF.entry hmem
    have hx := hlt e he
    have := h.above; have := h.below; have := h.near
    rw [k3, seqLessThan_seqAt base (by omega) (by omega), decide_eq_true_iff] at hx
    have hge : seqLessThan (seqAt base o) e.seq = false := by
      rw [k3, seqLessThan_seqAt base (by omega) (by omega)]
      exact decide_eq_false (by omega)
    have hnc := hcov e hmem
    rw [hge] at hnc
    simpa using hnc

/-- A segment that is not judged covered is filed. -/
theorem insertOOO_spec (hQ : Sliceable Q) {r : Receiver} {o : ℕ} {data : List UInt8}
    (h : Fits Q top edge lo o data) (hF : Filed base Q top edge lo r.ooo)
    (hcov : covered r.ooo (seqAt base o) (seqAt base (o + data.length)) = false) :
    Filed base Q top edge lo (r.insertOOO (seqAt base o) data).ooo ∧
    Files base o (o + data.length) r.ooo (r.insertOOO (seqAt base o) data).ooo := by
  rw [Receiver.insertOOO, ← seqAt_add, hcov]
  rw [covered, List.any_eq_false] at hcov
  obtain ⟨hlt, hhead, hpast⟩ := uncovered_before h hF hcov
  have hsame : ∀ e ∈ (r.ooo.dropWhile fun e => seqLessThan e.seq (seqAt base o)).head?,
      e.seq = seqAt base o → e.data.length ≤ data.length := by
    intro e he hseq
    have hmem : e ∈ r.ooo := (List.dropWhile_sublist _).subset (List.mem_of_mem_head? he)
    have hnot := hcov e hmem
    obtain ⟨x, g1, g2, g3, g4, -⟩ := hF.entry hmem
    have h1 := h.above
    have h2 := h.below
    have h3 := h.near
    have h4 := h.inWindow
    have h5 := h.window
    have h7 := h.short
    obtain rfl : x = o := (seqAt_inj base (by omega) (by omega)).1 (g4.symm.trans hseq)
    by_contra hlong
    refine hnot ?_
    rw [hseq, stop_eq g4, seqLessThan_seqAt base (by omega) (by omega),
      seqGreaterThan_seqAt base (by omega) (by omega)]
    simp only [lt_irrefl, decide_false, Bool.not_false, Bool.true_and, Bool.not_eq_true',
      decide_eq_false_iff_not]
    omega
  have hspec := mergeOOO_spec hQ _ _ h (by rwa [List.takeWhile_append_dropWhile]) hlt hhead hpast hsame
  rwa [List.takeWhile_append_dropWhile] at hspec

/-- The list after `insertOOO`: as it was, or with the segment filed. -/
theorem insertOOO_filed (hQ : Sliceable Q) {r : Receiver} {o : ℕ} {data : List UInt8}
    (h : Fits Q top edge lo o data) (hF : Filed base Q top edge lo r.ooo) :
    Filed base Q top edge lo (r.insertOOO (seqAt base o) data).ooo := by
  cases hcov : covered r.ooo (seqAt base o) (seqAt base (o + data.length)) with
  | true =>
    rw [Receiver.insertOOO, ← seqAt_add, hcov]
    exact hF
  | false => exact (insertOOO_spec hQ h hF hcov).1

end

/-! ### What the list covers -/

/-- The entry holds a byte for sequence number `x`. -/
def OOOSegment.Covers (e : OOOSegment) (x : UInt32) : Prop := (x - e.seq).toNat < e.data.length

section
variable {base : UInt32} {Q : ℕ → List UInt8 → Prop} {top edge lo o i : ℕ} {data : List UInt8}

theorem covers_of_le {e : OOOSegment} {x : ℕ} (he : e.seq = seqAt base x) (hle : x ≤ o)
    (hlt : o < x + e.data.length) (hnear : o < x + 2 ^ 32) : e.Covers (seqAt base o) := by
  rw [OOOSegment.Covers, he, toNat_sub_of_le base hle (by omega)]
  omega

theorem Filed.length_le {l : List OOOSegment} {e : OOOSegment} (h : Filed base Q top edge lo l)
    (hspan : edge ≤ lo + 2 ^ 32) (he : e ∈ l) : e.data.length ≤ 2 ^ 32 := by
  obtain ⟨x, h1, -, h3, -⟩ := h.entry he
  omega

/-- The numbers an entry covers are those of its offsets. -/
theorem covers_iff_offset {e : OOOSegment} {x : UInt32} {off : ℕ} (he : e.seq = seqAt base off)
    (hlen : e.data.length ≤ 2 ^ 32) :
    e.Covers x ↔ ∃ n, off ≤ n ∧ n < off + e.data.length ∧ x = seqAt base n := by
  constructor
  · intro h
    rw [OOOSegment.Covers, he] at h
    exact ⟨_, Nat.le_add_right _ _, Nat.add_lt_add_left h off, seqAt_of_sub base x off⟩
  · rintro ⟨n, hle, hlt, rfl⟩
    exact covers_of_le he hle hlt (by omega)

/-- The list covers what it covered before, and the segment. -/
theorem Files.covers {o : ℕ} {data : List UInt8} {l l' : List OOOSegment} {x : UInt32}
    (h : Files base o (o + data.length) l l') (hF : Filed base Q top edge lo l)
    (hF' : Filed base Q top edge lo l') (hspan : edge ≤ lo + 2 ^ 32) (hdata : data.length ≤ 2 ^ 32) :
    (∃ e ∈ l', e.Covers x) ↔ ∃ e ∈ ⟨seqAt base o, data⟩ :: l, e.Covers x := by
  obtain ⟨below, mid, above, k, a, rfl, rfl, hj⟩ := h
  have hk : k.data.length ≤ 2 ^ 32 := hF'.length_le hspan (by simp)
  have hlen : ∀ e ∈ mid, e.data.length ≤ 2 ^ 32 := fun e he => hF.length_le hspan (by simp [he])
  have hseg : OOOSegment.Covers ⟨seqAt base o, data⟩ x ↔
      ∃ n, o ≤ n ∧ n < o + data.length ∧ x = seqAt base n := covers_iff_offset rfl hdata
  have hstart := hj.start_le
  have hend := hj.le_end
  constructor
  · rintro ⟨e, he, hcov⟩
    have hcases : e ∈ below ∨ e = k ∨ e ∈ above := by simpa using he
    rcases hcases with hb | rfl | ha
    · exact ⟨e, by simp [hb], hcov⟩
    · -- a number of the joined entry: of the segment, of the first entry or of the last
      obtain ⟨n, h1, h2, rfl⟩ := (covers_iff_offset hj.seq hk).1 hcov
      rcases Nat.lt_or_ge n o with hlow | hge
      · rcases hj.first with ha | ⟨e', he', hseq, hle⟩
        · omega
        · exact ⟨e', by simp [he'], (covers_iff_offset hseq (hlen e' he')).2 ⟨n, h1, by omega, rfl⟩⟩
      rcases Nat.lt_or_ge n (o + data.length) with hlt | hhigh
      · exact ⟨⟨seqAt base o, data⟩, by simp, hseg.2 ⟨n, hge, hlt, rfl⟩⟩
      · rcases hj.last with hl | ⟨e', he', y, hseq, hle, hlast⟩
        · omega
        · exact ⟨e', by simp [he'],
            (covers_iff_offset hseq (hlen e' he')).2 ⟨n, by omega, by omega, rfl⟩⟩
    · exact ⟨e, by simp [ha], hcov⟩
  · rintro ⟨e, he, hcov⟩
    have hcases : e = ⟨seqAt base o, data⟩ ∨ e ∈ below ∨ e ∈ mid ∨ e ∈ above := by simpa using he
    rcases hcases with rfl | hb | hm | ha
    · obtain ⟨n, h1, h2, rfl⟩ := hseg.1 hcov
      exact ⟨k, by simp, (covers_iff_offset hj.seq hk).2 ⟨n, by omega, by omega, rfl⟩⟩
    · exact ⟨e, by simp [hb], hcov⟩
    · obtain ⟨y, hseq, hle, hin, -⟩ := hj.inside e hm
      obtain ⟨n, h1, h2, rfl⟩ := (covers_iff_offset hseq (hlen e hm)).1 hcov
      exact ⟨k, by simp, (covers_iff_offset hj.seq hk).2 ⟨n, by omega, by omega, rfl⟩⟩
    · exact ⟨e, by simp [ha], hcov⟩

/-- Inside a window of less than `2 ^ 31` bytes `insertOOO` files every byte, or finds it filed. -/
theorem insertOOO_covers (hQ : Sliceable Q) {r : Receiver} (h : Fits Q top edge lo o data)
    (hF : Filed base Q top edge lo r.ooo) (hedge : edge ≤ lo + 2 ^ 31) (hi : i < data.length) :
    ∃ e ∈ (r.insertOOO (seqAt base o) data).ooo, e.Covers (seqAt base (o + i)) := by
  cases hcov : covered r.ooo (seqAt base o) (seqAt base (o + data.length)) with
  | true =>
    have h1 := h.above
    have h2 := h.below
    have h3 := h.near
    have h4 := h.inWindow
    rw [Receiver.insertOOO, ← seqAt_add, hcov]
    obtain ⟨e, he, hin⟩ := List.any_eq_true.1 hcov
    obtain ⟨x, g1, g2, g3, g4, -⟩ := hF.entry he
    rw [stop_eq g4, g4, seqLessThan_seqAt base (by omega) (by omega),
      seqGreaterThan_seqAt base (by omega) (by omega)] at hin
    simp only [Bool.and_eq_true, Bool.not_eq_true', decide_eq_false_iff_not, not_lt] at hin
    exact ⟨e, he, covers_of_le g4 (by omega) (by omega) (by omega)⟩
  | false =>
    obtain ⟨hF', below, mid, above, k, a, -, hlist, hj⟩ := insertOOO_spec hQ h hF hcov
    have hmem : k ∈ (r.insertOOO (seqAt base o) data).ooo := by
      rw [hlist]
      simp
    have hlen := hF'.length_le (by omega) hmem
    have hstart := hj.start_le
    have hend := hj.le_end
    exact ⟨k, hmem, covers_of_le hj.seq (by omega) (by omega) (by omega)⟩

end

/-! ### Delivery -/

namespace TCPConn

/-- Auto-tuning can only make `readBuf` grow. -/
theorem autoTuneAccumulate_rx (c : TCPConn) (n : ℕ) : ∃ k t, (c.autoTuneAccumulate n).rx =
    { c.rx with readBuf := c.rx.readBuf.grow k, rcv := { c.rx.rcv with autoTune := t } } := by
  have hgrow : c.rx.readBuf.grow 0 = c.rx.readBuf := by simp [RingBuffer.grow]
  rw [autoTuneAccumulate]
  dsimp only
  split_ifs
  · exact ⟨0, c.rx.rcv.autoTune, by rw [hgrow]⟩
  · exact ⟨0, _, by rw [hgrow]; rfl⟩
  · exact ⟨0, _, by rw [hgrow]; rfl⟩
  · exact ⟨_, _, rfl⟩

/-- `deliver` appends what it writes, advances `rcv.nxt` by it and may grow `readBuf`. -/
theorem deliver_rx (c : TCPConn) (data : List UInt8) : ∃ k t, (c.deliver data).rx =
    { c.rx with
      readBuf := (c.rx.readBuf.writeNoBlock data).1.grow k
      delivered := c.rx.delivered ++ data.take (c.deliverable data)
      rcv := { c.rx.rcv with
        nxt := c.rx.rcv.nxt + UInt32.ofNat (c.deliverable data), autoTune := t } } := by
  rw [deliver]
  split
  · obtain ⟨k, t, h⟩ := (c.writeData data).autoTuneAccumulate_rx (c.deliverable data)
    exact ⟨k, t, h⟩
  · exact ⟨0, c.rx.rcv.autoTune, by simp [writeData, RingBuffer.grow]⟩

theorem deliver_same (c : TCPConn) (data : List UInt8) :
    c.deliver data = { c with rx := (c.deliver data).rx, ticks := (c.deliver data).ticks } := by
  simp only [deliver, autoTuneAccumulate]
  split_ifs <;> rfl

theorem deliverable_eq (c : TCPConn) (data : List UInt8) : c.deliverable data =
    if c.rx.readBuf.closed then 0 else min data.length c.rx.readBuf.free :=
  RingBuffer.writeNoBlock_snd _ _

/-- The sequence number of offset 0 of the peer's stream. -/
def base (c : TCPConn) : UInt32 := c.env.irs + 1

/-- The position of the receiver in the peer's stream. -/
def pos (c : TCPConn) : ℕ := c.rx.delivered.length

/-- What `c'` has received beyond `c`, whose receiver stood at offset `p`: the run `run`, which
    brings it to `p + run.length`. The right edge of the free space has not moved back. -/
structure Received (base : UInt32) (c c' : TCPConn) (p : ℕ) (run : List UInt8) : Prop where
  same : c' = { c with rx := c'.rx, ticks := c'.ticks }
  nxt : c'.rx.rcv.nxt = seqAt base (p + run.length)
  delivered : c'.rx.delivered = c.rx.delivered ++ run
  closed : c'.rx.readBuf.closed = c.rx.readBuf.closed
  edge : p + c.rx.readBuf.free ≤ p + run.length + c'.rx.readBuf.free
  finAt : c'.rx.finAt = c.rx.finAt
  finReceived : c'.rx.rcv.finReceived = c.rx.rcv.finReceived
  finSeq : c'.rx.rcv.finSeq = c.rx.rcv.finSeq

theorem Received.trans {base : UInt32} {c c' c'' : TCPConn} {p : ℕ} {run run' : List UInt8}
    (h : Received base c c' p run) (h' : Received base c' c'' (p + run.length) run') :
    Received base c c'' p (run ++ run') where
  same := by rw [h'.same, h.same]
  nxt := by rw [h'.nxt, List.length_append, Nat.add_assoc]
  delivered := by rw [h'.delivered, h.delivered, List.append_assoc]
  closed := h'.closed.trans h.closed
  edge := by have h1 := h.edge; have h2 := h'.edge; rw [List.length_append]; omega
  finAt := h'.finAt.trans h.finAt
  finReceived := h'.finReceived.trans h.finReceived
  finSeq := h'.finSeq.trans h.finSeq

theorem deliver_received {base : UInt32} {c : TCPConn} {p : ℕ} {data : List UInt8}
    (hnxt : c.rx.rcv.nxt = seqAt base p) (hne : data ≠ []) :
    Received base c (c.deliver data) p (data.take (c.deliverable data)) ∧
      (c.deliver data).rx.rcv.ooo = c.rx.rcv.ooo := by
  obtain ⟨k, t, h⟩ := c.deliver_rx data
  have hle : c.deliverable data ≤ data.length := RingBuffer.writeNoBlock_le _ _
  have hlen : (data.take (c.deliverable data)).length = c.deliverable data := by
    rw [List.length_take]; omega
  have hfree : (c.rx.readBuf.writeNoBlock data).1.free + c.deliverable data = c.rx.readBuf.free :=
    RingBuffer.free_writeNoBlock _ hne
  have hgrow := (c.rx.readBuf.writeNoBlock data).1.free_le_free_grow k
  refine ⟨⟨c.deliver_same data, ?_, ?_, ?_, ?_, ?_, ?_, ?_⟩, ?_⟩ <;> rw [h] <;> dsimp only
  · rw [hnxt, hlen, seqAt_add]
  · rw [RingBuffer.closed_grow, RingBuffer.closed_writeNoBlock]
  · rw [hlen]; omega

/-- Nothing is received: only the out-of-order list or the DSACK block of the receiver change. -/
theorem received_nil {base : UInt32} {c : TCPConn} {r : Receiver} {p : ℕ}
    (hnxt : r.nxt = seqAt base p) (hfin : r.finReceived = c.rx.rcv.finReceived)
    (hseq : r.finSeq = c.rx.rcv.finSeq) : Received base c { c with rx.rcv := r } p [] :=
  ⟨rfl, hnxt, (List.append_nil _).symm, rfl, le_refl _, rfl, hfin, hseq⟩

/-- The loop of `deliverOOO`: every range that the receiver has reached is delivered from there on,
    in full, and the ranges left lie ahead. Every entry is left in the list or reached. -/
theorem drainOOO_drains {base : UInt32} {Q : ℕ → List UInt8 → Prop} {top edge : ℕ}
    (hQ : Sliceable Q) : ∀ (l : List OOOSegment) (c : TCPConn) {p lo : ℕ},
    Filed base Q top edge lo l → c.rx.rcv.nxt = seqAt base p → c.rx.readBuf.closed = false →
    lo ≤ p → p < lo + 2 ^ 31 → top ≤ p + 2 ^ 31 → edge ≤ lo + 2 ^ 32 →
    edge ≤ p + c.rx.readBuf.free →
    ∃ run, Received base c (drainOOO l c) p run ∧ Q p run ∧
      Filed base Q top edge (p + run.length) (drainOOO l c).rx.rcv.ooo ∧
      ∀ e ∈ l, e ∈ (drainOOO l c).rx.rcv.ooo ∨
        ∃ x, lo < x ∧ x < top ∧ e.seq = seqAt base x ∧ x + e.data.length ≤ p + run.length
  | [], c, p, lo, _, hnxt, _, _, _, _, _, _ =>
      ⟨[], received_nil hnxt rfl rfl, hQ.nil p, trivial, by simp⟩
  | seg :: rest, c, p, lo, ⟨x, g1, g2, g3, g4, g5, g6, g7⟩, hnxt, hopen, h1, h2, h3, h4, h5 => by
      have hpos := List.length_pos_iff.2 g5
      rw [drainOOO, hnxt, g4, seqGreaterThan_seqAt base (by omega) (by omega)]
      by_cases hahead : p < x
      · rw [if_pos (decide_eq_true hahead)]
        exact ⟨[], received_nil hnxt rfl rfl, hQ.nil p, ⟨x, hahead, g2, g3, g4, g5, g6, g7⟩,
          fun e he => .inl he⟩
      · have hover : (seqAt base p - seqAt base x).toNat = p - x :=
          toNat_sub_of_le base (by omega) (by omega)
        have hlen : (UInt32.ofNat seg.data.length).toNat = seg.data.length :=
          UInt32.toNat_ofNat_of_lt' (by rw [UInt32.size]; omega)
        have hge : seqAt base p - seqAt base x ≥ UInt32.ofNat seg.data.length ↔
            seg.data.length ≤ p - x := by
          rw [ge_iff_le, UInt32.le_iff_toNat_le, hlen, hover]
        rw [if_neg (by simpa using hahead)]
        dsimp only
        rw [hover, seqLessThan_seqAt base (by omega) (by omega)]
        by_cases hdone : seg.data.length ≤ p - x
        · -- nothing of the entry is new
          rw [if_pos (by rw [Bool.and_eq_true, decide_eq_true_iff, decide_eq_true_iff];
                         exact ⟨by omega, hge.2 hdone⟩)]
          obtain ⟨run, hrun, hqr, hF, hleft⟩ :=
            drainOOO_drains hQ rest c g7 hnxt hopen (by omega) (by omega) h3 (by omega) h5
          refine ⟨run, hrun, hqr, hF, fun e he => ?_⟩
          rcases List.mem_cons.1 he with rfl | he
          · exact .inr ⟨x, g1, g2, g4, by omega⟩
          · refine (hleft e he).imp id ?_
            rintro ⟨y, hy, hy', hseq, hend⟩
            exact ⟨y, by omega, hy', hseq, hend⟩
        · rw [if_neg (by rw [Bool.and_eq_true, decide_eq_true_iff, decide_eq_true_iff];
                         exact fun h => hdone (hge.1 h.2))]
          have hdlen : (seg.data.drop (p - x)).length = x + seg.data.length - p := by
            rw [List.length_drop]; omega
          have hall : c.deliverable (seg.data.drop (p - x)) = (seg.data.drop (p - x)).length := by
            rw [deliverable_eq, hopen, if_neg (by simp), hdlen]; omega
          have hne : seg.data.drop (p - x) ≠ [] := by
            rw [← List.length_pos_iff, hdlen]; omega
          obtain ⟨hrec, -⟩ := deliver_received hnxt hne
          rw [hall, List.take_length] at hrec
          rw [if_neg (by rw [hall]; omega)]
          have hq : Q p (seg.data.drop (p - x)) := by
            have h := hQ.drop (p - x) g6
            rwa [show x + (p - x) = p by omega] at h
          have hend : p + (seg.data.drop (p - x)).length = x + seg.data.length := by
            rw [hdlen]; omega
          have hedge := hrec.edge
          obtain ⟨run, hrun, hqr, hF, hleft⟩ := drainOOO_drains hQ rest
            (c.deliver (seg.data.drop (p - x))) g7 (hend ▸ hrec.nxt) (hrec.closed.trans hopen)
            (le_refl _) (by omega) (by omega) (by omega) (by omega)
          have htotal : p + (seg.data.drop (p - x) ++ run).length = x + seg.data.length + run.length := by
            rw [List.length_append, ← Nat.add_assoc, hend]
          refine ⟨seg.data.drop (p - x) ++ run, hrec.trans (hend ▸ hrun), hQ.append hq (hend ▸ hqr),
            by rw [htotal]; exact hF, fun e he => ?_⟩
          rw [htotal]
          rcases List.mem_cons.1 he with rfl | he
          · exact .inr ⟨x, g1, g2, g4, by omega⟩
          · refine (hleft e he).imp id ?_
            rintro ⟨y, hy, hy', hseq, hend⟩
            exact ⟨y, by omega, hy', hseq, hend⟩

theorem drainOOO_received {base : UInt32} {Q : ℕ → List UInt8 → Prop} {top edge : ℕ}
    (hQ : Sliceable Q) (l : List OOOSegment) (c : TCPConn) {p lo : ℕ}
    (hF : Filed base Q top edge lo l) (hnxt : c.rx.rcv.nxt = seqAt base p)
    (hopen : c.rx.readBuf.closed = false) (hlo : lo ≤ p) (hnear : p < lo + 2 ^ 31)
    (htop : top ≤ p + 2 ^ 31) (hspan : edge ≤ lo + 2 ^ 32) (hfree : edge ≤ p + c.rx.readBuf.free) :
    ∃ run, Received base c (drainOOO l c) p run ∧ Q p run ∧
      Filed base Q top edge (p + run.length) (drainOOO l c).rx.rcv.ooo := by
  obtain ⟨run, hrun, hq, hF', -⟩ := drainOOO_drains hQ l c hF hnxt hopen hlo hnear htop hspan hfree
  exact ⟨run, hrun, hq, hF'⟩

/-! ### `handleData` -/

/-- The receiver stands at offset `p`, `readBuf` is open, and the out-of-order list is in order ahead
    of `p` and inside the window. -/
structure Open (base : UInt32) (Q : ℕ → List UInt8 → Prop) (c : TCPConn) (p : ℕ) : Prop where
  nxt : c.rx.rcv.nxt = seqAt base p
  closed : c.rx.readBuf.closed = false
  ooo : Filed base Q (p + 2 ^ 31) (p + c.rx.readBuf.free) p c.rx.rcv.ooo

/-- `c'` comes from `c`, whose receiver stands at `p`, by taking in a run of the stream from there
    on and filing other data; at the end a deferred FIN may have been found due. -/
def TakesIn (base : UInt32) (Q : ℕ → List UInt8 → Prop) (c c' : TCPConn) (p : ℕ) : Prop :=
  ∃ run c₁, Received base c c₁ p run ∧ Q p run ∧ Open base Q c₁ (p + run.length) ∧
    (c' = c₁ ∨ c' = c₁.deferredFIN)

section
variable {base : UInt32} {Q : ℕ → List UInt8 → Prop} {c : TCPConn} {p o : ℕ} {data : List UInt8}

theorem takesIn_nil (hQ : Sliceable Q) (h : Open base Q c p) {r : Receiver}
    (hnxt : r.nxt = c.rx.rcv.nxt) (hfin : r.finReceived = c.rx.rcv.finReceived)
    (hseq : r.finSeq = c.rx.rcv.finSeq)
    (hF : Filed base Q (p + 2 ^ 31) (p + c.rx.readBuf.free) p r.ooo) :
    TakesIn base Q c { c with rx.rcv := r } p :=
  ⟨[], _, received_nil (hnxt.trans h.nxt) hfin hseq, hQ.nil p, ⟨hnxt.trans h.nxt, h.closed, hF⟩,
    .inl rfl⟩

theorem deferredFIN_delivered (c : TCPConn) : c.deferredFIN.rx.delivered = c.rx.delivered := by
  rw [deferredFIN]; split <;> rfl

/-- Data in order: it is delivered, and with it what it makes contiguous. -/
theorem inOrder_takesIn (hQ : Sliceable Q) (h : Open base Q c p) (hfree : c.rx.readBuf.free < 2 ^ 32)
    (hpos : 0 < c.rx.readBuf.free) (hne : data ≠ []) (hlen : data.length < 2 ^ 31) (hq : Q p data) :
    TakesIn base Q c (c.deliver data).deliverOOO p := by
  obtain ⟨hrec, hooo⟩ := deliver_received h.nxt hne
  have hdlv : c.deliverable data = min data.length c.rx.readBuf.free := by
    rw [deliverable_eq, h.closed, if_neg (by simp)]
  have hrun : (data.take (c.deliverable data)).length = min data.length c.rx.readBuf.free := by
    rw [List.length_take, hdlv]; omega
  have hedge := hrec.edge
  obtain ⟨run, hrec', hq', hF⟩ := drainOOO_received hQ c.rx.rcv.ooo (c.deliver data) h.ooo hrec.nxt
    (hrec.closed.trans h.closed) (Nat.le_add_right _ _) (by omega) (by omega) (by omega) (by omega)
  refine ⟨_, _, hrec.trans hrec', hQ.append (hQ.take _ hq) hq', ⟨(hrec.trans hrec').nxt,
    (hrec.trans hrec').closed.trans h.closed, ?_⟩, .inr (by rw [deliverOOO, hooo])⟩
  have hedge' := (hrec.trans hrec').edge
  rw [List.length_append, ← Nat.add_assoc] at hedge' ⊢
  exact hF.mono (by omega) (by omega) (le_refl _)

theorem insertOOO_nxt (r : Receiver) (seq : UInt32) (data : List UInt8) :
    (r.insertOOO seq data).nxt = r.nxt ∧ (r.insertOOO seq data).finReceived = r.finReceived ∧
      (r.insertOOO seq data).finSeq = r.finSeq := by
  rw [Receiver.insertOOO]
  split <;> exact ⟨rfl, rfl, rfl⟩

/-! What `handleData` does, said by offsets: `rcv.nxt` is the number of `p`, the segment starts at
    `o`. -/

/-- The window's right edge, as a sequence number: the free space counts modulo `2 ^ 32`. -/
theorem wndEnd_eq (hnxt : c.rx.rcv.nxt = seqAt base p) {W : ℕ}
    (hW : c.rx.readBuf.free % 2 ^ 32 = W) : c.rx.rcv.nxt + c.rcvWnd = seqAt base (p + W) := by
  rw [seqAt_add, hnxt, rcvWnd, ← hW]
  congr 1
  rw [← UInt32.toNat_inj]
  simp

theorem rcvWnd_ne_zero (hW : 0 < c.rx.readBuf.free % 2 ^ 32) : c.rcvWnd ≠ 0 := by
  intro hz
  have h := congrArg UInt32.toNat hz
  simp only [rcvWnd, UInt32.toNat_ofNat', UInt32.toNat_zero] at h
  omega

/-- The window lets through what lies before its right edge, unless that edge is more than `2 ^ 31`
    ahead. -/
theorem windowData_offsets (hnxt : c.rx.rcv.nxt = seqAt base p) {W : ℕ}
    (hW : c.rx.readBuf.free % 2 ^ 32 = W) (hlen : data.length ≤ 2 ^ 31) (hpo : p ≤ o)
    (hop : o < p + 2 ^ 31) : c.windowData (seqAt base o) data =
      if o < p + W ∧ p + W ≤ o + 2 ^ 31 then c.acceptData (seqAt base o) (data.take (p + W - o))
      else c := by
  have hlt : W < 2 ^ 32 := hW ▸ Nat.mod_lt _ (by norm_num)
  have hless : seqLessThan (seqAt base o) (seqAt base (p + W))
      = decide (o < p + W ∧ p + W ≤ o + 2 ^ 31) := by
    rw [seqLessThan, decide_eq_decide, toInt32_neg_iff]
    rcases Nat.lt_or_ge o (p + W) with h | h
    · rw [toNat_sub_of_lt base h (by omega)]; omega
    · rw [toNat_sub_of_le base h (by omega)]; omega
  rw [windowData, wndEnd_eq hnxt hW, hless]
  by_cases hin : o < p + W ∧ p + W ≤ o + 2 ^ 31
  · rw [if_neg (rcvWnd_ne_zero (by omega)), if_neg (by simpa using hin), if_pos hin, ← seqAt_add,
      seqGreaterThan_seqAt base (by omega) (by omega), toNat_sub_of_le base hin.1.le (by omega)]
    by_cases hcut : p + W < o + data.length
    · rw [if_pos (decide_eq_true hcut)]
    · rw [if_neg (by simpa using hcut), List.take_of_length_le (by omega)]
  · rw [if_neg hin, decide_eq_false hin]
    split <;> rfl

/-- What has been received before is cut off. A segment all of which has been, or which starts
    exactly `2 ^ 31` ahead and is taken for old, is noted as a duplicate. -/
theorem handleData_offsets (hnxt : c.rx.rcv.nxt = seqAt base p) (hne : data ≠ [])
    (hlen : data.length ≤ 2 ^ 31) (hop : o ≤ p + 2 ^ 31) (hpo : p ≤ o + 2 ^ 31) :
    c.handleData (seqAt base o) data =
      if p < o + data.length ∧ o < p + 2 ^ 31 then
        c.windowData (seqAt base (max o p)) (data.drop (p - o))
      else
        { c with rx.rcv := c.rx.rcv.noteDuplicate (seqAt base o) (seqAt base (o + data.length)) } := by
  have hdlen : (UInt32.ofNat data.length).toNat = data.length :=
    UInt32.toNat_ofNat_of_lt' (by rw [UInt32.size]; omega)
  have hpos := List.length_pos_iff.2 hne
  rw [handleData, if_neg (by simpa using hne), hnxt, seqAt_add]
  rcases Nat.lt_or_ge o (p + 2 ^ 31) with hnear | hfar
  · rw [seqLessThan_seqAt base hnear hpo]
    rcases Nat.lt_or_ge o p with hlt | hge
    · have hover : (seqAt base p - seqAt base o).toNat = p - o :=
        toNat_sub_of_le base hlt.le (by omega)
      rw [if_pos (decide_eq_true hlt), max_eq_right hlt.le]
      by_cases hall : data.length ≤ p - o
      · rw [if_pos (by rw [ge_iff_le, UInt32.le_iff_toNat_le, hdlen, hover]; exact hall),
          if_neg (by omega)]
      · rw [if_neg (by rw [ge_iff_le, UInt32.le_iff_toNat_le, hdlen, hover]; exact hall), hover,
          if_pos (by omega)]
    · rw [if_neg (by simpa using hge), max_eq_left hge, Nat.sub_eq_zero_of_le hge, List.drop_zero,
        if_pos (by omega)]
  · have hless : seqLessThan (seqAt base o) (seqAt base p) = true := by
      rw [seqLessThan, decide_eq_true_iff, toInt32_neg_iff, toNat_sub_of_le base (by omega) (by omega)]
      omega
    have hover : (seqAt base p - seqAt base o).toNat = 2 ^ 31 := by
      rw [toNat_sub_of_lt base (by omega) (by omega)]; omega
    rw [if_pos hless, if_pos (by rw [ge_iff_le, UInt32.le_iff_toNat_le, hdlen, hover]; omega),
      if_neg (by omega)]

/-- What the window leaves of a payload is filed, or delivered if it is in order. -/
theorem windowData_cases (hQ : Sliceable Q) (h : Open base Q c p)
    (hfree : c.rx.readBuf.free < 2 ^ 32) (hshut : c.app.readShutdown = false) (hne : data ≠ [])
    (hlen : data.length < 2 ^ 16) (hpo : p ≤ o) (hop : o < p + 2 ^ 31) (hq : Q o data) :
    (¬(o < p + c.rx.readBuf.free ∧ p + c.rx.readBuf.free ≤ o + 2 ^ 31) ∧
      c.windowData (seqAt base o) data = c) ∨
    ∃ kept, kept = data.take (p + c.rx.readBuf.free - o) ∧ kept ≠ [] ∧
      (Fits Q (p + 2 ^ 31) (p + c.rx.readBuf.free) p o kept ∧ c.windowData (seqAt base o) data
          = { c with rx.rcv := c.rx.rcv.insertOOO (seqAt base o) kept } ∨
        o = p ∧ 0 < c.rx.readBuf.free ∧
          c.windowData (seqAt base o) data = (c.deliver kept).deliverOOO) := by
  rw [windowData_offsets h.nxt (Nat.mod_eq_of_lt hfree) (by omega) hpo hop]
  by_cases hin : o < p + c.rx.readBuf.free ∧ p + c.rx.readBuf.free ≤ o + 2 ^ 31
  · right
    have hpos := List.length_pos_iff.2 hne
    have hkept : (data.take (p + c.rx.readBuf.free - o)).length
        = min (p + c.rx.readBuf.free - o) data.length := List.length_take
    have hne' : data.take (p + c.rx.readBuf.free - o) ≠ [] := List.ne_nil_of_length_pos (by omega)
    refine ⟨_, rfl, hne', ?_⟩
    rw [if_pos hin, acceptData, if_neg (by simp [hshut]), h.nxt]
    by_cases heq : o = p
    · subst heq
      have hdlv : c.deliverable (data.take (o + c.rx.readBuf.free - o)) > 0 := by
        rw [deliverable_eq, h.closed, if_neg (by simp)]; omega
      rw [if_pos rfl, if_pos hdlv]
      exact .inr ⟨rfl, by omega, rfl⟩
    · rw [if_neg (by rw [seqAt_inj base (by omega) (by omega)]; exact heq),
        seqGreaterThan_seqAt base hop (by omega), if_pos (by simp; omega)]
      exact .inl ⟨⟨by omega, hop, le_refl _, by omega, hin.2, hne', by omega, hQ.take _ hq⟩, rfl⟩
  · exact .inl ⟨hin, if_neg hin⟩

theorem windowData_takesIn (hQ : Sliceable Q) (h : Open base Q c p)
    (hfree : c.rx.readBuf.free < 2 ^ 32) (hshut : c.app.readShutdown = false) (hne : data ≠ [])
    (hlen : data.length < 2 ^ 16) (hpo : p ≤ o) (hop : o < p + 2 ^ 31) (hq : Q o data) :
    TakesIn base Q c (c.windowData (seqAt base o) data) p := by
  rcases windowData_cases hQ h hfree hshut hne hlen hpo hop hq with
    ⟨-, he⟩ | ⟨kept, hkept, hne', ⟨hfits, he⟩ | ⟨rfl, hpos, he⟩⟩ <;> rw [he]
  · exact takesIn_nil hQ h rfl rfl rfl h.ooo
  · obtain ⟨h1, h2, h3⟩ := insertOOO_nxt c.rx.rcv (seqAt base o) kept
    exact takesIn_nil hQ h h1 h2 h3 (insertOOO_filed hQ hfits h.ooo)
  · have hshort : kept.length ≤ data.length := hkept ▸ List.length_take_le' _ _
    exact inOrder_takesIn hQ h hfree hpos hne' (by omega) (hkept ▸ hQ.take _ hq)

/-- What is left of a run after cutting off the part before `p`. -/
theorem dropped_reads (hQ : Sliceable Q) (hq : Q o data) : Q (max o p) (data.drop (p - o)) := by
  have hdrop := hQ.drop (p - o) hq
  rwa [show o + (p - o) = max o p by omega] at hdrop

/-- CORRECT: `handleData` on a receiver at `p` takes in a run of the stream from `p` on and files the
    rest, for every segment whose offset is within `2 ^ 31` of `p`. -/
theorem handleData_takesIn (hQ : Sliceable Q) (h : Open base Q c p)
    (hfree : c.rx.readBuf.free < 2 ^ 32) (hshut : c.app.readShutdown = false)
    (hlen : data.length < 2 ^ 16) (hop : o ≤ p + 2 ^ 31) (hpo : p ≤ o + 2 ^ 31) (hq : Q o data) :
    TakesIn base Q c (c.handleData (seqAt base o) data) p := by
  by_cases hnil : data = []
  · subst hnil
    exact takesIn_nil hQ h rfl rfl rfl h.ooo
  rw [handleData_offsets h.nxt hnil (by omega) hop hpo]
  split
  · rename_i hin
    have hpos := List.length_pos_iff.2 hnil
    have hdrop : (data.drop (p - o)).length = data.length - (p - o) := List.length_drop
    have hne : data.drop (p - o) ≠ [] := List.ne_nil_of_length_pos (by omega)
    exact windowData_takesIn hQ h hfree hshut hne (by omega) (le_max_right o p) (by omega)
      (dropped_reads hQ hq)
  · exact takesIn_nil hQ h rfl rfl rfl h.ooo

/-! ### Segments that the window lets through -/

/-- A segment that reaches past the receiver and fits into the window is delivered from there on. -/
theorem handleData_inOrder (hnxt : c.rx.rcv.nxt = seqAt base p) (hshut : c.app.readShutdown = false)
    (hopen : c.rx.readBuf.closed = false) {W : ℕ} (hW : c.rx.readBuf.free % 2 ^ 32 = W)
    (hle : W ≤ 2 ^ 31) (hop : o ≤ p) (hpo : p < o + data.length) (hlen : data.length ≤ 2 ^ 31)
    (hfit : o + data.length ≤ p + W) :
    c.handleData (seqAt base o) data = (c.deliver (data.drop (p - o))).deliverOOO := by
  have hne : data ≠ [] := List.ne_nil_of_length_pos (by omega)
  have hdrop : (data.drop (p - o)).length = data.length - (p - o) := List.length_drop
  have hfree : W ≤ c.rx.readBuf.free := hW ▸ Nat.mod_le _ _
  have hdlv : c.deliverable (data.drop (p - o)) > 0 := by
    rw [deliverable_eq, hopen, if_neg (by simp), hdrop]; omega
  rw [handleData_offsets hnxt hne hlen (by omega) (by omega), if_pos (by omega), max_eq_right hop,
    windowData_offsets hnxt hW (by omega) (le_refl p) (by omega), if_pos (by omega),
    List.take_of_length_le (by omega), acceptData, hshut, if_neg (by simp), if_pos hnxt.symm,
    if_pos hdlv]

/-- Data that fits into `readBuf` is delivered, and then perhaps more. -/
theorem deliver_delivers (hQ : Sliceable Q) (h : Open base Q c p)
    (hfree : c.rx.readBuf.free ≤ 2 ^ 31) (hne : data ≠ []) (hfit : data.length ≤ c.rx.readBuf.free)
    (hlen : data.length < 2 ^ 16) :
    ∃ run, (c.deliver data).deliverOOO.rx.delivered = c.rx.delivered ++ data ++ run := by
  have hall : c.deliverable data = data.length := by
    rw [deliverable_eq, h.closed, if_neg (by simp)]; omega
  obtain ⟨hrec, hooo⟩ := deliver_received h.nxt hne
  rw [hall, List.take_length] at hrec
  have hedge := hrec.edge
  obtain ⟨run, hrec', -⟩ := drainOOO_received hQ c.rx.rcv.ooo _ h.ooo hrec.nxt
    (hrec.closed.trans h.closed) (Nat.le_add_right _ _) (by omega) (by omega) (by omega) (by omega)
  refine ⟨run, ?_⟩
  rw [deliverOOO, hooo, deferredFIN_delivered, hrec'.delivered, hrec.delivered]

/-- Such a segment is then in `readBuf`. -/
theorem handleData_delivers (hQ : Sliceable Q) (h : Open base Q c p)
    (hshut : c.app.readShutdown = false) (hfree : c.rx.readBuf.free ≤ 2 ^ 31) (hop : o ≤ p)
    (hpo : p < o + data.length) (hlen : data.length < 2 ^ 16)
    (hfit : o + data.length ≤ p + c.rx.readBuf.free) :
    ∃ run, (c.handleData (seqAt base o) data).rx.delivered
      = c.rx.delivered ++ data.drop (p - o) ++ run := by
  have hW : c.rx.readBuf.free % 2 ^ 32 = c.rx.readBuf.free := Nat.mod_eq_of_lt (by omega)
  have hdrop : (data.drop (p - o)).length = data.length - (p - o) := List.length_drop
  rw [handleData_inOrder h.nxt hshut h.closed hW hfree hop hpo (by omega) hfit]
  exact deliver_delivers hQ h hfree (List.ne_nil_of_length_pos (by omega)) (by omega) (by omega)

/-- Every byte of a segment from `p` to the right edge is delivered or filed. -/
theorem windowData_covers (hQ : Sliceable Q) (h : Open base Q c p)
    (hshut : c.app.readShutdown = false) (hfree : c.rx.readBuf.free < 2 ^ 31)
    (hlen : data.length < 2 ^ 16) (hge : p ≤ o) (hq : Q o data) {i : ℕ} (hi : i < data.length)
    (hin : o + i < p + c.rx.readBuf.free) :
    c.rx.delivered.length + (o + i - p) < (c.windowData (seqAt base o) data).rx.delivered.length ∨
    ∃ e ∈ (c.windowData (seqAt base o) data).rx.rcv.ooo, e.Covers (seqAt base (o + i)) := by
  have hcut : (data.take (p + c.rx.readBuf.free - o)).length
      = min (p + c.rx.readBuf.free - o) data.length := List.length_take
  rcases windowData_cases hQ h (by omega) hshut (List.ne_nil_of_length_pos (by omega)) hlen hge
    (by omega) hq with ⟨hout, -⟩ | ⟨kept, rfl, hne, ⟨hfits, he⟩ | ⟨rfl, -, he⟩⟩
  · exact absurd ⟨by omega, by omega⟩ hout
  · right
    rw [he]
    exact insertOOO_covers hQ hfits h.ooo (by omega) (by omega)
  · left
    obtain ⟨run, hrun⟩ := deliver_delivers hQ h hfree.le hne (by omega) (by omega)
    rw [he, hrun, List.length_append, List.length_append]
    omega

theorem handleData_covers (hQ : Sliceable Q) (h : Open base Q c p)
    (hshut : c.app.readShutdown = false) (hfree : c.rx.readBuf.free < 2 ^ 31)
    (hlen : data.length < 2 ^ 16) (hpo : p ≤ o + 2 ^ 31) (hq : Q o data) {i : ℕ}
    (hi : i < data.length) (hpi : p ≤ o + i) (hin : o + i < p + c.rx.readBuf.free) :
    c.rx.delivered.length + (o + i - p) < (c.handleData (seqAt base o) data).rx.delivered.length ∨
    ∃ e ∈ (c.handleData (seqAt base o) data).rx.rcv.ooo, e.Covers (seqAt base (o + i)) := by
  have hnil : data ≠ [] := List.ne_nil_of_length_pos (by omega)
  have hdrop : (data.drop (p - o)).length = data.length - (p - o) := List.length_drop
  rw [handleData_offsets h.nxt hnil (by omega) (by omega) hpo, if_pos (by omega)]
  have hkept := windowData_covers hQ h hshut hfree (by omega) (le_max_right o p)
    (dropped_reads hQ hq) (i := o + i - max o p) (by omega) (by omega)
  rwa [show max o p + (o + i - max o p) = o + i by omega] at hkept

end

end TCPConn
end Netstack.Tcp
