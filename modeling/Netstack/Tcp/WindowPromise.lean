import Netstack.Lib.Simulation
import Netstack.Tcp.Control
import Netstack.Tcp.ReceiveStream

/-! The window as a promise.

    A segment that acknowledges `a` and advertises the window `w` promises the peer room up to
    `a + (w << rcvWndScale)`. Room is counted here from the start of the stream: `position` is where
    `rcv.nxt` stands, `edge` is how far the free space of `readBuf` reaches. The edge never moves back,
    so what was promised stays below it, and `handleData` keeps every byte below it. The peer is
    arbitrary: nothing is assumed about what its segments carry. -/

namespace Netstack.Tcp
open Netstack.Header Netstack.Serial Netstack.Copy Netstack.Trace Netstack.Simulation TCPConn

/-! ### Bytes known for a sequence number -/

/-- The entry holds the byte `b` for sequence number `x`. -/
def OOOSegment.Holds (e : OOOSegment) (x : UInt32) (b : UInt8) : Prop :=
  e.data[(x - e.seq).toNat]? = some b

/-- `b` is the byte that a segment brings for `x`, or one that an entry holds for it. -/
def Known (l : List OOOSegment) (seq : UInt32) (data : List UInt8) (x : UInt32) (b : UInt8) : Prop :=
  data[(x - seq).toNat]? = some b ∨ ∃ e ∈ l, e.Holds x b

/-- The bytes of a run, each related by `M` to its sequence number. -/
def Runs (base : UInt32) (M : UInt32 → UInt8 → Prop) (off : ℕ) (l : List UInt8) : Prop :=
  ∀ j b, l[j]? = some b → M (seqAt base (off + j)) b

theorem sliceable_runs (base : UInt32) (M : UInt32 → UInt8 → Prop) : Sliceable (Runs base M) where
  nil _ j b h := by simp at h
  drop n h j b hj := by
    rw [List.getElem?_drop] at hj
    rw [Nat.add_assoc]
    exact h _ b hj
  take n h j b hj := by
    rw [List.getElem?_take] at hj
    split at hj
    · exact h j b hj
    · cases hj
  append {off a b'} ha hb j b hj := by
    rw [List.getElem?_append] at hj
    split at hj
    · exact ha j b hj
    · have h := hb _ b hj
      rwa [show off + a.length + (j - a.length) = off + j by omega] at h

/-- Every list of ranges holds known bytes. -/
theorem filed_known {base seq : UInt32} {data : List UInt8} {top edge : ℕ} {l : List OOOSegment} :
    ∀ {l' : List OOOSegment} {lo : ℕ}, Filed base (fun _ _ => True) top edge lo l' → l' ⊆ l →
      edge ≤ lo + 2 ^ 32 → Filed base (Runs base (Known l seq data)) top edge lo l'
  | [], _, _, _, _ => trivial
  | e :: rest, lo, ⟨off, h1, h2, h3, h4, h5, _, h7⟩, hsub, hedge => by
      refine ⟨off, h1, h2, h3, h4, h5, fun j b hj => ?_,
        filed_known h7 (fun e he => hsub (List.mem_cons_of_mem _ he)) (by omega)⟩
      have hlt := (List.getElem?_eq_some_iff.1 hj).1
      refine .inr ⟨e, hsub List.mem_cons_self, ?_⟩
      rw [OOOSegment.Holds, h4, toNat_sub_of_le base (by omega) (by omega), Nat.add_sub_cancel_left]
      exact hj

namespace TCPConn

section
variable {base : UInt32} {c : TCPConn} {p o : ℕ} {data : List UInt8}

theorem deferredFIN_ooo (c : TCPConn) : c.deferredFIN.rx.rcv.ooo = c.rx.rcv.ooo := by
  rw [deferredFIN]
  split
  · exact (Quiet.sendACK c.clearFIN.countFIN.cancelDelayedACK).ooo
  · rfl

/-- CORRECT: inside a window of less than `2 ^ 31` bytes every byte from `p` to the right edge is, after
    `handleData`, delivered or filed; where a byte had been filed before, it may be that one. -/
theorem handleData_keeps (h : Open base (fun _ _ => True) c p) (hshut : c.app.readShutdown = false)
    (hfree : c.rx.readBuf.free < 2 ^ 31) (hlen : data.length < 2 ^ 16) (hop : o ≤ p + 2 ^ 31)
    (hpo : p ≤ o + 2 ^ 31) {i : ℕ} (hi : i < data.length) (hpi : p ≤ o + i)
    (hin : o + i < p + c.rx.readBuf.free) :
    ∃ b, Known c.rx.rcv.ooo (seqAt base o) data (seqAt base (o + i)) b ∧
      ((c.handleData (seqAt base o) data).rx.delivered[c.rx.delivered.length + (o + i - p)]? = some b ∨
        ∃ e ∈ (c.handleData (seqAt base o) data).rx.rcv.ooo, e.Holds (seqAt base (o + i)) b) := by
  have hopen : Open base (Runs base (Known c.rx.rcv.ooo (seqAt base o) data)) c p :=
    ⟨h.nxt, h.closed, filed_known h.ooo (List.Subset.refl _) (by omega)⟩
  have hq : Runs base (Known c.rx.rcv.ooo (seqAt base o) data) o data := by
    intro j b hj
    have hlt := (List.getElem?_eq_some_iff.1 hj).1
    left
    rw [toNat_sub_of_le base (by omega) (by omega), Nat.add_sub_cancel_left]
    exact hj
  obtain ⟨run, c₁, hrec, hrun, hopen₁, hcases⟩ :=
    handleData_takesIn (sliceable_runs base _) hopen (by omega) hshut hlen hop hpo hq
  have hdel : (c.handleData (seqAt base o) data).rx.delivered = c.rx.delivered ++ run := by
    rcases hcases with he | he <;> rw [he, ← hrec.delivered]
    exact deferredFIN_delivered c₁
  have hooo : (c.handleData (seqAt base o) data).rx.rcv.ooo = c₁.rx.rcv.ooo := by
    rcases hcases with he | he <;> rw [he]
    exact deferredFIN_ooo c₁
  rcases handleData_covers (sliceable_runs base _) hopen hshut hfree hlen hpo hq hi hpi hin with
    hlt | ⟨e, he, hcov⟩
  · rw [hdel, List.length_append] at hlt
    have hget : run[o + i - p]? = some (run.get ⟨o + i - p, by omega⟩) :=
      List.getElem?_eq_getElem (by omega)
    have hknown := hrun _ _ hget
    rw [show p + (o + i - p) = o + i by omega] at hknown
    refine ⟨_, hknown, .inl ?_⟩
    rw [hdel, List.getElem?_append_right (Nat.le_add_right _ _), Nat.add_sub_cancel_left]
    exact hget
  · obtain ⟨off, -, -, -, hseq, hbytes⟩ := hopen₁.ooo.entry (hooo ▸ he)
    have hget : e.data[(seqAt base (o + i) - e.seq).toNat]? = some (e.data.get ⟨_, hcov⟩) :=
      List.getElem?_eq_getElem hcov
    have hx : seqAt base (off + (seqAt base (o + i) - e.seq).toNat) = seqAt base (o + i) := by
      rw [hseq, ← seqAt_of_sub]
    have hknown := hbytes _ _ hget
    rw [hx] at hknown
    exact ⟨_, hknown, .inr ⟨e, he, hget⟩⟩

end

/-! ### Positions -/

/-- The position of `rcv.nxt`: the bytes delivered and the FINs counted. -/
def position (c : TCPConn) : ℕ := c.rx.delivered.length + c.rx.finAt.length

/-- The position up to which `readBuf` has room. -/
def edge (c : TCPConn) : ℕ := c.position + c.rx.readBuf.free

/-- What a window field stands for. -/
def reach (c : TCPConn) (wnd : UInt16) : ℕ := wnd.toNat <<< c.env.rcvWndScale

/-- The window advertised is at most the free space. -/
theorem reach_wnd_le (c : TCPConn) : c.reach c.wnd ≤ c.rx.readBuf.free := by
  have hshift : (c.rx.readBuf.free >>> c.env.rcvWndScale) <<< c.env.rcvWndScale ≤ c.rx.readBuf.free := by
    rw [Nat.shiftLeft_eq, Nat.shiftRight_eq_div_pow]
    exact Nat.div_mul_le_self _ _
  rw [reach, wnd]
  dsimp only
  generalize (if c.ctl.synced then c.tx.snd.mss else 536) = mss
  split
  · simp
  · split
    · rename_i hbig
      refine le_trans ?_ hshift
      rw [Nat.shiftLeft_eq, Nat.shiftLeft_eq]
      exact Nat.mul_le_mul_right _ hbig.le
    · rwa [UInt16.toNat_ofNat_of_lt' (by rw [UInt16.size]; omega)]

theorem Quiet.position {c c' : TCPConn} (q : Quiet c c') : c'.position = c.position := by
  rw [TCPConn.position, TCPConn.position, q.delivered, q.finAt]

theorem Quiet.edge {c c' : TCPConn} (q : Quiet c c') : c'.edge = c.edge := by
  rw [TCPConn.edge, TCPConn.edge, q.position, q.readBuf]

/-- `c'` follows `c`: the position and the edge have not moved back, and every acknowledgment sent on
    the way was of a position in between, with a window inside the edge. -/
structure Advances (c c' : TCPConn) : Prop where
  env : c'.env = c.env
  position : ∃ n, c'.position = c.position + n ∧ c'.rx.rcv.nxt = c.rx.rcv.nxt + UInt32.ofNat n
  edge : c.edge ≤ c'.edge
  told : ∃ ps, c'.wire.out = c.wire.out ++ ps ∧ ∀ p ∈ ps, p.flags.has tcpFlagACK = true →
    ∃ n, c.position + n ≤ c'.position ∧ p.ack = c.rx.rcv.nxt + UInt32.ofNat n ∧
      c.position + n + c.reach p.wnd ≤ c'.edge

namespace Advances

variable {c c' c'' : TCPConn}

theorem trans (h : Advances c c') (h' : Advances c' c'') : Advances c c'' := by
  obtain ⟨n, hn, hnxt⟩ := h.position
  obtain ⟨n', hn', hnxt'⟩ := h'.position
  obtain ⟨ps, hps, hp⟩ := h.told
  obtain ⟨ps', hps', hp'⟩ := h'.told
  refine ⟨h'.env.trans h.env, ⟨n + n', by omega, ?_⟩, h.edge.trans h'.edge, ps ++ ps',
    by rw [hps', hps, List.append_assoc], fun p hmem hack => ?_⟩
  · rw [hnxt', hnxt, UInt32.ofNat_add, UInt32.add_assoc]
  rcases List.mem_append.1 hmem with hmem | hmem
  · obtain ⟨k, h1, h2, h3⟩ := hp p hmem hack
    exact ⟨k, by omega, h2, h3.trans h'.edge⟩
  · obtain ⟨k, h1, h2, h3⟩ := hp' p hmem hack
    have hreach : c'.reach p.wnd = c.reach p.wnd := by rw [reach, reach, h.env]
    refine ⟨n + k, by omega, ?_, by omega⟩
    rw [h2, hnxt, UInt32.ofNat_add, UInt32.add_assoc]

/-- Nothing is sent. -/
theorem of_silent (env : c'.env = c.env) (out : c'.wire.out = c.wire.out)
    (position : ∃ n, c'.position = c.position + n ∧ c'.rx.rcv.nxt = c.rx.rcv.nxt + UInt32.ofNat n)
    (edge : c.edge ≤ c'.edge) : Advances c c' :=
  ⟨env, position, edge, [], by rw [out, List.append_nil], by simp⟩

theorem of_quiet (q : Quiet c c') (hs : c.ctl.synced = true) : Advances c c' := by
  obtain ⟨ps, hps, hp⟩ := q.sent
  have hpos := q.position
  have hedge := q.edge
  refine ⟨q.env, ⟨0, hpos, by rw [q.nxt]; simp⟩, hedge.ge, ps, hps, fun p hmem hack => ?_⟩
  obtain ⟨h1, h2⟩ := hp p hmem hs hack
  refine ⟨0, hpos.ge, by rw [h1]; simp, ?_⟩
  have hle := c.reach_wnd_le
  rw [hedge, h2, TCPConn.edge]
  omega

theorem countFIN (c : TCPConn) : Advances c c.countFIN := by
  have hpos : c.countFIN.position = c.position + 1 := by
    simp only [TCPConn.position, TCPConn.countFIN, List.length_append, List.length_singleton]
    omega
  refine of_silent rfl rfl ⟨1, hpos, rfl⟩ ?_
  rw [TCPConn.edge, TCPConn.edge, hpos, show c.countFIN.rx.readBuf = c.rx.readBuf from rfl]
  omega

theorem closeReadBuf (c : TCPConn) : Advances c c.closeReadBuf := by
  refine of_silent rfl rfl ⟨0, rfl, by simp [TCPConn.closeReadBuf]⟩ ?_
  rw [TCPConn.edge, TCPConn.edge, TCPConn.closeReadBuf]
  dsimp only
  split <;> exact le_refl _

theorem setState (c : TCPConn) (st : TCPState) : Advances c (c.setState st) :=
  of_silent rfl rfl ⟨0, rfl, by simp [TCPConn.setState]⟩ (le_refl _)

/-- A FIN is counted and acknowledged, and `readBuf` is closed. -/
theorem countedFIN (hs : c.ctl.synced = true) : Advances c c.countFIN.sendACK.closeReadBuf :=
  ((countFIN c).trans (of_quiet (.sendACK _) hs)).trans (closeReadBuf _)

theorem processFIN (hs : c.ctl.synced = true) : Advances c c.processFIN := by
  have hsent : Advances c c.countFIN.cancelDelayedACK.sendACK :=
    ((countFIN c).trans (of_quiet (.cancelDelayedACK _) hs)).trans (of_quiet (.sendACK _) hs)
  exact (hsent.trans (closeReadBuf _)).trans (setState _ _)

theorem enterTimeWait (hs : c.ctl.synced = true) : Advances c c.enterTimeWait :=
  ((setState c .timeWait).trans (closeReadBuf _)).trans
    (of_quiet (.of_silent rfl rfl rfl rfl rfl rfl) hs)

/-- An acknowledgment, by its position. -/
theorem ack {base : UInt32} (h : Advances c c') (hnxt : c.rx.rcv.nxt = seqAt base c.position)
    {p : OutSegment} (hp : p ∈ c'.wire.out.drop c.wire.out.length)
    (hack : p.flags.has tcpFlagACK = true) :
    ∃ a, c.position ≤ a ∧ a ≤ c'.position ∧ p.ack = seqAt base a ∧ a + c.reach p.wnd ≤ c'.edge := by
  obtain ⟨ps, hps, htold⟩ := h.told
  rw [hps, List.drop_left] at hp
  obtain ⟨n, h1, h2, h3⟩ := htold p hp hack
  exact ⟨c.position + n, by omega, h1, by rw [h2, hnxt, seqAt_add], h3⟩

end Advances

/-! ### The receiver behind the window -/

/-- `rcv.nxt` counts what was delivered and the FINs; `CloseRead` has not been called. -/
structure Counted (c : TCPConn) : Prop where
  shut : c.app.readShutdown = false
  syn : c.ctl.state = .synRcvd → c.ctl.synced = false
  unsynced : c.ctl.synced = false → c.rx.delivered = [] ∧ c.rx.finAt = [] ∧
    (c.ctl.running = true → c.rx.readBuf.closed = false)
  nxt : c.ctl.synced = true → c.rx.rcv.nxt = seqAt c.base c.position

/-- A sequence number before all that a segment can carry: the stream starts at offset `2 ^ 31`. -/
def origin (c : TCPConn) : UInt32 := c.base - UInt32.ofNat (2 ^ 31)

theorem seqAt_origin (c : TCPConn) (n : ℕ) : seqAt c.origin (n + 2 ^ 31) = seqAt c.base n := by
  rw [Nat.add_comm, seqAt_add, origin, seqAt, UInt32.sub_add_cancel, seqAt]

/-- Besides, either `readBuf` is closed or the out-of-order list is in order inside the window. -/
structure Receiving (c : TCPConn) : Prop extends Counted c where
  live : c.ctl.synced = true → c.rx.readBuf.closed = true ∨
    Open c.origin (fun _ _ => True) c (c.position + 2 ^ 31)

/-- `readBuf` is closed only on leaving ESTABLISHED, which is not entered again. -/
def Opened (c c' : TCPConn) : Prop := c'.ctl.state = .established →
  c.ctl.state = .established ∧ (c.rx.readBuf.closed = false → c'.rx.readBuf.closed = false)

theorem Opened.trans {c c' c'' : TCPConn} (h : Opened c c') (h' : Opened c' c'') : Opened c c'' := by
  intro hs
  obtain ⟨hs', hc'⟩ := h' hs
  obtain ⟨hs, hc⟩ := h hs'
  exact ⟨hs, fun ho => hc' (hc ho)⟩

theorem Opened.of_quiet {c c' : TCPConn} (q : Quiet c c') : Opened c c' := fun hs =>
  ⟨q.established hs, fun ho => by rw [q.readBuf]; exact ho⟩

theorem Opened.of_state {c c' : TCPConn} (st : TCPState) (hs : c'.ctl.state = st)
    (hst : st ≠ .established) : Opened c c' := fun he => absurd (hs.symm.trans he) hst

section
variable {c c' c'' : TCPConn}

theorem Counted.quiet (h : Counted c) (q : Quiet c c') : Counted c' where
  shut := q.readShutdown.trans h.shut
  syn hs := q.synced.trans (h.syn (q.synRcvd hs))
  unsynced hs := by
    obtain ⟨h1, h2, h3⟩ := h.unsynced (q.synced ▸ hs)
    exact ⟨q.delivered.trans h1, q.finAt.trans h2, fun hr => q.readBuf ▸ h3 (q.running hr)⟩
  nxt hs := by
    rw [q.nxt, h.nxt (q.synced ▸ hs), base, base, position, position, q.env, q.delivered, q.finAt]

theorem Receiving.quiet (h : Receiving c) (q : Quiet c c') : Receiving c' where
  toCounted := h.toCounted.quiet q
  live hs := by
    rcases h.live (q.synced ▸ hs) with hc | ho
    · exact .inl (q.readBuf ▸ hc)
    · right
      rw [origin, base, position, q.env, q.delivered, q.finAt]
      exact ⟨q.nxt.trans ho.nxt, q.readBuf ▸ ho.closed, by rw [q.readBuf, q.ooo]; exact ho.ooo⟩

theorem Receiving.setState (h : Receiving c) {st : TCPState} (hst : st ≠ .synRcvd) :
    Receiving (c.setState st) where
  toCounted := ⟨h.shut, fun he => absurd he hst, h.unsynced, h.nxt⟩
  live hs := (h.live hs).imp id fun ho => ⟨ho.nxt, ho.closed, ho.ooo⟩

theorem Counted.countFIN (h : Counted c) (hs : c.ctl.synced = true) : Counted c.countFIN where
  shut := h.shut
  syn := h.syn
  unsynced hu := absurd (hs.symm.trans hu) (by simp)
  nxt _ := by
    have hpos : c.countFIN.position = c.position + 1 := by
      simp only [position, TCPConn.countFIN, List.length_append, List.length_singleton]
      omega
    rw [hpos, seqAt_succ]
    exact congrArg (· + 1) (h.nxt hs)

/-- Once `readBuf` is closed there is nothing left to say about the out-of-order list. -/
theorem Counted.closeReadBuf (h : Counted c) (hs : c.ctl.synced = true) :
    Receiving c.closeReadBuf where
  shut := h.shut
  syn := h.syn
  unsynced hu := absurd (hs.symm.trans hu) (by simp)
  nxt := h.nxt
  live _ := .inl (by simp [TCPConn.closeReadBuf, h.shut])

theorem Counted.countedFIN (h : Counted c) (hs : c.ctl.synced = true) :
    Receiving c.countFIN.sendACK.closeReadBuf :=
  ((h.countFIN hs).quiet (.sendACK _)).closeReadBuf hs

theorem Counted.processFIN (h : Counted c) (hs : c.ctl.synced = true) : Receiving c.processFIN := by
  have hb : Counted c.countFIN.cancelDelayedACK.sendACK :=
    ((h.countFIN hs).quiet (.cancelDelayedACK _)).quiet (.sendACK _)
  exact (hb.closeReadBuf hs).setState (by simp)

theorem Counted.enterTimeWait (h : Counted c) (hs : c.ctl.synced = true) :
    Receiving c.enterTimeWait :=
  ((h.quiet (.setState c (s := .timeWait) (by simp))).closeReadBuf hs).quiet
    (.of_silent rfl rfl rfl rfl rfl rfl)

/-! ### One segment -/

/-- What the handling of a segment on a connection with a receiver comes to. -/
structure Serves (c c' : TCPConn) : Prop where
  synced : c'.ctl.synced = true
  receiving : Receiving c'
  advances : Advances c c'
  opened : Opened c c'

theorem Serves.trans (h : Serves c c') (h' : Serves c' c'') : Serves c c'' :=
  ⟨h'.synced, h'.receiving, h.advances.trans h'.advances, h.opened.trans h'.opened⟩

theorem Serves.quiet (h : Serves c c') (q : Quiet c' c'') : Serves c c'' :=
  ⟨q.synced.trans h.synced, h.receiving.quiet q, h.advances.trans (.of_quiet q h.synced),
    h.opened.trans (.of_quiet q)⟩

theorem Receiving.serves (h : Receiving c) (hs : c.ctl.synced = true) (q : Quiet c c') :
    Serves c c' :=
  ⟨q.synced.trans hs, h.quiet q, .of_quiet q hs, .of_quiet q⟩

theorem Receiving.processFIN (h : Receiving c) (hs : c.ctl.synced = true) : Serves c c.processFIN :=
  ⟨hs, h.toCounted.processFIN hs, .processFIN hs, .of_state .closeWait rfl (by simp)⟩

theorem Receiving.deferredFIN (h : Receiving c) (hs : c.ctl.synced = true) :
    Serves c c.deferredFIN := by
  rw [TCPConn.deferredFIN]
  split
  · have hclear : Serves c c.clearFIN :=
      ⟨hs, ⟨⟨h.shut, h.syn, h.unsynced, h.nxt⟩, fun hs => (h.live hs).imp id fun ho =>
        ⟨ho.nxt, ho.closed, ho.ooo⟩⟩, .of_silent rfl rfl ⟨0, rfl, by simp [clearFIN]⟩ (le_refl _),
        fun he => ⟨he, id⟩⟩
    exact hclear.trans (hclear.receiving.processFIN hs)
  · exact h.serves hs (.refl c)

/-- The payload of a segment, from anywhere. -/
theorem Receiving.handleData (h : Receiving c) (hs : c.ctl.synced = true)
    (hcap : c.rx.readBuf.cap < 2 ^ 32) (seq : UInt32) {data : List UInt8}
    (hlen : data.length < 2 ^ 16) : Serves c (c.handleData seq data) := by
  rcases h.live hs with hc | ho
  · obtain ⟨r, h1, h2, h3, he⟩ := handleData_closed hc h.shut seq data
    rw [he]
    exact ⟨hs, ⟨⟨h.shut, h.syn, h.unsynced, fun hs => h1.trans (h.nxt hs)⟩, fun _ => .inl hc⟩,
      .of_silent rfl rfl ⟨0, rfl, by rw [h1]; simp⟩ (le_refl _), fun he => ⟨he, id⟩⟩
  · have hfree : c.rx.readBuf.free < 2 ^ 32 := by
      have := c.rx.readBuf.len_add_free; omega
    obtain ⟨o, hseq, hop, hpo⟩ := exists_seqAt_near c.origin seq (Nat.le_add_left _ c.position)
    obtain ⟨run, c₁, hrec, -, hopen, hcases⟩ := handleData_takesIn sliceable_true ho (by omega)
      h.shut hlen hop hpo trivial
    have hctl : c₁.ctl = c.ctl := by rw [hrec.same]
    have horigin : c₁.origin = c.origin := by rw [origin, origin, base, base, hrec.same]
    have hbase : c₁.base = c.base := by rw [base, base, hrec.same]
    have hpos : c₁.position = c.position + run.length := by
      rw [position, position, hrec.delivered, hrec.finAt, List.length_append]
      omega
    have hedge := hrec.edge
    have hnxt : c₁.rx.rcv.nxt = seqAt c.base c₁.position := by
      rw [hrec.nxt, hpos, ← seqAt_origin]
      congr 1
      omega
    have hlive : Open c₁.origin (fun _ _ => True) c₁ (c₁.position + 2 ^ 31) := by
      rw [horigin, hpos, show c.position + run.length + 2 ^ 31 = c.position + 2 ^ 31 + run.length by omega]
      exact hopen
    have hfed : Serves c c₁ := by
      refine ⟨by rw [hctl]; exact hs, ⟨⟨?_, ?_, ?_, fun _ => by rw [hbase]; exact hnxt⟩,
        fun _ => .inr hlive⟩, .of_silent (by rw [hrec.same]) (by rw [hrec.same]) ⟨run.length, hpos, ?_⟩ ?_, ?_⟩
      · rw [hrec.same]; exact h.shut
      · rw [hctl]; exact h.syn
      · rw [hctl, hs]; exact fun hu => by cases hu
      · rw [hnxt, hpos, seqAt_add, h.nxt hs]
      · rw [edge, edge, hpos]; omega
      · rw [Opened, hctl, hrec.closed]; exact fun he => ⟨he, id⟩
    rw [hseq]
    rcases hcases with he | he <;> rw [he]
    · exact hfed
    · exact hfed.trans (hfed.receiving.deferredFIN hfed.synced)

theorem Receiving.takePayload (h : Receiving c) (hs : c.ctl.synced = true)
    (hcap : c.rx.readBuf.cap < 2 ^ 32) (seg : Segment) : Serves c (c.takePayload seg) := by
  rw [TCPConn.takePayload, if_pos hs]
  exact h.handleData hs hcap seg.seq seg.payload_lt

theorem Receiving.establishedFIN (h : Receiving c) (hs : c.ctl.synced = true) (seg : Segment) :
    Serves c (c.establishedFIN seg) := by
  rw [TCPConn.establishedFIN]
  split_ifs
  · exact h.processFIN hs
  · have hdefer : Serves c (c.deferFIN seg.finSeq) :=
      ⟨hs, ⟨⟨h.shut, h.syn, h.unsynced, h.nxt⟩, fun hs => (h.live hs).imp id fun ho =>
        ⟨ho.nxt, ho.closed, ho.ooo⟩⟩, .of_silent rfl rfl ⟨0, rfl, by simp [deferFIN]⟩ (le_refl _),
        fun he => ⟨he, id⟩⟩
    exact hdefer.quiet (.scheduleACK _ seg)
  · exact h.serves hs (.scheduleACK c seg)

/-- Work of the send side, then the payload. -/
theorem Receiving.payloadAfter (h : Receiving c) (hs : c.ctl.synced = true)
    (hcap : c.rx.readBuf.cap < 2 ^ 32) (t : TxOnly c c') (seg : Segment) :
    Serves c (c'.takePayload seg) := by
  have ht := h.serves hs (.of_txOnly t)
  exact ht.trans (ht.receiving.takePayload ht.synced (by rw [t.rx]; exact hcap) seg)

theorem Receiving.handleEstablished (h : Receiving c) (hs : c.ctl.synced = true)
    (hcap : c.rx.readBuf.cap < 2 ^ 32) (seg : Segment) : Serves c (c.handleEstablished seg) := by
  have hpay := h.payloadAfter hs hcap
    ((TxOnly.resetKeepalive c).trans (.establishedACK _ seg)) seg
  exact hpay.trans (hpay.receiving.establishedFIN hpay.synced seg)

theorem Receiving.finWait1FIN (h : Receiving c) (hs : c.ctl.synced = true) (acked : Bool) :
    Serves c (c.finWait1FIN acked) := by
  rw [TCPConn.finWait1FIN]
  split
  · exact ⟨hs, (h.toCounted.countedFIN hs).toCounted.enterTimeWait hs,
      (Advances.countedFIN hs).trans (.enterTimeWait hs), .of_state .timeWait rfl (by simp)⟩
  · exact ⟨hs, (h.toCounted.countedFIN hs).setState (by simp),
      (Advances.countedFIN hs).trans (.setState _ _), .of_state .closing rfl (by simp)⟩

theorem Receiving.finWait1End (h : Receiving c) (hs : c.ctl.synced = true) (seg : Segment)
    (acked : Bool) : Serves c (c.finWait1End seg acked) := by
  rw [TCPConn.finWait1End]
  split
  · exact h.serves hs (((Quiet.ackPayload c seg).trans (.setState _ (by simp))).trans
      (.of_silent rfl rfl rfl rfl rfl rfl))
  · exact h.serves hs (.ackPayload c seg)

theorem Receiving.handleFinWait1 (h : Receiving c) (hs : c.ctl.synced = true)
    (hcap : c.rx.readBuf.cap < 2 ^ 32) (seg : Segment) : Serves c (c.handleFinWait1 seg) := by
  have hpay := h.payloadAfter hs hcap (.finWait1ACK c seg) seg
  rw [TCPConn.handleFinWait1]
  split
  · exact hpay.trans (hpay.receiving.finWait1FIN hpay.synced _)
  · exact hpay.trans (hpay.receiving.finWait1End hpay.synced seg _)

theorem Receiving.handleFinWait2 (h : Receiving c) (hs : c.ctl.synced = true)
    (hcap : c.rx.readBuf.cap < 2 ^ 32) (seg : Segment) : Serves c (c.handleFinWait2 seg) := by
  have t : TxOnly c (c.finWait2ACK seg) := .finWait2ACK c seg
  have hdata : Serves c ((c.finWait2ACK seg).finWait2Data seg) := by
    rw [finWait2Data]
    split
    · exact h.serves hs (.of_txOnly t)
    · exact (h.payloadAfter hs hcap t seg).quiet (.of_silent rfl rfl rfl rfl rfl rfl)
  rw [TCPConn.handleFinWait2]
  split
  · have hfin : Serves ((c.finWait2ACK seg).finWait2Data seg)
        ((c.finWait2ACK seg).finWait2Data seg).countFIN.sendACK.enterTimeWait :=
      ⟨hdata.synced, ((hdata.receiving.countFIN hdata.synced).quiet (.sendACK _)).enterTimeWait
        hdata.synced, ((Advances.countFIN _).trans (.of_quiet (.sendACK _) hdata.synced)).trans
        (.enterTimeWait hdata.synced), .of_state .timeWait rfl (by simp)⟩
    exact hdata.trans hfin
  · exact hdata.quiet (.ackPayload _ seg)

theorem Receiving.handleClosing (h : Receiving c) (hs : c.ctl.synced = true) (seg : Segment) :
    Serves c (c.handleClosing seg) := by
  have hack := h.serves hs (.of_txOnly (.closingACK c seg))
  rw [TCPConn.handleClosing]
  split_ifs
  · have hend : Serves (c.closingACK seg) (c.closingACK seg).enterTimeWait :=
      ⟨hack.synced, hack.receiving.enterTimeWait hack.synced, .enterTimeWait hack.synced,
        .of_state .timeWait rfl (by simp)⟩
    exact hack.trans hend
  · exact hack.quiet (.reACKFIN _ seg)
  · exact h.serves hs (.reACKFIN c seg)

theorem Receiving.dispatch (h : Receiving c) (hs : c.ctl.synced = true)
    (hcap : c.rx.readBuf.cap < 2 ^ 32) (seg : Segment) : Serves c (c.dispatch seg) := by
  cases hst : c.ctl.state <;> simp only [TCPConn.dispatch, hst]
  case synRcvd => exact absurd ((h.syn hst).symm.trans hs) (by simp)
  case established => exact h.handleEstablished hs hcap seg
  case finWait1 => exact h.handleFinWait1 hs hcap seg
  case finWait2 => exact h.handleFinWait2 hs hcap seg
  case closeWait => exact h.serves hs (.of_txOnly (.handleCloseWait c seg))
  case closing => exact h.handleClosing hs seg
  case lastAck => exact h.serves hs (.handleLastAck c seg)
  case timeWait => exact h.serves hs (.handleTimeWait c seg)
  case closed => exact h.serves hs (.refl c)

theorem Receiving.onInbound (h : Receiving c) (hs : c.ctl.synced = true)
    (hcap : c.rx.readBuf.cap < 2 ^ 32) (seg : Segment) : Serves c (c.onInbound seg) := by
  have hseg : Serves c (c.handleSegment seg) := by
    have t := h.serves hs (.of_txOnly (.updateTSRecent c seg))
    rw [TCPConn.handleSegment]
    split_ifs
    · exact h.serves hs (.refl c)
    · exact h.serves hs (.handleRSTSegment c seg)
    · exact h.serves hs (.sendACK c)
    · exact t.trans (t.receiving.dispatch t.synced
        (by rw [(TxOnly.updateTSRecent c seg).rx]; exact hcap) seg)
  exact (hseg.quiet (.manageRTO _)).quiet (.drainForFIN _)

/-! ### The handshake -/

theorem Receiving.establish (h : Receiving c) (hs : c.ctl.synced = false)
    (hrun : c.ctl.running = true) (seg : Segment) : Receiving (c.establish seg) := by
  obtain ⟨hnil, hfin, hclosed⟩ := h.unsynced hs
  have hpos : (c.establish seg).position = 0 := by
    show c.rx.delivered.length + c.rx.finAt.length = 0
    rw [hnil, hfin]
    rfl
  have hnxt : (c.establish seg).rx.rcv.nxt = seqAt (c.establish seg).base (c.establish seg).position := by
    rw [hpos, seqAt_zero]
    rfl
  refine ⟨⟨h.shut, (fun he => by cases he), (fun he => by cases he), fun _ => hnxt⟩, fun _ => .inr ?_⟩
  exact ⟨by rw [seqAt_origin]; exact hnxt, hclosed hrun, trivial⟩

/-- `c₀` is `c` with a receiver just made. -/
structure Opens (c c₀ : TCPConn) : Prop where
  receiving : Receiving c₀
  synced : c₀.ctl.synced = true
  isOpen : c₀.rx.readBuf.closed = false
  env : c₀.env = c.env
  position : c₀.position = c.position
  edge : c₀.edge = c.edge
  out : c₀.wire.out = c.wire.out

/-- Before there is a receiver a segment is answered, or it opens the connection and the receiver
    serves from the start on. -/
theorem Receiving.onInbound_unsynced (h : Receiving c) (hu : c.ctl.synced = false)
    (hin : c.ctl.SyncedInside) (hrun : c.ctl.running = true) (hcap : c.rx.readBuf.cap < 2 ^ 32)
    (seg : Segment) :
    Quiet c (c.onInbound seg) ∨ ∃ c₀, Serves c₀ (c.onInbound seg) ∧ Opens c c₀ := by
  rcases TCPConn.onInbound_unsynced hu (hin.resolve_left (by simp [hu])) seg with q | ⟨-, hopened⟩
  · exact .inl q
  right
  have t := TxOnly.updateTSRecent c seg
  have q := Quiet.of_txOnly t
  have hout : (c.updateTSRecent seg).wire.out = c.wire.out := by
    rw [TCPConn.updateTSRecent]
    split
    · split <;> rfl
    · rfl
  have hest := (h.quiet q).establish (by rw [t.ctl]; exact hu) (by rw [t.ctl]; exact hrun) seg
  have hlive : Serves ((c.updateTSRecent seg).establish seg)
      ((c.updateTSRecent seg).establish seg).resetKeepalive :=
    hest.serves rfl (.of_txOnly (.resetKeepalive _))
  have hclosed : (c.updateTSRecent seg).rx.readBuf.closed = false := by
    rw [t.rx]
    exact (h.unsynced hu).2.2 hrun
  refine ⟨_, Serves.quiet ?_ hopened, hest, rfl, hclosed, t.env, q.position, q.edge, hout⟩
  rw [synPayload]
  split
  · exact hlive
  · have hcap' : (c.updateTSRecent seg).rx.readBuf.cap < 2 ^ 32 := by rw [t.rx]; exact hcap
    exact (hlive.trans (hlive.receiving.handleData rfl hcap' seg.seq seg.payload_lt)).quiet (.sendACK _)

/-! ### The application -/

/-- A read, of any length, makes room. -/
theorem Receiving.read (h : Receiving c) (n : ℕ) :
    Receiving { c with rx.readBuf := (c.rx.readBuf.readNoBlock n).1 } ∧
      Advances c { c with rx.readBuf := (c.rx.readBuf.readNoBlock n).1 } := by
  have hclosed := c.rx.readBuf.closed_readNoBlock n
  have hfree := c.rx.readBuf.free_le_free_readNoBlock n
  refine ⟨⟨⟨h.shut, h.syn, fun hu => ?_, h.nxt⟩, fun hs => ?_⟩,
    .of_silent rfl rfl ⟨0, rfl, by simp⟩ (Nat.add_le_add_left hfree _)⟩
  · obtain ⟨h1, h2, h3⟩ := h.unsynced hu
    exact ⟨h1, h2, fun hr => hclosed.trans (h3 hr)⟩
  · rcases h.live hs with hc | ho
    · exact .inl (hclosed.trans hc)
    · exact .inr ⟨ho.nxt, hclosed.trans ho.closed,
        ho.ooo.mono (le_refl _) (Nat.add_le_add_left hfree _) (le_refl _)⟩

/-- `forceCloseFromRun` closes `readBuf` and ends the run loop. -/
theorem Receiving.forceClosed (h : Receiving c) : Receiving c.forceCloseBufs.exitRun ∧
    c.forceCloseBufs.exitRun.edge = c.edge ∧
    (c.ctl.synced = true → Advances c c.forceCloseBufs.exitRun) := by
  have q : Quiet c.forceCloseBufs c.forceCloseBufs.exitRun := .exitRun _
  have hpos : c.forceCloseBufs.exitRun.position = c.position := q.position
  refine ⟨⟨⟨q.readShutdown.trans h.shut, fun hs => q.synced.trans (h.syn (q.synRcvd hs)),
    fun hu => ?_, fun hs => ?_⟩, fun _ => .inl (by rw [q.readBuf]; rfl)⟩, q.edge, fun hs => ?_⟩
  · obtain ⟨h1, h2, -⟩ := h.unsynced (q.synced ▸ hu)
    exact ⟨q.delivered.trans h1, q.finAt.trans h2, fun hr => by cases hr⟩
  · rw [q.nxt, hpos, base, q.env]
    exact h.nxt (q.synced ▸ hs)
  · have hbufs : Advances c c.forceCloseBufs :=
      .of_silent rfl rfl ⟨0, rfl, by simp [forceCloseBufs]⟩ (le_refl _)
    exact hbufs.trans (.of_quiet q hs)

theorem Receiving.onForceClose (h : Receiving c) : Receiving c.onForceClose ∧
    c.onForceClose.edge = c.edge ∧ (c.ctl.synced = true → Advances c c.onForceClose) := by
  rw [TCPConn.onForceClose]
  split
  · have q : Quiet c (c.sendRSTSegment c.tx.snd.nxt) := .sendRSTSegment c _
    obtain ⟨h1, h2, h3⟩ := (h.quiet q).forceClosed
    exact ⟨h1, h2.trans q.edge, fun hs => (Advances.of_quiet q hs).trans (h3 hs)⟩
  · exact h.forceClosed

theorem onForceClose_state (hdone : c.ctl.DoneClosed) : c.onForceClose.ctl.state = .closed := by
  have hexit : ∀ d : TCPConn, d.ctl = c.ctl → d.forceCloseBufs.exitRun.ctl.state = .closed := by
    intro d hd
    show d.forceCloseBufs.closeDone.ctl.state = .closed
    rw [closeDone]
    split
    · rename_i hd'
      have hctl : d.forceCloseBufs.ctl = c.ctl := hd
      rw [hctl] at hd' ⊢
      exact hdone hd'
    · rfl
  rw [TCPConn.onForceClose]
  split
  · exact hexit _ rfl
  · exact hexit _ rfl

end
end TCPConn

/-! ### Whole runs -/

/-- `CloseRead` is not called, and `readBuf` is below `2 ^ 31` bytes. -/
def WindowKept (s : Sys) (e : Event) : Prop := e ≠ .closeRead ∧ s.conn.rx.readBuf.cap < 2 ^ 31

/-- `CloseRead` is not called, and `readBuf` is below `2 ^ 32` bytes. -/
def ReadKept (s : Sys) (e : Event) : Prop := e ≠ .closeRead ∧ s.conn.rx.readBuf.cap < 2 ^ 32

instance (s : Sys) (e : Event) : Decidable (ReadKept s e) := inferInstanceAs (Decidable (_ ∧ _))

theorem WindowKept.readKept {s : Sys} {e : Event} (h : WindowKept s e) : ReadKept s e :=
  ⟨h.1, h.2.trans (by decide)⟩

/-- What holds of the receiver in every state. -/
structure Promising (c : TCPConn) : Prop extends Receiving c where
  isOpen : c.ctl.state = .established → c.rx.readBuf.closed = false

theorem Promising.of_opened {c c' : TCPConn} (h : Promising c) (h' : Receiving c')
    (ho : Opened c c') : Promising c' :=
  ⟨h', fun hs => (ho hs).2 (h.isOpen (ho hs).1)⟩

/-- What a step comes to: the window moves on from the connection before it or, in the step that ends
    the handshake, from the one that has just got its receiver. -/
structure PromiseStep (c c' : TCPConn) : Prop where
  promising : Promising c'
  synced : c.ctl.synced = true → c'.ctl.synced = true
  edge : c.edge ≤ c'.edge
  advances : c.ctl.synced = true → Advances c c'
  opens : c.ctl.synced = false → c'.ctl.synced = true → ∃ c₀, Opens c c₀ ∧ Advances c₀ c'

theorem Promising.quiet {c c' : TCPConn} (h : Promising c) (q : Quiet c c') : PromiseStep c c' where
  promising := h.of_opened (h.toReceiving.quiet q) (.of_quiet q)
  synced := q.synced.trans
  edge := q.edge.ge
  advances := .of_quiet q
  opens hu hs := absurd (hu.symm.trans (q.synced.symm.trans hs)) (by simp)

theorem promising_step {s s' : Sys} {e : Event} (h : Promising s.conn)
    (hin : s.conn.ctl.SyncedInside) (hdone : s.conn.ctl.DoneClosed) (hok : ReadKept s e)
    (hstep : Sys.Step s e s') : PromiseStep s.conn s'.conn := by
  cases hq : Sys.quiet e with
  | true => exact h.quiet (hstep.quiet hq)
  | false =>
    cases hstep <;> simp only [Sys.quiet, reduceCtorEq] at hq
    case inbound seg hrun =>
      by_cases hs : s.conn.ctl.synced = true
      · have hserves := h.toReceiving.onInbound hs hok.2 seg
        exact ⟨h.of_opened hserves.receiving hserves.opened, fun _ => hserves.synced,
          hserves.advances.edge, fun _ => hserves.advances, fun hu => absurd (hu.symm.trans hs) (by simp)⟩
      · have hu : s.conn.ctl.synced = false := by simpa using hs
        rcases h.toReceiving.onInbound_unsynced hu hin hrun hok.2 seg with q | ⟨c₀, hserves, ho⟩
        · exact h.quiet q
        · exact ⟨⟨hserves.receiving, fun he => (hserves.opened he).2 ho.isOpen⟩,
            fun hs' => absurd hs' hs, ho.edge.ge.trans hserves.advances.edge, fun hs' => absurd hs' hs,
            fun _ _ => ⟨c₀, ho, hserves.advances⟩⟩
    case forceCloseCh =>
      obtain ⟨hrec, hedge, hadv⟩ := h.toReceiving.onForceClose
      have hsync : s.conn.onForceClose.ctl.synced = s.conn.ctl.synced := by
        rw [TCPConn.onForceClose]
        split <;> exact (Quiet.exitRun _).synced
      refine ⟨⟨hrec, fun he => ?_⟩, hsync.trans, hedge.ge, hadv, fun hu hs => ?_⟩
      · exact absurd (he.symm.trans (onForceClose_state hdone)) (by simp)
      · exact absurd (hu.symm.trans (hsync.symm.trans hs)) (by simp)
    case readCall n _ =>
      obtain ⟨hrec, hadv⟩ := h.toReceiving.read n
      exact ⟨⟨hrec, fun hs => (s.conn.rx.readBuf.closed_readNoBlock n).trans (h.isOpen hs)⟩, id,
        hadv.edge, fun _ => hadv, fun hu hs => absurd (hu.symm.trans hs) (by simp)⟩
    case closeRead => exact absurd rfl hok.1

theorem promising_reach {s : Sys} (hr : Reach Sys.Init Sys.step ReadKept s) :
    Promising s.conn := by
  induction hr with
  | start h =>
    obtain ⟨hd, irs, iss, options, hr, hw, -, rfl⟩ := Sys.init_iff.1 h
    exact
      { shut := rfl
        syn := fun _ => rfl
        unsynced := fun _ => ⟨rfl, rfl, fun _ => rfl⟩
        nxt := fun hs => by cases hs
        live := fun hs => by cases hs
        isOpen := fun hs => by cases hs }
  | next hr hok hs ih =>
    exact (promising_step ih (syncedInside_reach hr) (doneClosed_reach hr) hok
      (Sys.step_inv hs).2).promising

theorem promising_windowKept {s : Sys} (hr : Reach Sys.Init Sys.step WindowKept s) :
    Promising s.conn :=
  promising_reach (hr.mono fun _ _ => WindowKept.readKept)

theorem promiseStep_reach {s s' : Sys} {e : Event} (hr : Reach Sys.Init Sys.step WindowKept s)
    (hok : WindowKept s e) (hs : s.step e = some s') : PromiseStep s.conn s'.conn :=
  promising_step (promising_windowKept hr) (syncedInside_reach hr) (doneClosed_reach hr) hok.readKept
    (Sys.step_inv hs).2

/-- The edge over a run. -/
theorem edge_le_of_run {s s' : Sys} {es : List Event} (hrun : Run Sys.step WindowKept s es s')
    (hr : Reach Sys.Init Sys.step WindowKept s) (hs : s.conn.ctl.synced = true) :
    Reach Sys.Init Sys.step WindowKept s' ∧ s'.conn.ctl.synced = true ∧
      s.conn.edge ≤ s'.conn.edge := by
  induction hrun with
  | nil => exact ⟨hr, hs, le_refl _⟩
  | cons hok hstep _ ih =>
    have hstep' := promiseStep_reach hr hok hstep
    obtain ⟨h1, h2, h3⟩ := ih (hr.next hok hstep) (hstep'.synced hs)
    exact ⟨h1, h2, (hstep'.advances hs).edge.trans h3⟩

/-- The byte at index `i` of a payload at `seq`, if it lies less than `2 ^ 31` past `rcv.nxt`, is after
    `handleData` in `readBuf` or in the out-of-order list; where one had been filed before, it may be
    that one. -/
def ByteKept (c : TCPConn) (seq : UInt32) (data : List UInt8) (i : ℕ) : Prop :=
  ∃ b, Known c.rx.rcv.ooo seq data (seq + UInt32.ofNat i) b ∧
    ((c.handleData seq data).rx.delivered[c.rx.delivered.length +
        (seq + UInt32.ofNat i - c.rx.rcv.nxt).toNat]? = some b ∨
      ∃ e ∈ (c.handleData seq data).rx.rcv.ooo, e.Holds (seq + UInt32.ofNat i) b)

theorem byteKept {c : TCPConn} (ho : Open c.origin (fun _ _ => True) c (c.position + 2 ^ 31))
    (hshut : c.app.readShutdown = false) (hcap : c.rx.readBuf.cap < 2 ^ 31) {seq : UInt32}
    {data : List UInt8} (hlen : data.length < 2 ^ 16) {i : ℕ} (hi : i < data.length)
    (hin : c.position + (seq + UInt32.ofNat i - c.rx.rcv.nxt).toNat < c.edge) :
    ByteKept c seq data i := by
  have hfree := c.rx.readBuf.len_add_free
  rw [edge] at hin
  -- the offset of the payload, counted from half the sequence space before the stream
  have hx : seq + UInt32.ofNat i = seqAt c.origin
      (c.position + 2 ^ 31 + (seq + UInt32.ofNat i - c.rx.rcv.nxt).toNat) := by
    rw [ho.nxt]
    exact seqAt_of_sub _ _ _
  have hseq : seq = seqAt c.origin
      (c.position + 2 ^ 31 + (seq + UInt32.ofNat i - c.rx.rcv.nxt).toNat - i) := by
    rw [← UInt32.add_left_inj (UInt32.ofNat i), ← seqAt_add, Nat.sub_add_cancel (by omega)]
    exact hx
  have hkeeps := handleData_keeps ho hshut (by omega) hlen
    (o := c.position + 2 ^ 31 + (seq + UInt32.ofNat i - c.rx.rcv.nxt).toNat - i) (by omega) (by omega)
    hi (by omega) (by omega)
  rw [Nat.sub_add_cancel (by omega), ← hx, ← hseq, Nat.add_sub_cancel_left] at hkeeps
  exact hkeeps

/-- SAFE, without `CloseRead` and with a `readBuf` below `2 ^ 31` bytes: `rcv.nxt` counts what was
    received, the right edge of the free space never moves back, every acknowledgment sent since the
    handshake promises no more than it, in that state and in all later ones, and `handleData` keeps every
    byte below what was ever promised. -/
theorem window_promises_kept {s s₁ : Sys} {e : Event} (hr : Reach Sys.Init Sys.step WindowKept s)
    (hok : WindowKept s e) (hstep : s.step e = some s₁) (hs₁ : s₁.conn.ctl.synced = true) :
    s₁.conn.rx.rcv.nxt = seqAt s₁.conn.base s₁.conn.position ∧
    (s.conn.ctl.synced = true → s.conn.edge ≤ s₁.conn.edge) ∧
    ∀ p ∈ s₁.conn.wire.out.drop s.conn.wire.out.length, p.flags.has tcpFlagACK = true →
      ∃ a, s.conn.position ≤ a ∧ a ≤ s₁.conn.position ∧ p.ack = seqAt s.conn.base a ∧
        ∀ es s₂, Run Sys.step WindowKept s₁ es s₂ →
          a + s.conn.reach p.wnd ≤ s₂.conn.edge ∧
          (s₂.conn.rx.readBuf.cap < 2 ^ 31 →
            s₂.conn.ctl.state = .established ∨ s₂.conn.rx.readBuf.closed = false →
            ∀ c : TCPConn, c.rx = s₂.conn.rx → c.env = s₂.conn.env → c.app = s₂.conn.app →
              ∀ (seq : UInt32) (data : List UInt8) (i : ℕ), data.length < 2 ^ 16 → i < data.length →
                s₂.conn.position + (seq + UInt32.ofNat i - s₂.conn.rx.rcv.nxt).toNat
                  < a + s.conn.reach p.wnd → ByteKept c seq data i) := by
  have hstep' := promiseStep_reach hr hok hstep
  have hr₁ := hr.next hok hstep
  refine ⟨hstep'.promising.nxt hs₁, fun hs => (hstep'.advances hs).edge, fun p hp hack => ?_⟩
  obtain ⟨a, hle, hge, hnum, hedge⟩ : ∃ a, s.conn.position ≤ a ∧ a ≤ s₁.conn.position ∧
      p.ack = seqAt s.conn.base a ∧ a + s.conn.reach p.wnd ≤ s₁.conn.edge := by
    by_cases hs : s.conn.ctl.synced = true
    · exact (hstep'.advances hs).ack ((promising_windowKept hr).nxt hs) hp hack
    · obtain ⟨c₀, ho, hadv⟩ := hstep'.opens (by simpa using hs) hs₁
      rw [← ho.out] at hp
      have hp₀ := hadv.ack (ho.receiving.nxt ho.synced) hp hack
      rwa [base, reach, ho.env, ho.position] at hp₀
  refine ⟨a, hle, hge, hnum, fun es s₂ hrun => ?_⟩
  obtain ⟨hr₂, hs₂, hedge₂⟩ := edge_le_of_run hrun hr₁ hs₁
  refine ⟨hedge.trans hedge₂, fun hcap hopen c hrx henv happ seq data i hlen hi hin => ?_⟩
  have h₂ := promising_windowKept hr₂
  have hopen₂ : s₂.conn.rx.readBuf.closed = false := hopen.elim h₂.isOpen id
  have ho := (h₂.live hs₂).resolve_left (by rw [hopen₂]; simp)
  refine byteKept ?_ (by rw [happ]; exact h₂.shut) (by rw [hrx]; exact hcap) hlen hi ?_
  · rw [origin, base, position, hrx, henv]
    exact ⟨by rw [hrx]; exact ho.nxt, by rw [hrx]; exact ho.closed, by rw [hrx]; exact ho.ooo⟩
  · rw [edge, position, hrx]
    exact hin.trans_le (hedge.trans hedge₂)

/-- The ACK of the first byte promises room for seven more; a byte that then comes in at the third of
    these places is kept. -/
theorem window_promises_kept_ahead : ∃ (s s₁ : Sys) (p : OutSegment),
    Reach Sys.Init Sys.step WindowKept s ∧ s.step .delayedACKTimer = some s₁ ∧
    p ∈ s₁.conn.wire.out.drop s.conn.wire.out.length ∧ p.ack = seqAt s.conn.base 1 ∧
    s.conn.reach p.wnd = 7 ∧ 1 + s.conn.reach p.wnd ≤ s₁.conn.edge ∧
    ByteKept s₁.conn 104 [9] 0 := by
  obtain ⟨s, s₁, hr, hcap, hstep, hs, hest, hcap₁, hpos, hpos₁, hin, hout, hall⟩ :=
    Sys.exists_step Sys.init_sample
      (fun s e => decide (e ≠ .closeRead ∧ s.conn.rx.readBuf.cap < 2 ^ 31))
      (fun s s₁ => s₁.conn.ctl.synced = true ∧ s₁.conn.ctl.state = .established ∧
        s₁.conn.rx.readBuf.cap < 2 ^ 31 ∧ s.conn.position = 1 ∧ s₁.conn.position = 1 ∧
        s₁.conn.position + (104 + UInt32.ofNat 0 - s₁.conn.rx.rcv.nxt).toNat < 8 ∧
        s₁.conn.wire.out.drop s.conn.wire.out.length ≠ [] ∧
        ∀ p ∈ s₁.conn.wire.out.drop s.conn.wire.out.length,
          p.flags.has tcpFlagACK = true ∧ s.conn.reach p.wnd = 7)
      [Sys.sampleACK, .inbound (Sys.sampleSegment tcpFlagACK 101 201 1000 [7])] .delayedACKTimer
      (by decide +kernel)
  have hr' : Reach Sys.Init Sys.step WindowKept s := hr.mono fun _ _ h => of_decide_eq_true h
  obtain ⟨p, hp⟩ := List.exists_mem_of_ne_nil _ hout
  obtain ⟨hack, hreach⟩ := hall p hp
  have hok : Event.delayedACKTimer ≠ .closeRead ∧ s.conn.rx.readBuf.cap < 2 ^ 31 :=
    of_decide_eq_true hcap
  obtain ⟨-, -, hkept⟩ := window_promises_kept hr' hok hstep hs
  obtain ⟨a, hle, hge, hnum, hlater⟩ := hkept p hp hack
  obtain rfl : a = 1 := by omega
  obtain ⟨hedge, hbytes⟩ := hlater [] s₁ (.nil s₁)
  refine ⟨s, s₁, p, hr', hstep, hp, hnum, hreach, hedge, ?_⟩
  exact hbytes hcap₁ (.inl hest) s₁.conn rfl rfl rfl 104 [9] 0 (by decide) (by decide)
    (by rw [hreach]; exact hin)

end Netstack.Tcp
