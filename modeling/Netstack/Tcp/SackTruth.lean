import Netstack.Tcp.Reassembly
import Netstack.Tcp.SackReport

/-! That `sackBlocks` only reports what the receiver has (`rcv.go`).

    A regular block is the range of an entry. A DSACK block was recorded when a duplicate came in, and
    is reported later: the bytes it names were delivered or filed then, and from then on a byte is only
    moved from the list into `readBuf`. So what was once received stays received, and the block is still
    true when it is sent. -/

namespace Netstack.Tcp
open Netstack.Header Netstack.Serial Netstack.Copy Netstack.Trace

namespace TCPConn

/-! ### What the receiver has -/

/-- The receiver, which stands at offset `p`, has delivered or filed the byte at offset `n`. -/
def Seen (base : UInt32) (c : TCPConn) (p n : ℕ) : Prop :=
  n < p ∨ n < p + 2 ^ 31 ∧ ∃ e ∈ c.rx.rcv.ooo, e.Covers (seqAt base n)

/-- The block names a run of bytes that the receiver has. -/
def Vouched (base : UInt32) (c : TCPConn) (p : ℕ) (b : SACKBlock) : Prop :=
  ∃ o len, 0 < len ∧ len < 2 ^ 31 ∧ b.start = seqAt base o ∧ b.stop = seqAt base (o + len) ∧
    ∀ n, o ≤ n → n < o + len → Seen base c p n

/-- So is the DSACK block, if one is pending. -/
def DsackVouched (base : UInt32) (c : TCPConn) (p : ℕ) : Prop :=
  c.rx.rcv.hasDSACKBlock = true → Vouched base c p c.rx.rcv.dsackBlock

section
variable {base : UInt32} {c c' : TCPConn} {p p' o : ℕ} {data : List UInt8}

theorem Vouched.mono {b : SACKBlock} (h : Vouched base c p b)
    (hseen : ∀ n, Seen base c p n → Seen base c' p' n) : Vouched base c' p' b := by
  obtain ⟨o, len, hpos, hlen, hstart, hstop, hall⟩ := h
  exact ⟨o, len, hpos, hlen, hstart, hstop, fun n h1 h2 => hseen n (hall n h1 h2)⟩

theorem DsackVouched.mono (h : DsackVouched base c p)
    (hdsack : c'.rx.rcv.hasDSACKBlock = true →
      c.rx.rcv.hasDSACKBlock = true ∧ c'.rx.rcv.dsackBlock = c.rx.rcv.dsackBlock)
    (hseen : ∀ n, Seen base c p n → Seen base c' p' n) : DsackVouched base c' p' := by
  intro hd
  obtain ⟨hd', hb⟩ := hdsack hd
  rw [hb]
  exact (h hd').mono hseen

/-- A byte of an entry, by its offset. -/
theorem Open.offset_of_covers (h : Open base (fun _ _ => True) c p) (hfree : c.rx.readBuf.free < 2 ^ 31)
    {e : OOOSegment} (he : e ∈ c.rx.rcv.ooo) {n : ℕ} (hpn : p ≤ n) (hn : n < p + 2 ^ 31)
    (hcov : e.Covers (seqAt base n)) :
    ∃ x, p < x ∧ x ≤ n ∧ n < x + e.data.length ∧ x + e.data.length ≤ p + c.rx.readBuf.free ∧
      e.seq = seqAt base x := by
  obtain ⟨x, h1, h2, h3, h4, -⟩ := h.ooo.entry he
  obtain ⟨m, hm, hm', heq⟩ := (covers_iff_offset h4 (by omega)).1 hcov
  obtain rfl : n = m := (seqAt_inj base (by omega) (by omega)).1 heq
  exact ⟨x, h1, hm, hm', h3, h4⟩

theorem Seen.insertOOO (h : Open base (fun _ _ => True) c p) (hfree : c.rx.readBuf.free < 2 ^ 31)
    (hfits : Fits (fun _ _ => True) (p + 2 ^ 31) (p + c.rx.readBuf.free) p o data) {n : ℕ}
    (hn : Seen base c p n) :
    Seen base { c with rx.rcv := c.rx.rcv.insertOOO (seqAt base o) data } p n := by
  refine hn.imp id (And.imp_right fun hcov => ?_)
  cases hdup : covered c.rx.rcv.ooo (seqAt base o) (seqAt base (o + data.length)) with
  | true =>
    rw [Receiver.insertOOO, ← seqAt_add, hdup]
    exact hcov
  | false =>
    obtain ⟨hF', hfiles⟩ := insertOOO_spec sliceable_true hfits h.ooo hdup
    have hshort := hfits.short
    refine (hfiles.covers h.ooo hF' (by omega) (by omega)).2 ?_
    obtain ⟨e, he, hcov⟩ := hcov
    exact ⟨e, List.mem_cons_of_mem _ he, hcov⟩

/-! ### One payload -/

/-- What `handleData` does with a payload that starts less than `2 ^ 31` ahead of `rcv.nxt`, or up to
    that much before it. -/
theorem handleData_cases (h : Open base (fun _ _ => True) c p) (hshut : c.app.readShutdown = false)
    (hfree : c.rx.readBuf.free < 2 ^ 31) (hlen : data.length < 2 ^ 16) (hop : o < p + 2 ^ 31)
    (hpo : p ≤ o + 2 ^ 31) :
    c.handleData (seqAt base o) data = c ∨
    (data ≠ [] ∧ o + data.length ≤ p ∧ c.handleData (seqAt base o) data
      = { c with rx.rcv := c.rx.rcv.noteDuplicate (seqAt base o) (seqAt base (o + data.length)) }) ∨
    (∃ kept, Fits (fun _ _ => True) (p + 2 ^ 31) (p + c.rx.readBuf.free) p o kept ∧
      c.handleData (seqAt base o) data
        = { c with rx.rcv := c.rx.rcv.insertOOO (seqAt base o) kept }) ∨
    ∃ kept, kept ≠ [] ∧ kept.length ≤ c.rx.readBuf.free ∧
      c.handleData (seqAt base o) data = (c.deliver kept).deliverOOO := by
  by_cases hnil : data = []
  · exact .inl (by rw [hnil]; rfl)
  rw [handleData_offsets h.nxt hnil (by omega) hop.le hpo]
  split
  · rename_i hin
    have hpos := List.length_pos_iff.2 hnil
    have hdrop : (data.drop (p - o)).length = data.length - (p - o) := List.length_drop
    have hleft : data.drop (p - o) ≠ [] := List.ne_nil_of_length_pos (by omega)
    rcases windowData_cases sliceable_true h (by omega) hshut hleft (by omega) (le_max_right o p)
      (by omega) trivial with
      ⟨-, he⟩ | ⟨kept, hkept, hne, ⟨hfits, he⟩ | ⟨heq, -, he⟩⟩
    · exact .inl he
    · have hmax : max o p = o := max_eq_left (by have := hfits.above; omega)
      rw [hmax] at hfits he
      rw [hmax]
      exact .inr (.inr (.inl ⟨kept, hfits, he⟩))
    · refine .inr (.inr (.inr ⟨kept, hne, ?_, he⟩))
      rw [hkept, List.length_take]
      omega
  · exact .inr (.inl ⟨hnil, by omega, rfl⟩)

theorem deliver_dsack (c : TCPConn) (data : List UInt8) :
    (c.deliver data).rx.rcv.hasDSACKBlock = c.rx.rcv.hasDSACKBlock ∧
      (c.deliver data).rx.rcv.dsackBlock = c.rx.rcv.dsackBlock := by
  obtain ⟨k, t, h⟩ := c.deliver_rx data
  rw [h]
  exact ⟨rfl, rfl⟩

theorem drainOOO_dsack : ∀ (l : List OOOSegment) (c : TCPConn),
    (drainOOO l c).rx.rcv.hasDSACKBlock = c.rx.rcv.hasDSACKBlock ∧
      (drainOOO l c).rx.rcv.dsackBlock = c.rx.rcv.dsackBlock
  | [], _ => ⟨rfl, rfl⟩
  | seg :: rest, c => by
      rw [drainOOO]
      split
      · exact ⟨rfl, rfl⟩
      · dsimp only
        split_ifs
        · exact drainOOO_dsack rest c
        · exact deliver_dsack c _
        · obtain ⟨h1, h2⟩ := drainOOO_dsack rest (c.deliver (seg.data.drop (c.rx.rcv.nxt - seg.seq).toNat))
          obtain ⟨h3, h4⟩ := c.deliver_dsack (seg.data.drop (c.rx.rcv.nxt - seg.seq).toNat)
          exact ⟨h1.trans h3, h2.trans h4⟩

/-- Data in order, before a deferred FIN is looked at: what was filed is filed still, or delivered. -/
theorem inOrder_seen (h : Open base (fun _ _ => True) c p) (hfree : c.rx.readBuf.free < 2 ^ 31)
    (hne : data ≠ []) (hfit : data.length ≤ c.rx.readBuf.free) :
    ∃ c₁ p', (c.deliver data).deliverOOO = c₁.deferredFIN ∧
      c₁.rx.delivered.length + p = c.rx.delivered.length + p' ∧ c₁.rx.finAt = c.rx.finAt ∧
      c₁.rx.rcv.hasDSACKBlock = c.rx.rcv.hasDSACKBlock ∧ c₁.rx.rcv.dsackBlock = c.rx.rcv.dsackBlock ∧
      Open base (fun _ _ => True) c₁ p' ∧ ∀ n, Seen base c p n → Seen base c₁ p' n := by
  obtain ⟨hrec, hooo⟩ := deliver_received h.nxt hne
  have hall : c.deliverable data = data.length := by
    rw [deliverable_eq, h.closed, if_neg (by simp)]; omega
  rw [hall, List.take_length] at hrec
  have hedge := hrec.edge
  obtain ⟨run, hrec', -, hF, hleft⟩ := drainOOO_drains sliceable_true c.rx.rcv.ooo (c.deliver data)
    h.ooo hrec.nxt (hrec.closed.trans h.closed) (Nat.le_add_right _ _) (by omega) (by omega) (by omega)
    (by omega)
  have htotal := hrec.trans hrec'
  have hedge' := htotal.edge
  obtain ⟨hd1, hd2⟩ := drainOOO_dsack c.rx.rcv.ooo (c.deliver data)
  obtain ⟨hd3, hd4⟩ := c.deliver_dsack data
  refine ⟨drainOOO c.rx.rcv.ooo (c.deliver data), p + data.length + run.length,
    by rw [deliverOOO, hooo], ?_, htotal.finAt, hd1.trans hd3, hd2.trans hd4, ⟨?_, ?_, ?_⟩, ?_⟩
  · rw [htotal.delivered, List.length_append, List.length_append]
    omega
  · rw [htotal.nxt, List.length_append, Nat.add_assoc]
  · exact htotal.closed.trans h.closed
  · rw [List.length_append] at hedge'
    exact hF.mono (by omega) (by omega) (le_refl _)
  · rintro n (hlt | ⟨hlt, e, he, hcov⟩)
    · exact .inl (by omega)
    rcases Nat.lt_or_ge n p with hpn | hpn
    · exact .inl (by omega)
    obtain ⟨x, h1, h2, h3, h4, h5⟩ := h.offset_of_covers hfree he hpn hlt hcov
    rcases hleft e he with hmem | ⟨y, hy, hy', hseq, hend⟩
    · exact .inr ⟨by omega, e, hmem, hcov⟩
    · obtain rfl : y = x := (seqAt_inj base (by omega) (by omega)).1 (hseq.symm.trans h5)
      exact .inl (by omega)

/-- Every byte that `insertOOO` finds filed, or files, is filed. -/
theorem DsackVouched.insertOOO (hd : DsackVouched base c p) (h : Open base (fun _ _ => True) c p)
    (hfree : c.rx.readBuf.free < 2 ^ 31)
    (hfits : Fits (fun _ _ => True) (p + 2 ^ 31) (p + c.rx.readBuf.free) p o data) :
    DsackVouched base { c with rx.rcv := c.rx.rcv.insertOOO (seqAt base o) data } p := by
  have hin := hfits.inWindow
  have hshort := hfits.short
  cases hdup : covered c.rx.rcv.ooo (seqAt base o) (seqAt base (o + data.length)) with
  | true =>
    have hnote : c.rx.rcv.insertOOO (seqAt base o) data
        = c.rx.rcv.noteDuplicate (seqAt base o) (seqAt base (o + data.length)) := by
      rw [Receiver.insertOOO, ← seqAt_add, if_pos hdup]
    intro _
    refine ⟨o, data.length, hfits.pos, hshort, ?_, ?_, fun n h1 h2 => .inr ⟨by omega, ?_⟩⟩
    · rw [hnote]; rfl
    · rw [hnote]; rfl
    · have hcov := insertOOO_covers sliceable_true hfits h.ooo (by omega)
        (show n - o < data.length by omega)
      rwa [show o + (n - o) = n by omega] at hcov
  | false =>
    refine hd.mono (fun hb => ?_) fun n => Seen.insertOOO h hfree hfits
    have hsame : (c.rx.rcv.insertOOO (seqAt base o) data).hasDSACKBlock = c.rx.rcv.hasDSACKBlock ∧
        (c.rx.rcv.insertOOO (seqAt base o) data).dsackBlock = c.rx.rcv.dsackBlock := by
      rw [Receiver.insertOOO, ← seqAt_add, if_neg (by simp [hdup])]
      exact ⟨rfl, rfl⟩
    exact ⟨hsame.1.symm.trans hb, hsame.2⟩

/-- CORRECT: a payload leaves a receiver that is in order, with a DSACK block that is vouched for, if
    one is pending; then a deferred FIN may be found due. -/
theorem handleData_vouched (h : Open base (fun _ _ => True) c p) (hd : DsackVouched base c p)
    (hshut : c.app.readShutdown = false) (hfree : c.rx.readBuf.free < 2 ^ 31)
    (hlen : data.length < 2 ^ 16) (hop : o < p + 2 ^ 31) (hpo : p ≤ o + 2 ^ 31) :
    ∃ c₁ p', (c.handleData (seqAt base o) data = c₁ ∨
        c.handleData (seqAt base o) data = c₁.deferredFIN) ∧
      c₁.rx.delivered.length + p = c.rx.delivered.length + p' ∧ c₁.rx.finAt = c.rx.finAt ∧
      Open base (fun _ _ => True) c₁ p' ∧ DsackVouched base c₁ p' := by
  rcases handleData_cases h hshut hfree hlen hop hpo with
    he | ⟨hne, hold, he⟩ | ⟨kept, hfits, he⟩ | ⟨kept, hne, hfit, he⟩
  · exact ⟨c, p, .inl he, rfl, rfl, h, hd⟩
  · refine ⟨_, p, .inl he, rfl, rfl, ⟨h.nxt, h.closed, h.ooo⟩, fun _ => ?_⟩
    exact ⟨o, data.length, List.length_pos_iff.2 hne, by omega, rfl, rfl, fun n h1 h2 => .inl (by omega)⟩
  · refine ⟨_, p, .inl he, rfl, rfl, ⟨?_, h.closed, ?_⟩, hd.insertOOO h hfree hfits⟩
    · exact (insertOOO_nxt _ _ _).1.trans h.nxt
    · exact insertOOO_filed sliceable_true hfits h.ooo
  · obtain ⟨c₁, p', hfin, hpos, hfinAt, hb1, hb2, hopen, hseen⟩ := inOrder_seen h hfree hne hfit
    exact ⟨c₁, p', .inr (he.trans hfin), hpos, hfinAt, hopen,
      hd.mono (fun hb => ⟨hb1.symm.trans hb, hb2⟩) hseen⟩

/-- A deferred FIN that is found due is counted, and the connection leaves ESTABLISHED. -/
theorem deferredFIN_due (c : TCPConn) : c.deferredFIN = c ∨
    c.deferredFIN.ctl.state = .closeWait ∧ c.deferredFIN.rx.finAt ≠ c.rx.finAt := by
  rw [deferredFIN]
  split
  · refine .inr ⟨rfl, fun he => ?_⟩
    have hlen : c.clearFIN.processFIN.rx.finAt.length = c.rx.finAt.length + 1 := by
      show (c.rx.finAt ++ [_]).length = _
      rw [List.length_append, List.length_singleton]
    rw [he] at hlen
    omega
  · exact .inl rfl

/-- As long as no FIN is counted, `rcv.nxt` stands where the bytes delivered end. -/
theorem handleData_open (h : Open base (fun _ _ => True) c p) (hd : DsackVouched base c p)
    (hshut : c.app.readShutdown = false) (hfree : c.rx.readBuf.free < 2 ^ 31)
    (hlen : data.length < 2 ^ 16) (hop : o < p + 2 ^ 31) (hpo : p ≤ o + 2 ^ 31)
    (hno : (c.handleData (seqAt base o) data).ctl.state ≠ .closeWait ∨
      (c.handleData (seqAt base o) data).rx.finAt = c.rx.finAt) :
    ∃ p', (c.handleData (seqAt base o) data).rx.delivered.length + p = c.rx.delivered.length + p' ∧
      (c.handleData (seqAt base o) data).rx.finAt = c.rx.finAt ∧
      Open base (fun _ _ => True) (c.handleData (seqAt base o) data) p' ∧
      DsackVouched base (c.handleData (seqAt base o) data) p' := by
  obtain ⟨c₁, p', hcases, hpos, hfinAt, hopen, hdsack⟩ :=
    handleData_vouched h hd hshut hfree hlen hop hpo
  have heq : c.handleData (seqAt base o) data = c₁ := by
    refine hcases.elim id fun he => he.trans ?_
    rcases c₁.deferredFIN_due with hsame | ⟨hst, hfin⟩
    · exact hsame
    · rw [he, ← hfinAt] at hno
      exact hno.elim (absurd hst) (fun h => absurd h hfin)
  rw [heq]
  exact ⟨p', hpos, hfinAt, hopen, hdsack⟩

end

/-! ### Where a pending DSACK block goes -/

/-- Nothing of the receive side changes, but an ACK may have taken the DSACK block. -/
def Clears (c c' : TCPConn) : Prop :=
  c'.rx = c.rx ∨ c'.rx = { c.rx with rcv := c.rx.rcv.clearDSACK }

namespace Clears

variable {c c' c'' : TCPConn}

theorem refl (c : TCPConn) : Clears c c := .inl rfl

theorem of_txOnly (t : TxOnly c c') : Clears c c' := .inl t.rx

theorem trans (h : Clears c c') (h' : Clears c' c'') : Clears c c'' := by
  rcases h with h | h <;> rcases h' with h' | h'
  · exact .inl (h'.trans h)
  · exact .inr (by rw [h', h])
  · exact .inr (h'.trans h)
  · exact .inr (by rw [h', h]; rfl)

theorem sendACK (c : TCPConn) : Clears c c.sendACK := by
  simp only [Clears, TCPConn.sendACK]
  split
  · exact .inr rfl
  · exact .inl rfl

theorem closeDone (c : TCPConn) : Clears c c.closeDone := by
  rw [TCPConn.closeDone]
  split <;> exact .inl rfl

theorem handleRSTSegment (c : TCPConn) (seg : Segment) : Clears c (c.handleRSTSegment seg) := by
  rw [TCPConn.handleRSTSegment]
  split_ifs
  · exact refl c
  · exact closeDone (c.setState .closed)
  · exact sendACK c
  · exact refl c

theorem scheduleACK (c : TCPConn) (seg : Segment) : Clears c (c.scheduleACK seg) := by
  rw [TCPConn.scheduleACK]
  split_ifs
  · exact refl c
  · exact sendACK c.countSegment.cancelDelayedACK
  · exact sendACK c.countSegment.cancelDelayedACK
  · exact .inl rfl

theorem finalizeFIN (c : TCPConn) : Clears c c.finalizeFIN := by
  rw [TCPConn.finalizeFIN.eq_def]
  split
  · exact .inl (TxOnly.sendFIN c.clearPending).rx
  · exact .inl (TxOnly.sendFIN c.clearPending).rx
  · exact .inl rfl

theorem finIfDrained (c : TCPConn) : Clears c c.finIfDrained := by
  rw [TCPConn.finIfDrained]
  split
  · exact finalizeFIN c
  · exact refl c

theorem drainForFIN (c : TCPConn) : Clears c c.drainForFIN := by
  rw [TCPConn.drainForFIN]
  split
  · exact (of_txOnly (.sendPending c)).trans (finIfDrained _)
  · exact refl c

theorem armRTO (c : TCPConn) : Clears c c.armRTO := by
  rw [TCPConn.armRTO]
  split <;> exact .inl rfl

theorem manageRTO (c : TCPConn) : Clears c c.manageRTO := by
  rw [TCPConn.manageRTO]
  split_ifs
  · exact refl c
  · exact armRTO c
  · exact .inl rfl

/-- The end of an iteration that took a segment. -/
theorem settle (c : TCPConn) (seg : Segment) : Clears (c.handleSegment seg) (c.onInbound seg) :=
  (manageRTO _).trans (drainForFIN _)

theorem handleRTO (c : TCPConn) : Clears c c.handleRTO := by
  have habort : Clears c c.countRetry.abort := by
    rw [TCPConn.abort]
    split
    · exact closeDone (c.countRetry.sendRSTSegment _)
    · exact closeDone c.countRetry
  rw [TCPConn.handleRTO]
  split_ifs
  · exact refl c
  · exact of_txOnly (.backOff c)
  · exact habort
  · exact of_txOnly ((TxOnly.countRetry c).trans (.backOff _))

theorem onRTO (c : TCPConn) : Clears c c.onRTO := by
  rw [TCPConn.onRTO]
  split
  · rw [rearmRTO]
    split
    · exact (handleRTO c.stopRTO).trans (armRTO _)
    · exact handleRTO c.stopRTO
  · exact .inl rfl

theorem onZeroWindow (c : TCPConn) : Clears c c.onZeroWindow := by
  rw [TCPConn.onZeroWindow]
  split
  · exact .inl (TxOnly.sendZeroWindowProbe c.stopZeroWindow).rx
  · exact .inl rfl

theorem exitRun (c : TCPConn) : Clears c c.exitRun := closeDone c

theorem onKeepalive (c : TCPConn) : Clears c c.onKeepalive := by
  rw [TCPConn.onKeepalive]
  split_ifs
  · exact .inl rfl
  · exact exitRun ((c.keepaliveFired _).sendRSTSegment _)
  · exact .inl rfl
  · exact .inl rfl

theorem onWriteNotifySend (c : TCPConn) : Clears c c.onWriteNotifySend := by
  have hsend := (((TxOnly.sendPending { c with app.writeNotify := false }).trans
    (.resetKeepalive _)).trans (.checkZeroWindow _)).rx
  refine Clears.trans (.inl hsend) ((Clears.trans (.inl ?_) (armRTO _)))
  rw [piggyback]
  split <;> rfl

theorem onWriteNotify (c : TCPConn) : Clears c c.onWriteNotify := by
  rw [TCPConn.onWriteNotify]
  split_ifs
  · exact (onWriteNotifySend c).trans (finIfDrained _)
  · exact onWriteNotifySend c
  · exact .inl rfl

theorem onWindowNotify (c : TCPConn) : Clears c c.onWindowNotify := by
  rw [TCPConn.onWindowNotify]
  split
  · exact sendACK { c with app.windowNotify := false, wire.lastWndZero := false }
  · exact .inl rfl

theorem onClose (c : TCPConn) : Clears c c.onClose := by
  have hclose : ∀ d : TCPConn, Clears d d.handleClose := by
    intro d
    rw [handleClose.eq_def]
    split
    iterate 2
      rw [finOrDefer]
      split
      · exact .inl (TxOnly.flush d).rx
      · exact (of_txOnly (.flush d)).trans (finalizeFIN _)
    exact refl d
  rw [TCPConn.onClose]
  split
  · exact (hclose { c with app.closeCh := false }).trans (armRTO _)
  · exact hclose { c with app.closeCh := false }

end Clears
end TCPConn

/-- The events that leave the receive side alone clear at most the DSACK block. -/
theorem Sys.Step.clears {s s' : Sys} {e : Event} (h : Sys.Step s e s') (he : Sys.quiet e = true) :
    TCPConn.Clears s.conn s'.conn := by
  cases h
  case inbound | forceCloseCh | readCall | closeRead => cases he
  case rtoTimer => exact .onRTO _
  case delayedACKTimer => exact .sendACK s.conn.cancelDelayedACK
  case zeroWindowTimer => exact .onZeroWindow _
  case keepaliveTimer => exact .onKeepalive _
  case writeNotify => exact .onWriteNotify _
  case windowNotify => exact .onWindowNotify _
  case closeCh => exact .onClose _
  case synRcvdTimer =>
    rw [TCPConn.onSynRcvdTimer]
    split
    · exact .exitRun { s.conn with timers.synRcvdTimer := Timer.stopped }
    · exact .inl rfl
  case finWait2Timer =>
    rw [TCPConn.onFinWait2Timer]
    split
    · exact .exitRun { s.conn with timers.finWait2Timer := Timer.stopped }
    · exact .inl rfl
  case timeWaitTimer | done => exact .exitRun _
  case writeCall =>
    refine .inl ?_
    show s.conn.growWriteBuf.rx = s.conn.rx
    rw [TCPConn.growWriteBuf]
    split <;> rfl
  case closeWrite =>
    refine .inl ?_
    show s.conn.closeWrite.rx = s.conn.rx
    rw [TCPConn.closeWrite]
    split <;> rfl
  all_goals exact .inl rfl

namespace TCPConn

section
variable {c c' : TCPConn}

theorem DsackVouched.clears {base : UInt32} {p : ℕ} (hd : DsackVouched base c p) (h : Clears c c') :
    DsackVouched base c' p := by
  rcases h with hrx | hrx
  · refine hd.mono (fun hb => ⟨by rwa [hrx] at hb, by rw [hrx]⟩) fun n hn => ?_
    rw [Seen, hrx]
    exact hn
  · intro hb
    rw [hrx] at hb
    cases hb

/-- The payload of a segment starts at or after the first byte of the stream, less than `2 ^ 31` after
    `rcv.nxt` and at most that much before it. -/
def StartsNear (c : TCPConn) (seg : Segment) : Prop :=
  ∃ o, seg.seq = seqAt c.base o ∧ o < c.position + 2 ^ 31 ∧ c.position ≤ o + 2 ^ 31

/-- The receiver is in order and vouches for its DSACK block. -/
structure Candid (c : TCPConn) : Prop where
  inOrder : Open c.base (fun _ _ => True) c c.position
  dsack : DsackVouched c.base c c.position

theorem Candid.of_rx (h : Candid c) (hrx : c'.rx = c.rx) (henv : c'.env = c.env) : Candid c' := by
  have hbase : c'.base = c.base := by rw [base, base, henv]
  have hpos : c'.position = c.position := by rw [position, position, hrx]
  refine ⟨?_, ?_⟩
  · rw [hbase, hpos]
    exact ⟨by rw [hrx]; exact h.inOrder.nxt, by rw [hrx]; exact h.inOrder.closed,
      by rw [hrx]; exact h.inOrder.ooo⟩
  · rw [hbase, hpos]
    exact h.dsack.clears (.inl hrx)

theorem Candid.quiet (h : Candid c) (q : Quiet c c') (hc : Clears c c') : Candid c' := by
  have hbase : c'.base = c.base := by rw [base, base, q.env]
  refine ⟨?_, ?_⟩
  · rw [hbase, q.position]
    exact ⟨q.nxt.trans h.inOrder.nxt, q.readBuf ▸ h.inOrder.closed,
      by rw [q.readBuf, q.ooo]; exact h.inOrder.ooo⟩
  · rw [hbase, q.position]
    exact h.dsack.clears hc

theorem Candid.handleData (h : Candid c) (hshut : c.app.readShutdown = false)
    (hcap : c.rx.readBuf.cap < 2 ^ 31) {seg : Segment} (hnear : seg.payload ≠ [] → c.StartsNear seg)
    (hno : (c.handleData seg.seq seg.payload).ctl.state ≠ .closeWait ∨
      (c.handleData seg.seq seg.payload).rx.finAt = c.rx.finAt) :
    Candid (c.handleData seg.seq seg.payload) := by
  by_cases hnil : seg.payload = []
  · rw [hnil]
    exact h
  have hfree := c.rx.readBuf.len_add_free
  obtain ⟨o, hseq, hop, hpo⟩ := hnear hnil
  rw [hseq] at hno ⊢
  obtain ⟨p', hpos, hfinAt, hopen, hdsack⟩ :=
    handleData_open h.inOrder h.dsack hshut (by omega) seg.payload_lt hop hpo hno
  have henv := (RxOnly.handleData c (seqAt c.base o) seg.payload).env
  have hp : (c.handleData (seqAt c.base o) seg.payload).position = p' := by
    rw [position, hfinAt]
    rw [position] at hpos
    omega
  have hbase : (c.handleData (seqAt c.base o) seg.payload).base = c.base :=
    congrArg (fun v : Env => v.irs + 1) henv
  exact ⟨by rw [hbase, hp]; exact hopen, by rw [hbase, hp]; exact hdsack⟩

/-! ### One segment -/

/-- In ESTABLISHED, as long as the connection stays there. -/
theorem Candid.handleEstablished (h : Candid c) (hs : c.ctl.synced = true)
    (hshut : c.app.readShutdown = false) (hcap : c.rx.readBuf.cap < 2 ^ 31) {seg : Segment}
    (hnear : seg.payload ≠ [] → c.StartsNear seg)
    (hest : (c.handleEstablished seg).ctl.state = .established) : Candid (c.handleEstablished seg) := by
  have t : TxOnly c (c.resetKeepalive.establishedACK seg) :=
    (TxOnly.resetKeepalive c).trans (.establishedACK _ seg)
  have hacked := h.of_rx t.rx t.env
  have hnear' : seg.payload ≠ [] → (c.resetKeepalive.establishedACK seg).StartsNear seg := by
    rw [StartsNear, base, position, t.env, t.rx]
    exact hnear
  rw [TCPConn.handleEstablished, takePayload, if_pos (by rw [t.ctl]; exact hs)] at hest ⊢
  have hdata := fun hno => hacked.handleData (by rw [t.app]; exact hshut) (by rw [t.rx]; exact hcap)
    hnear' (.inl hno)
  generalize (c.resetKeepalive.establishedACK seg).handleData seg.seq seg.payload = c₁ at hest hdata ⊢
  rw [establishedFIN] at hest ⊢
  split_ifs at hest ⊢
  · cases hest
  · have hst : c₁.ctl.state = .established := (Quiet.scheduleACK (c₁.deferFIN seg.finSeq) seg).established hest
    have h₁ := hdata (by rw [hst]; simp)
    have hdefer : Candid (c₁.deferFIN seg.finSeq) :=
      ⟨⟨h₁.inOrder.nxt, h₁.inOrder.closed, h₁.inOrder.ooo⟩, h₁.dsack⟩
    exact hdefer.quiet (.scheduleACK _ seg) (.scheduleACK _ seg)
  · have hst : c₁.ctl.state = .established := (Quiet.scheduleACK c₁ seg).established hest
    exact (hdata (by rw [hst]; simp)).quiet (.scheduleACK _ seg) (.scheduleACK _ seg)

theorem Candid.onInbound (h : Candid c) (hs : c.ctl.synced = true)
    (hst : c.ctl.state = .established) (hshut : c.app.readShutdown = false)
    (hcap : c.rx.readBuf.cap < 2 ^ 31) {seg : Segment} (hnear : seg.payload ≠ [] → c.StartsNear seg)
    (hest : (c.onInbound seg).ctl.state = .established) : Candid (c.onInbound seg) := by
  have hend : Quiet (c.handleSegment seg) (c.onInbound seg) :=
    (Quiet.manageRTO _).trans (.drainForFIN _)
  refine Candid.quiet ?_ hend (.settle c seg)
  have hest' := hend.established hest
  have t := TxOnly.updateTSRecent c seg
  rw [handleSegment] at hest' ⊢
  split_ifs at hest' ⊢
  · exact h
  · exact h.quiet (.handleRSTSegment c seg) (.handleRSTSegment c seg)
  · exact h.quiet (.sendACK c) (.sendACK c)
  · rw [dispatch, t.ctl, hst] at hest' ⊢
    refine (h.of_rx t.rx t.env).handleEstablished (by rw [t.ctl]; exact hs)
      (by rw [t.app]; exact hshut) (by rw [t.rx]; exact hcap) ?_ hest'
    rw [StartsNear, base, position, t.env, t.rx]
    exact hnear

end
end TCPConn

/-! ### Whole runs -/

open TCPConn

theorem Filed.ne_nil {base : UInt32} {Q : ℕ → List UInt8 → Prop} {top edge : ℕ} {e : OOOSegment} :
    ∀ {l : List OOOSegment} {lo : ℕ}, Filed base Q top edge lo l → e ∈ l → e.data ≠ []
  | e' :: rest, lo, ⟨_, _, _, _, _, h5, _, h7⟩, he => by
      rcases List.mem_cons.1 he with rfl | he
      · exact h5
      · exact h7.ne_nil he

end Netstack.Tcp
