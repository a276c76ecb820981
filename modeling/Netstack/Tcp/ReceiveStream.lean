import Netstack.Tcp.Arrival

/-! The receive stream: what a connection writes into `readBuf` is the peer's stream, in order and
    without a gap.

    The peer's segments are slices of a stream `S`, sent in any order, overlapping and duplicated at
    will. The invariant carries the position of the receiver and the out-of-order list over a whole
    run; `readBuf` must not be larger than a 32-bit window can say, since `rcvWnd` cuts the free
    space to 32 bits. -/

namespace Netstack.Tcp
open Netstack.Header Netstack.Serial Netstack.Copy Netstack.Trace TCPConn

/-- `data` is read off the stream `S` at offset `off`. -/
def Reads (S : List UInt8) (off : ℕ) (data : List UInt8) : Prop := data <+: S.drop off

theorem sliceable_Reads (S : List UInt8) : Sliceable (Reads S) := sliceable_reads S

/-- What has been delivered is the stream so far, and `rcv.nxt` counts it until a FIN is consumed. -/
structure StreamBase (S : List UInt8) (c : TCPConn) : Prop where
  shut : c.app.readShutdown = false
  syn : c.ctl.state = .synRcvd → c.ctl.synced = false
  pre : c.rx.delivered <+: S
  unsynced : c.ctl.synced = false → c.rx.delivered = [] ∧ c.rx.finAt = [] ∧
    (c.ctl.running = true → c.rx.readBuf.closed = false)
  nxt : c.ctl.synced = true → c.rx.finAt = [] → c.rx.rcv.nxt = seqAt c.base c.pos

/-- Besides, either `readBuf` is closed or the out-of-order list is in order. -/
structure StreamInv (S : List UInt8) (c : TCPConn) : Prop extends StreamBase S c where
  live : c.ctl.synced = true → c.rx.readBuf.closed = true ∨
    c.rx.finAt = [] ∧ Open c.base (Reads S) c c.pos

section
variable {S : List UInt8} {c c' : TCPConn}

theorem StreamBase.quiet (h : StreamBase S c) (q : Quiet c c') : StreamBase S c' where
  shut := q.readShutdown.trans h.shut
  syn hs := q.synced.trans (h.syn (q.synRcvd hs))
  pre := q.delivered ▸ h.pre
  unsynced hs := by
    obtain ⟨h1, h2, h3⟩ := h.unsynced (q.synced ▸ hs)
    exact ⟨q.delivered.trans h1, q.finAt.trans h2, fun hr => q.readBuf ▸ h3 (q.running hr)⟩
  nxt hs hf := by
    rw [q.nxt, h.nxt (q.synced ▸ hs) (q.finAt ▸ hf), base, base, pos, pos, q.env, q.delivered]

theorem StreamInv.quiet (h : StreamInv S c) (q : Quiet c c') : StreamInv S c' where
  toStreamBase := h.toStreamBase.quiet q
  live hs := by
    rcases h.live (q.synced ▸ hs) with hc | ⟨hf, ho⟩
    · exact .inl (q.readBuf ▸ hc)
    · refine .inr ⟨q.finAt.trans hf, ?_⟩
      rw [base, pos, q.env, q.delivered]
      exact ⟨q.nxt.trans ho.nxt, q.readBuf ▸ ho.closed, by rw [q.readBuf, q.ooo]; exact ho.ooo⟩

theorem StreamInv.txOnly (h : StreamInv S c) (t : TxOnly c c') : StreamInv S c' :=
  h.quiet (.of_txOnly t)

theorem StreamInv.setState (h : StreamInv S c) {st : TCPState} (hst : st ≠ .synRcvd) :
    StreamInv S (c.setState st) where
  toStreamBase := ⟨h.shut, fun he => absurd he hst, h.pre, h.unsynced, h.nxt⟩
  live hs := (h.live hs).imp id fun ⟨hf, ho⟩ => ⟨hf, ho.nxt, ho.closed, ho.ooo⟩

theorem StreamBase.countFIN (h : StreamBase S c) (hs : c.ctl.synced = true) :
    StreamBase S c.countFIN where
  shut := h.shut
  syn := h.syn
  pre := h.pre
  unsynced hu := by rw [show c.countFIN.ctl = c.ctl from rfl, hs] at hu; cases hu
  nxt _ hf := by simp [TCPConn.countFIN] at hf

/-- Once `readBuf` is closed there is nothing left to say about the out-of-order list. -/
theorem StreamBase.closeReadBuf (h : StreamBase S c) (hs : c.ctl.synced = true) :
    StreamInv S c.closeReadBuf where
  shut := h.shut
  syn := h.syn
  pre := h.pre
  unsynced hu := by rw [show c.closeReadBuf.ctl = c.ctl from rfl, hs] at hu; cases hu
  nxt := h.nxt
  live _ := .inl (by simp [TCPConn.closeReadBuf, h.shut])

theorem StreamBase.processFIN (h : StreamBase S c) (hs : c.ctl.synced = true) :
    StreamInv S c.processFIN := by
  have hb : StreamBase S c.countFIN.cancelDelayedACK.sendACK :=
    ((h.countFIN hs).quiet (.cancelDelayedACK _)).quiet (.sendACK _)
  exact (hb.closeReadBuf hs).setState (by simp)

theorem StreamBase.enterTimeWait (h : StreamBase S c) (hs : c.ctl.synced = true) :
    StreamInv S c.enterTimeWait :=
  ((h.quiet (.setState c (s := .timeWait) (by simp))).closeReadBuf hs).quiet
    (.of_silent rfl rfl rfl rfl rfl rfl)

theorem StreamInv.deferredFIN (h : StreamInv S c) (hs : c.ctl.synced = true) :
    StreamInv S c.deferredFIN := by
  rw [TCPConn.deferredFIN]
  split
  · exact StreamBase.processFIN ⟨h.shut, h.syn, h.pre, h.unsynced, h.nxt⟩ hs
  · exact h

/-- On a closed `readBuf`, `handleData` changes at most the out-of-order list and the DSACK block. -/
theorem handleData_closed (hc : c.rx.readBuf.closed = true) (hshut : c.app.readShutdown = false)
    (seq : UInt32) (data : List UInt8) : ∃ r : Receiver, r.nxt = c.rx.rcv.nxt ∧
      r.finReceived = c.rx.rcv.finReceived ∧ r.finSeq = c.rx.rcv.finSeq ∧
      c.handleData seq data = { c with rx.rcv := r } := by
  have hself : ∃ r : Receiver, r.nxt = c.rx.rcv.nxt ∧ r.finReceived = c.rx.rcv.finReceived ∧
      r.finSeq = c.rx.rcv.finSeq ∧ c = { c with rx.rcv := r } := ⟨c.rx.rcv, rfl, rfl, rfl, rfl⟩
  have hzero : ∀ data, c.deliverable data = 0 := fun data => by rw [deliverable_eq, if_pos hc]
  have hdeliver : ∀ data, c.deliver data = c := by
    intro data
    have hwrite : (c.rx.readBuf.writeNoBlock data).1 = c.rx.readBuf := by
      rw [RingBuffer.writeNoBlock, if_pos hc]
    rw [deliver, if_neg (by rw [hzero]; simp), writeData, hzero, hwrite, List.take_zero,
      List.append_nil, show UInt32.ofNat 0 = 0 from rfl, UInt32.add_zero]
  have haccept : ∀ seq data, ∃ r : Receiver, r.nxt = c.rx.rcv.nxt ∧
      r.finReceived = c.rx.rcv.finReceived ∧ r.finSeq = c.rx.rcv.finSeq ∧
      c.acceptData seq data = { c with rx.rcv := r } := by
    intro seq data
    rw [acceptData, if_neg (by simp [hshut]), hzero, if_neg (Nat.lt_irrefl 0), hdeliver]
    split_ifs
    · exact hself
    · obtain ⟨h1, h2, h3⟩ := insertOOO_nxt c.rx.rcv seq data
      exact ⟨_, h1, h2, h3, rfl⟩
    · exact hself
  have hwindow : ∀ seq data, ∃ r : Receiver, r.nxt = c.rx.rcv.nxt ∧
      r.finReceived = c.rx.rcv.finReceived ∧ r.finSeq = c.rx.rcv.finSeq ∧
      c.windowData seq data = { c with rx.rcv := r } := by
    intro seq data
    rw [windowData]
    split
    · exact hself
    · split
      · exact hself
      · exact haccept _ _
  rw [handleData]
  split_ifs
  · exact hself
  · exact ⟨c.rx.rcv.noteDuplicate seq _, rfl, rfl, rfl, rfl⟩
  · exact hwindow _ _
  · exact hwindow _ _

/-- A segment that carries bytes of the stream `S` from an offset within `2 ^ 31` of the receiver. -/
def Slice (S : List UInt8) (c : TCPConn) (seg : Segment) : Prop :=
  seg.payload = [] ∨ ∃ o, seg.seq = c.env.irs + 1 + UInt32.ofNat o ∧ seg.payload <+: S.drop o ∧
    o ≤ c.pos + 2 ^ 31 ∧ c.pos ≤ o + 2 ^ 31

/-- `c₁` is `c` after bytes have been taken in, before a deferred FIN is considered. Once a FIN has
    been counted the position stays. -/
structure Taken (c c₁ : TCPConn) : Prop where
  same : c₁ = { c with rx := c₁.rx, ticks := c₁.ticks }
  delivered : c.rx.delivered <+: c₁.rx.delivered
  closed : c₁.rx.readBuf.closed = c.rx.readBuf.closed
  finAt : c₁.rx.finAt = c.rx.finAt
  finReceived : c₁.rx.rcv.finReceived = c.rx.rcv.finReceived
  finSeq : c₁.rx.rcv.finSeq = c.rx.rcv.finSeq
  nxt : c.rx.finAt ≠ [] → c₁.rx.rcv.nxt = c.rx.rcv.nxt

theorem StreamInv.handleData_taken (h : StreamInv S c) (hs : c.ctl.synced = true) {seg : Segment}
    (hslice : Slice S c seg) (hcap : c.rx.readBuf.cap < 2 ^ 32) : ∃ c₁, Taken c c₁ ∧ StreamInv S c₁ ∧
      (c.handleData seg.seq seg.payload = c₁ ∨ c.handleData seg.seq seg.payload = c₁.deferredFIN) := by
  rcases hslice with hnil | ⟨o, hseq, hpre, hop, hpo⟩
  · refine ⟨c, ⟨rfl, List.prefix_refl _, rfl, rfl, rfl, rfl, fun _ => rfl⟩, h, .inl ?_⟩
    rw [handleData, if_pos (by simp [hnil])]
  rcases h.live hs with hc | ⟨hf, ho⟩
  · obtain ⟨r, h1, h2, h3, he⟩ := handleData_closed hc h.shut seg.seq seg.payload
    refine ⟨{ c with rx.rcv := r }, ⟨rfl, List.prefix_refl _, rfl, rfl, h2, h3, fun _ => h1⟩, ?_,
      .inl he⟩
    exact ⟨⟨h.shut, h.syn, h.pre, h.unsynced, fun hs hf => h1.trans (h.nxt hs hf)⟩, fun _ => .inl hc⟩
  · have hfree : c.rx.readBuf.free < 2 ^ 32 := by
      have := c.rx.readBuf.len_add_free; omega
    obtain ⟨run, c₁, hrec, hq, hopen, hcases⟩ := handleData_takesIn (sliceable_Reads S) ho hfree
      h.shut seg.payload_lt hop hpo hpre
    have hctl : c₁.ctl = c.ctl := by rw [hrec.same]
    have happ : c₁.app = c.app := by rw [hrec.same]
    have hbase : c₁.base = c.base := by rw [base, base, hrec.same]
    have hpos : c₁.pos = c.pos + run.length := by
      rw [pos, hrec.delivered, List.length_append, pos]
    rw [show seg.seq = seqAt c.base o from hseq]
    refine ⟨c₁, ⟨hrec.same, ⟨run, hrec.delivered.symm⟩, hrec.closed, hrec.finAt, hrec.finReceived,
      hrec.finSeq, fun hne => absurd hf hne⟩, ?_, hcases⟩
    exact
      { shut := by rw [happ]; exact h.shut
        syn := by rw [hctl]; exact h.syn
        pre := hrec.delivered ▸ append_isPrefix h.pre hq
        unsynced := fun hu => by rw [hctl, hs] at hu; cases hu
        nxt := fun _ _ => by rw [hbase, hpos]; exact hopen.nxt
        live := fun _ => .inr ⟨hrec.finAt.trans hf, by rw [hbase, hpos]; exact hopen⟩ }

theorem StreamInv.handleData (h : StreamInv S c) (hs : c.ctl.synced = true) {seg : Segment}
    (hslice : Slice S c seg) (hcap : c.rx.readBuf.cap < 2 ^ 32) :
    StreamInv S (c.handleData seg.seq seg.payload) := by
  obtain ⟨c₁, htaken, hinv, he | he⟩ := h.handleData_taken hs hslice hcap <;> rw [he]
  · exact hinv
  · exact hinv.deferredFIN (by rw [htaken.same]; exact hs)

theorem StreamInv.takePayload (h : StreamInv S c) {seg : Segment} (hslice : Slice S c seg)
    (hcap : c.rx.readBuf.cap < 2 ^ 32) : StreamInv S (c.takePayload seg) := by
  rw [TCPConn.takePayload]
  split
  · rename_i hs; exact h.handleData hs hslice hcap
  · exact h

theorem Slice.txOnly {seg : Segment} (h : Slice S c seg) (t : TxOnly c c') : Slice S c' seg := by
  rw [Slice, pos, t.env, t.rx]; exact h

theorem StreamInv.deferFIN (h : StreamInv S c) (finSeq : UInt32) :
    StreamInv S (c.deferFIN finSeq) where
  toStreamBase := ⟨h.shut, h.syn, h.pre, h.unsynced, h.nxt⟩
  live hs := (h.live hs).imp id fun ⟨hf, ho⟩ => ⟨hf, ho.nxt, ho.closed, ho.ooo⟩

theorem StreamInv.establishedFIN (h : StreamInv S c) (seg : Segment) :
    StreamInv S (c.establishedFIN seg) := by
  rw [TCPConn.establishedFIN]
  split_ifs with hfin
  · exact h.processFIN hfin.2
  · exact (h.deferFIN _).quiet (.scheduleACK _ seg)
  · exact h.quiet (.scheduleACK _ seg)

theorem StreamInv.handleEstablished (h : StreamInv S c) {seg : Segment} (hslice : Slice S c seg)
    (hcap : c.rx.readBuf.cap < 2 ^ 32) : StreamInv S (c.handleEstablished seg) := by
  have t : TxOnly c (c.resetKeepalive.establishedACK seg) :=
    (TxOnly.resetKeepalive c).trans (.establishedACK _ seg)
  exact ((h.txOnly t).takePayload (hslice.txOnly t) (by rw [t.rx]; exact hcap)).establishedFIN seg

/-- FIN_WAIT_1 and FIN_WAIT_2 count a FIN, acknowledge it and close `readBuf`. -/
theorem StreamBase.countedFIN (h : StreamBase S c) (hs : c.ctl.synced = true) :
    StreamInv S c.countFIN.sendACK.closeReadBuf :=
  ((h.countFIN hs).quiet (.sendACK _)).closeReadBuf hs

theorem StreamInv.finWait1FIN (h : StreamInv S c) (hs : c.ctl.synced = true) (acked : Bool) :
    StreamInv S (c.finWait1FIN acked) := by
  rw [TCPConn.finWait1FIN]
  split
  · exact (h.countedFIN hs).enterTimeWait hs
  · exact (h.countedFIN hs).setState (by simp)

theorem StreamInv.finWait1End (h : StreamInv S c) (seg : Segment) (acked : Bool) :
    StreamInv S (c.finWait1End seg acked) := by
  rw [TCPConn.finWait1End]
  split
  · exact h.quiet (((Quiet.ackPayload c seg).trans (.setState _ (by simp))).trans
      (.of_silent rfl rfl rfl rfl rfl rfl))
  · exact h.quiet (.ackPayload c seg)

theorem StreamInv.handleFinWait1 (h : StreamInv S c) {seg : Segment} (hslice : Slice S c seg)
    (hcap : c.rx.readBuf.cap < 2 ^ 32) : StreamInv S (c.handleFinWait1 seg) := by
  have t : TxOnly c (c.finWait1ACK seg) := .finWait1ACK c seg
  have hdata : StreamInv S ((c.finWait1ACK seg).takePayload seg) :=
    (h.txOnly t).takePayload (hslice.txOnly t) (by rw [t.rx]; exact hcap)
  rw [TCPConn.handleFinWait1]
  split_ifs with hfin
  · refine hdata.finWait1FIN ?_ _
    rw [(RxOnly.takePayload _ seg).synced, t.ctl]; exact hfin.2
  · exact hdata.finWait1End seg _

theorem StreamInv.finWait2Data (h : StreamInv S c) {seg : Segment} (hslice : Slice S c seg)
    (hcap : c.rx.readBuf.cap < 2 ^ 32) : StreamInv S (c.finWait2Data seg) := by
  rw [TCPConn.finWait2Data]
  split
  · exact h
  · exact (h.takePayload hslice hcap).quiet (.of_silent rfl rfl rfl rfl rfl rfl)

theorem StreamInv.handleFinWait2 (h : StreamInv S c) {seg : Segment} (hslice : Slice S c seg)
    (hcap : c.rx.readBuf.cap < 2 ^ 32) : StreamInv S (c.handleFinWait2 seg) := by
  have t : TxOnly c (c.finWait2ACK seg) := .finWait2ACK c seg
  have hdata : StreamInv S ((c.finWait2ACK seg).finWait2Data seg) :=
    (h.txOnly t).finWait2Data (hslice.txOnly t) (by rw [t.rx]; exact hcap)
  rw [TCPConn.handleFinWait2]
  split_ifs with hfin
  · have hs : ((c.finWait2ACK seg).finWait2Data seg).ctl.synced = true := by
      rw [(RxOnly.finWait2Data _ seg).synced, t.ctl]; exact hfin.2
    exact ((hdata.countFIN hs).quiet (.sendACK _)).enterTimeWait hs
  · exact hdata.quiet (.ackPayload _ seg)

theorem StreamInv.handleClosing (h : StreamInv S c) (seg : Segment) :
    StreamInv S (c.handleClosing seg) := by
  have t : TxOnly c (c.closingACK seg) := .closingACK c seg
  rw [TCPConn.handleClosing]
  split_ifs with hack
  · exact (h.txOnly t).enterTimeWait (by rw [t.ctl]; exact hack.2)
  · exact (h.txOnly t).quiet (.reACKFIN _ seg)
  · exact h.quiet (.reACKFIN _ seg)

/-- The handshake ends with an open `readBuf` and an empty out-of-order list. -/
theorem StreamInv.establish (h : StreamInv S c) (hs : c.ctl.synced = false)
    (hrun : c.ctl.running = true) (seg : Segment) : StreamInv S (c.establish seg) := by
  obtain ⟨hnil, hf, hclosed⟩ := h.unsynced hs
  have hpos : (c.establish seg).pos = 0 := by
    rw [pos]; exact congrArg List.length hnil
  have hnxt : (c.establish seg).rx.rcv.nxt
      = seqAt (c.establish seg).base (c.establish seg).pos := by
    rw [hpos, seqAt_zero]; rfl
  exact
    { shut := h.shut
      syn := fun he => by cases he
      pre := h.pre
      unsynced := fun he => by cases he
      nxt := fun _ _ => hnxt
      live := fun _ => .inr ⟨hf, hnxt, hclosed hrun, trivial⟩ }

theorem StreamInv.handleSynRcvd (h : StreamInv S c) (hsyn : c.ctl.state = .synRcvd)
    (hrun : c.ctl.running = true) {seg : Segment} (hslice : Slice S c seg)
    (hcap : c.rx.readBuf.cap < 2 ^ 32) : StreamInv S (c.handleSynRcvd seg) := by
  have hest : StreamInv S (c.establish seg).resetKeepalive :=
    (h.establish (h.syn hsyn) hrun seg).txOnly (.resetKeepalive _)
  rw [TCPConn.handleSynRcvd]
  split_ifs
  · exact h.quiet (.sendACK c)
  · exact h.quiet ((Quiet.sendRSTSegment c _).trans (.handleRST _))
  · refine StreamInv.quiet ?_ (.handOver _)
    rw [synPayload]
    split
    · exact hest
    · exact (hest.handleData rfl hslice hcap).quiet (.sendACK _)
  · exact h.quiet (.sendSYNACK c (h.syn hsyn))
  · exact h

theorem StreamInv.dispatch (h : StreamInv S c) (hrun : c.ctl.running = true) {seg : Segment}
    (hslice : Slice S c seg) (hcap : c.rx.readBuf.cap < 2 ^ 32) : StreamInv S (c.dispatch seg) := by
  cases hst : c.ctl.state <;> simp only [TCPConn.dispatch, hst]
  case synRcvd => exact h.handleSynRcvd hst hrun hslice hcap
  case established => exact h.handleEstablished hslice hcap
  case finWait1 => exact h.handleFinWait1 hslice hcap
  case finWait2 => exact h.handleFinWait2 hslice hcap
  case closeWait => exact h.txOnly (.handleCloseWait c seg)
  case closing => exact h.handleClosing seg
  case lastAck => exact h.quiet (.handleLastAck c seg)
  case timeWait => exact h.quiet (.handleTimeWait c seg)
  case closed => exact h

theorem StreamInv.handleSegment (h : StreamInv S c) (hrun : c.ctl.running = true) {seg : Segment}
    (hslice : Slice S c seg) (hcap : c.rx.readBuf.cap < 2 ^ 32) :
    StreamInv S (c.handleSegment seg) := by
  have t : TxOnly c (c.updateTSRecent seg) := .updateTSRecent c seg
  rw [TCPConn.handleSegment]
  split_ifs
  · exact h
  · exact h.quiet (.handleRSTSegment c seg)
  · exact h.quiet (.sendACK c)
  · exact (h.txOnly t).dispatch (by rw [t.ctl]; exact hrun) (hslice.txOnly t)
      (by rw [t.rx]; exact hcap)

theorem StreamInv.onInbound (h : StreamInv S c) (hrun : c.ctl.running = true) {seg : Segment}
    (hslice : Slice S c seg) (hcap : c.rx.readBuf.cap < 2 ^ 32) : StreamInv S (c.onInbound seg) :=
  ((h.handleSegment hrun hslice hcap).quiet (.manageRTO _)).quiet (.drainForFIN _)

/-- A read makes room: the window's right edge does not move back. -/
theorem StreamInv.read (h : StreamInv S c) (n : ℕ) :
    StreamInv S { c with rx.readBuf := (c.rx.readBuf.readNoBlock n).1 } where
  shut := h.shut
  syn := h.syn
  pre := h.pre
  unsynced hu := by
    obtain ⟨h1, h2, h3⟩ := h.unsynced hu
    exact ⟨h1, h2, fun hr => (c.rx.readBuf.closed_readNoBlock n).trans (h3 hr)⟩
  nxt := h.nxt
  live hs := by
    rcases h.live hs with hc | ⟨hf, ho⟩
    · exact .inl ((c.rx.readBuf.closed_readNoBlock n).trans hc)
    · refine .inr ⟨hf, ho.nxt, (c.rx.readBuf.closed_readNoBlock n).trans ho.closed, ?_⟩
      exact ho.ooo.mono (le_refl _)
        (Nat.add_le_add_left (c.rx.readBuf.free_le_free_readNoBlock n) _) (le_refl _)

/-- `forceCloseFromRun` closes `readBuf` and ends the run loop. -/
theorem StreamInv.onForceClose (h : StreamInv S c) : StreamInv S c.onForceClose := by
  have hclosed : ∀ {d : TCPConn}, StreamInv S d → StreamInv S d.forceCloseBufs.exitRun := by
    intro d hd
    have q : Quiet d.forceCloseBufs d.forceCloseBufs.exitRun := .exitRun _
    exact
      { shut := q.readShutdown.trans hd.shut
        syn := fun hs => q.synced.trans (hd.syn (q.synRcvd hs))
        pre := q.delivered ▸ hd.pre
        unsynced := fun hu => by
          obtain ⟨h1, h2, -⟩ := hd.unsynced (q.synced ▸ hu)
          exact ⟨q.delivered.trans h1, q.finAt.trans h2, fun hr => by cases hr⟩
        nxt := fun hs hf => by
          rw [q.nxt, base, pos, q.env, q.delivered]
          exact hd.nxt (q.synced ▸ hs) (q.finAt ▸ hf)
        live := fun _ => .inl (by rw [q.readBuf]; rfl) }
  rw [TCPConn.onForceClose]
  split
  · exact hclosed (h.quiet (.sendRSTSegment c _))
  · exact hclosed h

end

/-! ### Whole runs -/

/-- The peer sends slices of `S`; the application reads at least a byte at a time and does not call
    `CloseRead`. -/
def ReadsStream (S : List UInt8) (s : Sys) : Event → Prop
  | .inbound seg => Slice S s.conn seg
  | .readCall n => 0 < n
  | .closeRead => False
  | _ => True

/-- A run that reads `S` through a `readBuf` of less than `2 ^ 32` bytes. -/
def ReadsWithin (S : List UInt8) (s : Sys) (e : Event) : Prop :=
  s.conn.rx.readBuf.cap < 2 ^ 32 ∧ ReadsStream S s e

theorem streamInv_init (S : List UInt8) {s : Sys} (h : s.Init) : StreamInv S s.conn := by
  obtain ⟨hd, irs, iss, options, hr, hw, -, rfl⟩ := Sys.init_iff.1 h
  exact
    { shut := rfl
      syn := fun _ => rfl
      pre := List.nil_prefix
      unsynced := fun _ => ⟨rfl, rfl, fun _ => rfl⟩
      nxt := fun hs => by cases hs
      live := fun hs => by cases hs }

theorem streamInv_step {S : List UInt8} {s s' : Sys} {e : Event} (h : StreamInv S s.conn)
    (hok : ReadsWithin S s e) (hstep : s.step e = some s') : StreamInv S s'.conn := by
  obtain ⟨-, st⟩ := Sys.step_inv hstep
  cases hq : Sys.quiet e with
  | true => exact h.quiet (st.quiet hq)
  | false =>
    cases st <;> simp only [Sys.quiet, reduceCtorEq] at hq
    case inbound seg hrun => exact h.onInbound hrun hok.2 hok.1
    case forceCloseCh => exact h.onForceClose
    case readCall n _ => exact h.read n
    case closeRead => exact hok.2.elim

theorem streamInv_reach {S : List UInt8} {s : Sys} (hr : Reach Sys.Init Sys.step (ReadsWithin S) s) :
    StreamInv S s.conn :=
  hr.invariant (fun _ => streamInv_init S) fun _ _ _ => streamInv_step

/-- SAFE: in every run in which the peer's segments are slices of `S` and `readBuf` stays below
    `2 ^ 32` bytes, the bytes written to `readBuf` are a start of `S`, and `rcv.nxt` counts them until
    a FIN is consumed. -/
theorem receive_stream_integrity {S : List UInt8} {s : Sys}
    (hr : Reach Sys.Init Sys.step (ReadsWithin S) s) :
    ∃ k, k ≤ S.length ∧ s.conn.rx.delivered = S.take k ∧
      (s.conn.ctl.synced = true → s.conn.rx.finAt = [] →
        s.conn.rx.rcv.nxt = s.conn.env.irs + 1 + UInt32.ofNat k) := by
  have h := streamInv_reach hr
  exact ⟨_, h.pre.length_le, List.prefix_iff_eq_take.1 h.pre, h.nxt⟩

/-- A check for `ReadsWithin`, on a stream of at most `2 ^ 31` bytes. -/
def readsWithin (S : List UInt8) (s : Sys) (e : Event) : Bool :=
  decide (s.conn.rx.readBuf.cap < 2 ^ 32) &&
  match e with
  | .inbound seg => seg.payload.isEmpty || (decide (s.conn.pos ≤ 2 ^ 31) &&
      (List.range S.length).any fun o =>
        seg.seq == s.conn.env.irs + 1 + UInt32.ofNat o && seg.payload.isPrefixOf (S.drop o))
  | .readCall n => decide (0 < n)
  | .closeRead => false
  | _ => true

theorem readsWithin_sound {S : List UInt8} (hS : S.length ≤ 2 ^ 31) {s : Sys} {e : Event}
    (h : readsWithin S s e = true) : ReadsWithin S s e := by
  obtain ⟨hcap, h⟩ := Bool.and_eq_true_iff.1 h
  refine ⟨of_decide_eq_true hcap, ?_⟩
  cases e with
  | inbound seg =>
    rcases Bool.or_eq_true_iff.1 h with hnil | hsome
    · exact .inl (List.isEmpty_iff.1 hnil)
    · simp only [Bool.and_eq_true, decide_eq_true_iff, List.any_eq_true, List.mem_range,
        beq_iff_eq, List.isPrefixOf_iff_prefix] at hsome
      obtain ⟨hpos, o, ho, hseq, hpre⟩ := hsome
      exact .inr ⟨o, hseq, hpre, by omega, by omega⟩
  | readCall n => exact of_decide_eq_true (p := 0 < n) h
  | closeRead => cases h
  | _ => trivial

/-- Three bytes, the last of them first. -/
theorem receive_stream_integrity_reordered : ∃ s : Sys,
    Reach Sys.Init Sys.step (ReadsWithin [1, 2, 3]) s ∧ s.conn.rx.delivered = [1, 2, 3] ∧
    ∃ k, k ≤ [1, 2, 3].length ∧ s.conn.rx.delivered = [1, 2, 3].take k ∧
      (s.conn.ctl.synced = true → s.conn.rx.finAt = [] →
        s.conn.rx.rcv.nxt = s.conn.env.irs + 1 + UInt32.ofNat k) := by
  obtain ⟨s, hr, hs⟩ := Sys.exists_reach Sys.init_sample (readsWithin [1, 2, 3])
    (fun s => s.conn.rx.delivered = [1, 2, 3])
    [Sys.sampleACK, .inbound (Sys.sampleSegment tcpFlagACK 103 201 1000 [3]),
      .inbound (Sys.sampleSegment tcpFlagACK 101 201 1000 [1, 2])] (by decide +kernel)
  have hr' := hr.mono fun _ _ => readsWithin_sound (by decide)
  exact ⟨s, hr', hs, receive_stream_integrity hr'⟩

/-! ### A `readBuf` larger than a 32-bit window

    The run that delivers a byte twice. An entry of more than `2 ^ 31` bytes is built up while the free
    space still fits into 32 bits; then reading makes the free space wrap round, and a duplicate from
    inside the entry is filed as if it were new. -/

/-- A handler whose `readBuf` grows from a quarter of its full size, `2 ^ 32 + 4` bytes. The clock is
    slow: between two readings its millisecond count comes round to where it was. -/
def wideHandler : TCPHandler where
  cfg := { defaultConfig with
    readBufferSize := 2 ^ 32 + 4
    maxReadBufferSize := 2 ^ 32 + 4
    initialReadBufferSize := 2 ^ 30 + 2 }
  mtu := 1500
  gsoMaxSize := none
  tsOffset := 0
  tsEpoch := 0
  clock := fun n => n * (2 ^ 32 * millisecond)
  mtu_le := TCPHandler.mtu_le_max
  gso_pos := TCPHandler.gso_pos_none

/-- The SYN has a timestamp option. -/
def wideEnv : Env := wideHandler.synEnv 0 0 [8, 10, 0, 0, 0, 0, 0, 0, 0, 0]

def wideSize : ℕ := 2 ^ 32 + 4

/-- The peer's stream: nothing but zeros. -/
def wideStream : List UInt8 := List.replicate (2 ^ 32 + 7) 0

/-- Some run on slices of `wideStream` gets to `v`. -/
def Gets (v : Snap) : Prop :=
  ∃ s, Reach Sys.Init Sys.step (ReadsStream wideStream) s ∧ View wideEnv wideSize s.conn v

/-- `n` bytes of the stream from offset `o`. -/
def wideSegment (o n : ℕ) (h : n < 2 ^ 16) : Segment where
  flags := 0
  seq := seqAt 1 o
  ack := 0
  wnd := 0
  options := []
  payload := List.replicate n 0
  payload_lt := by rw [List.length_replicate]; exact h

theorem Gets.data {v v' : Snap} {o n : ℕ} (h : Gets v) (hn : n < 2 ^ 16)
    (hend : o + n ≤ 2 ^ 32 + 7) (hop : o ≤ v.pos + 2 ^ 31) (hpo : v.pos ≤ o + 2 ^ 31)
    (hdata : ∀ c, View wideEnv wideSize c v →
      View wideEnv wideSize (c.handleData (seqAt 1 o) (List.replicate n 0)) v') : Gets v' := by
  obtain ⟨s, hr, hv⟩ := h
  refine ⟨_, hr.next (e := .inbound (wideSegment o n hn)) ?_ (Sys.step_inbound hv.fault hv.running), ?_⟩
  · refine .inr ⟨o, ?_, ?_, by rw [hv.pos]; exact hop, by rw [hv.pos]; exact hpo⟩
    · rw [hv.env]; rfl
    · rw [wideStream, List.drop_replicate]
      refine ⟨List.replicate (2 ^ 32 + 7 - o - n) 0, ?_⟩
      rw [wideSegment, List.replicate_append_replicate]
      congr 1
      omega
  · exact hv.inbound rfl rfl rfl
      (hdata _ (hv.frame rfl rfl rfl rfl rfl rfl rfl rfl (Nat.le_succ _)))

/-- The connection after the SYN, and the ACK that completes the handshake. -/
def wideStart : Sys :=
  Sys.start wideHandler 0 0 [8, 10, 0, 0, 0, 0, 0, 0, 0, 0] (by decide) (by decide)

def wideACK : Segment where
  flags := tcpFlagACK
  seq := 1
  ack := 1
  wnd := 1000
  options := []
  payload := []
  payload_lt := Sys.length_nil_lt

theorem wideStart_ack : wideStart.conn.onInbound wideACK
    = ((wideStart.conn.establish wideACK).resetKeepalive.handOver).stopRTO := rfl

theorem gets_start : Gets ⟨0, 2 ^ 30 + 2, 2 ^ 30 + 2, 0, false, []⟩ := by
  have hinit : wideStart.Init := Sys.init_iff.2 ⟨_, _, _, _, _, _, ⟨wideHandler.cfg, rfl⟩, rfl⟩
  have hcap : wideStart.conn.rx.readBuf.cap = 2 ^ 30 + 2 :=
    List.length_replicate
  have hfree : wideStart.conn.rx.readBuf.free = 2 ^ 30 + 2 := by
    have h := wideStart.conn.rx.readBuf.len_add_free
    have hlen : wideStart.conn.rx.readBuf.len = 0 :=
      (RingBuffer.contents_eq_nil_iff _).1
        (RingBuffer.contents_new wideHandler.cfg.initialReadBufferSize.toNat (by decide))
    omega
  have htuned : (wideStart.conn.establish wideACK).rx.rcv.autoTune
      = { measureStart := none, bytesDelivered := 0, readBufSize := wideSize,
          maxBufSize := wideSize } := by
    rw [establish]
    dsimp only
    rw [setState, hcap]
    rfl
  refine ⟨_, (Reach.start hinit).next (e := .inbound wideACK) (.inl rfl)
    (Sys.step_inbound rfl rfl), ?_⟩
  rw [wideStart_ack]
  exact
    { env := rfl
      state := rfl
      synced := rfl
      running := rfl
      handed := rfl
      pending := rfl
      fault := rfl
      shut := rfl
      unacked := rfl
      una := rfl
      probing := rfl
      tsRecent := rfl
      fin := rfl
      isOpen := rfl
      readBufSize := congrArg AutoTune.readBufSize htuned
      maxBufSize := congrArg AutoTune.maxBufSize htuned
      pos := rfl
      nxt := rfl
      free := hfree
      cap := hcap
      srtt := rfl
      idle := fun _ => rfl
      start := (fun h => by cases h)
      ooo := rfl }

/-- An old acknowledgment with a timestamp that was never sent. -/
def wideEcho : Segment where
  flags := tcpFlagACK
  seq := 1
  ack := 0
  wnd := 1000
  options := [8, 10, 0, 0, 0, 0, 0, 0, 0, 1]
  payload := []
  payload_lt := Sys.length_nil_lt

theorem wideEcho_timestamp : wideEcho.timestamp wideEnv = some ⟨0, 1⟩ := by decide +kernel

theorem handlerNow_wide {c : TCPConn} (h : c.env = wideEnv) : c.handlerNow = 0 := by
  have hnow : c.now - c.env.handler.tsEpoch = c.ticks * 2 ^ 32 * millisecond := by
    rw [now, h]
    show (c.ticks : ℤ) * (2 ^ 32 * millisecond) - 0 = _
    ring
  rw [handlerNow, hnow, Int.mul_tdiv_cancel _ (by decide), h]
  show UInt32.ofInt (c.ticks * 2 ^ 32) + 0 = 0
  rw [UInt32.ofInt, Int.mul_emod_left]
  rfl

/-- The echo gives an RTT of the millisecond count less one. -/
theorem measureRTTM_wide {c : TCPConn} {v : Snap} (h : View wideEnv wideSize c v) (hv : v.srtt = 0) :
    View wideEnv wideSize (c.measureRTTM wideEcho)
      { v with srtt := (2 ^ 32 - 1) * millisecond } := by
  have hrtt : ((c.handlerNow - 1).toNat : ℤ) * millisecond = (2 ^ 32 - 1) * millisecond := by
    rw [handlerNow_wide h.env]; rfl
  rw [measureRTTM, h.env, wideEcho_timestamp]
  dsimp only
  rw [if_neg (by decide), hrtt, if_pos (by decide)]
  have hsrtt : (c.tx.snd.updateRTT wideEnv.cfg ((2 ^ 32 - 1) * millisecond)).srtt
      = (2 ^ 32 - 1) * millisecond := by
    rw [Sender.updateRTT, h.srtt, hv]; rfl
  exact
    { h with
      env := rfl
      srtt := hsrtt
      start := fun hs => by
        obtain ⟨n, hn, he⟩ := h.start hs
        exact ⟨n, Nat.lt_succ_of_lt hn, he⟩ }

theorem Gets.sample {v : Snap} (h : Gets v) (hv : v.srtt = 0) :
    Gets { v with srtt := (2 ^ 32 - 1) * millisecond } := by
  obtain ⟨s, hr, hs⟩ := h
  refine ⟨_, hr.next (e := .inbound wideEcho) (.inl rfl) (Sys.step_inbound hs.fault hs.running), ?_⟩
  refine View.settled ?_
  have hts : View wideEnv wideSize (s.conn.updateTSRecent wideEcho) v := by
    rw [updateTSRecent, hs.env, wideEcho_timestamp]
    dsimp only
    split
    · exact { hs with env := rfl, tsRecent := rfl }
    · exact hs
  have hpaws : s.conn.pawsDrop wideEcho = false := by
    rw [pawsDrop, hs.env, wideEcho_timestamp, hs.tsRecent]; decide
  have halive : View wideEnv wideSize (s.conn.updateTSRecent wideEcho).resetKeepalive v :=
    hts.frame rfl rfl rfl rfl rfl rfl rfl rfl (Nat.le_succ _)
  have hwnd : View wideEnv wideSize
      ((s.conn.updateTSRecent wideEcho).resetKeepalive.setWnd wideEcho).noteMaxWnd v :=
    { halive with }
  have hsample := measureRTTM_wide hwnd hv
  have hopen : (((s.conn.updateTSRecent wideEcho).resetKeepalive.setWnd
      wideEcho).noteMaxWnd.measureRTTM wideEcho).tx.snd.wnd = 1000 := by
    obtain ⟨_, _, ⟨_, _, _, rfl⟩, he⟩ := measureRTTM_eq
      ((s.conn.updateTSRecent wideEcho).resetKeepalive.setWnd wideEcho).noteMaxWnd wideEcho
    rw [he]
    show scaledWnd wideEcho.wnd (s.conn.updateTSRecent wideEcho).env.sndWndScale = 1000
    rw [hts.env]
    decide
  rw [handleSegment, hpaws, if_neg (by simp), if_neg (by decide),
    if_neg (fun h => absurd h.1 (by decide)), dispatch, hts.state]
  dsimp only
  rw [handleEstablished, establishedACK, if_pos ⟨by decide, halive.synced⟩, processACK]
  generalize ((s.conn.updateTSRecent wideEcho).resetKeepalive.setWnd
    wideEcho).noteMaxWnd.measureRTTM wideEcho = c at hsample hopen
  have hsack : c.handleSACK wideEcho = c := by
    rw [handleSACK, hsample.env, if_neg (by decide)]
  have hack : c.handleACK wideEcho.ack = c := by
    rw [handleACK, hsample.una, if_neg (by decide), if_pos (by
      rw [Bool.or_eq_true]; exact .inl (by decide))]
  rw [hsack, hack, sendOnUpdate, hsample.una, if_neg (fun h => absurd h.1 (by decide)),
    manageZeroWindow, hsample.probing, if_neg (by simp), hopen, if_neg (by simp), takePayload,
    if_pos hsample.synced, handleData, if_pos (by rfl), establishedFIN, if_neg (fun h => absurd h.1 (by decide)),
    scheduleACK, if_pos (by rfl)]
  exact hsample

theorem replicate_zero_ne_nil {n : ℕ} (h : 0 < n) : List.replicate n (0 : UInt8) ≠ [] := by
  rw [← List.length_pos_iff, List.length_replicate]; exact h

/-- Bytes in order: what `deliver` and then `deliverOOO` make of it. -/
theorem Gets.inOrder {v v₁ v₂ : Snap} {n W : ℕ} (h : Gets v) (hn : n < 2 ^ 16) (hpos : 0 < n)
    (hend : v.pos + n ≤ 2 ^ 32 + 7) (hW : v.free % 2 ^ 32 = W) (hfit : n ≤ W) (hle : W ≤ 2 ^ 31)
    (hdeliver : ∀ c, View wideEnv wideSize c v → (List.replicate n (0 : UInt8)).length ≤ v.free →
      View wideEnv wideSize (c.deliver (List.replicate n 0)) v₁)
    (hdrain : ∀ c, View wideEnv wideSize c v₁ → View wideEnv wideSize (drainOOO v₁.ooo c) v₂) :
    Gets v₂ := by
  refine h.data hn hend (by omega) (by omega) fun c hc => ?_
  have hlen : (List.replicate n (0 : UInt8)).length ≤ v.free := by
    rw [List.length_replicate]; exact hfit.trans (hW ▸ Nat.mod_le _ _)
  have hd := hdeliver c hc hlen
  rw [show (1 : UInt32) = wideEnv.irs + 1 from rfl, hc.inOrder (replicate_zero_ne_nil hpos) hW
    (by rw [List.length_replicate]; exact hfit) hle]
  exact hd.deliverOOO (hdrain _ hd)

/-- Bytes ahead of the receiver. -/
theorem Gets.outOfOrder {v : Snap} {o n W : ℕ} {l : List OOOSegment} (h : Gets v) (hn : n < 2 ^ 16)
    (hpos : 0 < n) (hend : o + n ≤ 2 ^ 32 + 7) (hW : v.free % 2 ^ 32 = W) (hgt : v.pos < o)
    (hahead : o < v.pos + 2 ^ 31) (hfit : o + n ≤ v.pos + W) (hnear : v.pos + W ≤ o + 2 ^ 31)
    (hcov : covered v.ooo (seqAt 1 o) (seqAt 1 (o + n)) = false)
    (hmerge : mergeOOO (v.ooo.takeWhile fun e => seqLessThan e.seq (seqAt 1 o))
      (v.ooo.dropWhile fun e => seqLessThan e.seq (seqAt 1 o)) (seqAt 1 o) (List.replicate n 0) = l) :
    Gets { v with ooo := l } := by
  refine h.data hn hend (by omega) (by omega) fun c hc => ?_
  have hlen : (List.replicate n (0 : UInt8)).length = n := List.length_replicate
  exact hc.outOfOrder (replicate_zero_ne_nil hpos) hW hgt hahead (by rw [hlen]; exact hfit) hnear
    (by rw [hlen]; exact hcov) hmerge

/-- The RTT of the run. -/
def wideRTT : ℤ := (2 ^ 32 - 1) * millisecond

theorem wide_clock (k n : ℕ) (h : k < n) :
    wideEnv.handler.clock k + wideRTT ≤ wideEnv.handler.clock n := by
  show (k : ℤ) * (2 ^ 32 * millisecond) + wideRTT ≤ n * (2 ^ 32 * millisecond)
  rw [wideRTT, millisecond]
  omega

/-- Four bytes, the last of which makes `readBuf` grow to `2 ^ 31 + 4` bytes. -/
theorem gets_four : Gets ⟨4, 2 ^ 31, 2 ^ 31 + 4, wideRTT, true, []⟩ := by
  have h3 : Gets ⟨3, 2 ^ 30 - 1, 2 ^ 30 + 2, 0, true, []⟩ :=
    gets_start.inOrder (n := 3) (by decide) (by decide) (by decide) rfl (by decide) (by decide)
      (fun c hc hlen => hc.deliver (by decide) (.inr (le_refl _)) (by decide) hlen)
      (fun c hc => hc.drain_nil)
  have h3' : Gets ⟨3, 2 ^ 30 - 1, 2 ^ 30 + 2, wideRTT, true, []⟩ := h3.sample rfl
  exact h3'.inOrder (n := 1) (by decide) (by decide) (by decide) rfl (by decide) (by decide)
    (fun c hc hlen => hc.deliver_grow rfl wide_clock (by decide) (by decide) (by decide) hlen)
    (fun c hc => hc.drain_nil)

/-- `n` zeros filed at offset `o`. -/
@[irreducible] def wideEntry (o n : ℕ) : OOOSegment := ⟨seqAt 1 o, List.replicate n 0⟩

theorem wideEntry_seq (o n : ℕ) : (wideEntry o n).seq = seqAt 1 o := by rw [wideEntry]

theorem wideEntry_one (o : ℕ) : ⟨seqAt 1 o, List.replicate 1 0⟩ = wideEntry o 1 := by
  rw [wideEntry]

theorem wideEntry_stop (o n : ℕ) : (wideEntry o n).stop = seqAt 1 (o + n) := by
  rw [OOOSegment.stop, seqAt_add, wideEntry, List.length_replicate]

/-- Bytes that continue the only entry are appended to it. -/
theorem extend_wideEntry {o m n : ℕ} (hm : 0 < m) (hlt : m < 2 ^ 31) (hn : 0 < n) (hn' : n < 2 ^ 16) :
    covered [wideEntry o m] (seqAt 1 (o + m)) (seqAt 1 (o + m + n)) = false ∧
    mergeOOO ([wideEntry o m].takeWhile fun e => seqLessThan e.seq (seqAt 1 (o + m)))
      ([wideEntry o m].dropWhile fun e => seqLessThan e.seq (seqAt 1 (o + m)))
      (seqAt 1 (o + m)) (List.replicate n 0) = [wideEntry o (m + n)] := by
  have hbefore : seqLessThan (wideEntry o m).seq (seqAt 1 (o + m)) = true := by
    rw [wideEntry_seq, seqLessThan_seqAt _ (by omega) (by omega)]; simpa using hm
  constructor
  · rw [covered, List.any_cons, List.any_nil, wideEntry_stop,
      seqGreaterThan_seqAt _ (by omega) (by omega)]
    simp [hn]
  · rw [mergeOOO_one hbefore, wideEntry_stop, seqLessThan_seqAt _ (by omega) (by omega),
      if_neg (by simp), extend_eq (wideEntry_seq o m)] <;>
      simp only [wideEntry, List.length_replicate] <;> try omega
    rw [Nat.sub_self, List.drop_zero, List.replicate_append_replicate]

/-- Everything after a gap of two bytes, one byte at a time. -/
theorem gets_ahead : ∀ k, k < 2 ^ 31 - 2 →
    Gets ⟨4, 2 ^ 31, 2 ^ 31 + 4, wideRTT, true, [wideEntry 6 (k + 1)]⟩
  | 0, _ => gets_four.outOfOrder (o := 6) (n := 1) (by decide) (by decide) (by decide) rfl
      (by decide) (by decide) (by decide) (by decide) rfl (congrArg (· :: []) (wideEntry_one 6))
  | k + 1, hk => by
      obtain ⟨hcov, hmerge⟩ := extend_wideEntry (o := 6) (m := k + 1) (n := 1) (by omega) (by omega)
        (by omega) (by omega)
      exact (gets_ahead k (by omega)).outOfOrder (o := 6 + (k + 1)) (n := 1) (by omega) (by omega)
        (by omega) rfl (by simp only; omega) (by simp only; omega) (by simp only; omega) (by simp only; omega) hcov hmerge

/-- The fifth byte makes `readBuf` grow to its full size; five more bytes continue the entry. -/
theorem gets_five :
    Gets ⟨5, 2 ^ 32 - 1, wideSize, wideRTT, true, [wideEntry 6 (2 ^ 31 + 3)]⟩ := by
  have h4 : Gets ⟨4, 2 ^ 31, 2 ^ 31 + 4, wideRTT, true, [wideEntry 6 (2 ^ 31 - 2)]⟩ := by
    have h := gets_ahead (2 ^ 31 - 3) (by decide)
    rwa [show 2 ^ 31 - 3 + 1 = 2 ^ 31 - 2 by norm_num] at h
  have h5 : Gets ⟨5, 2 ^ 32 - 1, wideSize, wideRTT, true, [wideEntry 6 (2 ^ 31 - 2)]⟩ :=
    h4.inOrder (n := 1) (by decide) (by decide) (by decide) rfl (by decide) (by decide)
      (fun c hc hlen => hc.deliver_grow rfl wide_clock (by decide) (by decide) (by decide) hlen)
      (fun c hc => hc.drain_waits (by rw [wideEntry_seq]; decide))
  obtain ⟨hcov, hmerge⟩ := extend_wideEntry (o := 6) (m := 2 ^ 31 - 2) (n := 5) (by decide)
    (by decide) (by decide) (by decide)
  rw [show 6 + (2 ^ 31 - 2) = 2 ^ 31 + 4 by norm_num,
    show 2 ^ 31 - 2 + 5 = 2 ^ 31 + 3 by norm_num] at hmerge
  rw [show 6 + (2 ^ 31 - 2) = 2 ^ 31 + 4 by norm_num] at hcov
  exact h5.outOfOrder (o := 2 ^ 31 + 4) (n := 5) (by decide) (by decide) (by decide) rfl (by decide)
    (by decide) (by decide) (by decide) hcov hmerge

/-- The application reads the five bytes, and the free space is more than 32 bits can say. A
    duplicate of byte 7 is then not recognised as lying inside the entry, whose end is more than
    `2 ^ 31` ahead of it. -/
theorem gets_stale :
    Gets ⟨5, wideSize, wideSize, wideRTT, true, [wideEntry 6 (2 ^ 31 + 3), wideEntry 7 1]⟩ := by
  have hread : Gets ⟨5, wideSize, wideSize, wideRTT, true, [wideEntry 6 (2 ^ 31 + 3)]⟩ := by
    obtain ⟨s, hr, hv⟩ := gets_five
    have hlen : s.conn.rx.readBuf.len = 5 := by
      have h := s.conn.rx.readBuf.len_add_free
      rw [hv.free, hv.cap, wideSize] at h
      simp only at h
      omega
    refine ⟨{ s with
      conn.rx.readBuf := (s.conn.rx.readBuf.readNoBlock 5).1
      readers := s.readers + 1 }, hr.next (e := .readCall 5) (by decide : 0 < 5) ?_,
      hv.readAll (by decide) (le_of_eq hlen)⟩
    simp [Sys.step, Sys.appStep, hv.fault, hv.handed, hlen]
  have hbefore : seqLessThan (wideEntry 6 (2 ^ 31 + 3)).seq (seqAt 1 7) = true := by
    rw [wideEntry_seq]; decide
  refine hread.outOfOrder (o := 7) (n := 1) (by decide) (by decide) (by decide) rfl (by decide)
    (by decide) (by decide) (by decide) ?_ ?_
  · rw [covered, List.any_cons, List.any_nil, wideEntry_stop, wideEntry_seq]; decide
  · rw [mergeOOO_one hbefore, wideEntry_stop, if_pos (by decide), wideEntry_one]

theorem wideEntry_wrapped : wideEntry 7 1 = ⟨seqAt 1 (2 ^ 32 + 7), List.replicate 1 0⟩ := by
  rw [wideEntry]; rfl

/-- Byte 5 closes the gap. The entry is delivered, and byte 7 now looks like a byte of the future. -/
theorem gets_jumped : Gets ⟨2 ^ 31 + 9, 2 ^ 31, wideSize, wideRTT, true, [wideEntry 7 1]⟩ := by
  have hlen : (List.replicate (2 ^ 31 + 3) (0 : UInt8)).length = 2 ^ 31 + 3 := List.length_replicate
  refine gets_stale.inOrder (n := 1) (by decide) (by decide) (by decide) rfl (by decide) (by decide)
    (fun c hc hlen => hc.deliver (by decide) (.inl rfl) (by decide) hlen) (fun c hc => ?_)
  have hd := hc.deliver (by decide) (.inl rfl) (replicate_zero_ne_nil (n := 2 ^ 31 + 3) (by decide))
    (by rw [hlen]; decide)
  rw [hlen] at hd
  rw [wideEntry]
  exact hc.drain_takes (replicate_zero_ne_nil (by decide)) (by rw [hlen]; decide)
    (hd.drain_waits (by rw [wideEntry_seq]; decide))

/-- The stream goes on in order up to byte `2 ^ 32 + 6`. -/
theorem gets_on : ∀ k, k ≤ 2 ^ 31 - 3 →
    Gets ⟨2 ^ 31 + 9 + k, 2 ^ 31 - k, wideSize, wideRTT, true, [wideEntry 7 1]⟩
  | 0, _ => gets_jumped
  | k + 1, hk => by
      refine (gets_on k (by omega)).inOrder (n := 1) (W := 2 ^ 31 - k) (by omega) (by omega)
        (by simp only; omega) (by simp only; omega) (by omega) (by omega)
        (fun c hc hlen => hc.deliver (by decide) (.inl rfl) (by decide) hlen)
        (fun c hc => hc.drain_waits ?_)
      rw [wideEntry_wrapped]
      simp only [List.length_replicate]
      rw [show wideEnv.irs + 1 = 1 from rfl, seqGreaterThan_seqAt _ (by omega) (by omega)]
      simp; omega

/-- One byte too many: when the receiver has come to offset `2 ^ 32 + 7`, byte 7 is delivered once
    more. -/
theorem gets_overrun : Gets ⟨2 ^ 32 + 8, 1, wideSize, wideRTT, true, []⟩ := by
  have h : Gets ⟨2 ^ 32 + 6, 3, wideSize, wideRTT, true, [wideEntry 7 1]⟩ := by
    have h := gets_on (2 ^ 31 - 3) (le_refl _)
    rwa [show 2 ^ 31 + 9 + (2 ^ 31 - 3) = 2 ^ 32 + 6 by norm_num,
      show 2 ^ 31 - (2 ^ 31 - 3) = 3 by norm_num] at h
  refine h.inOrder (n := 1) (by decide) (by decide) (by decide) rfl (by decide) (by decide)
    (fun c hc hlen => hc.deliver (by decide) (.inl rfl) (by decide) hlen) (fun c hc => ?_)
  have hd := hc.deliver (by decide) (.inl rfl) (replicate_zero_ne_nil (n := 1) (by decide)) (by decide)
  rw [wideEntry_wrapped]
  exact hc.drain_takes (by decide) (by decide) hd.drain_nil

/-- A peer that sends nothing but the stream of `2 ^ 32 + 7` zeros gets more than that into a
    `readBuf` of `2 ^ 32 + 4` bytes. -/
theorem receive_stream_overrun : ∃ (S : List UInt8) (s : Sys),
    Reach Sys.Init Sys.step (ReadsStream S) s ∧ ¬s.conn.rx.delivered <+: S := by
  obtain ⟨s, hr, hv⟩ := gets_overrun
  refine ⟨wideStream, s, hr, fun hpre => ?_⟩
  have hle := hpre.length_le
  rw [wideStream, List.length_replicate, show s.conn.rx.delivered.length = _ from hv.pos] at hle
  simp at hle

end Netstack.Tcp
