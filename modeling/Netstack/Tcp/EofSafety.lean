import Netstack.Tcp.ReceiveStream

/-! The end of the receive stream: the FIN of the peer is counted once, at its own position, and
    `readBuf` is closed for EOF only when the whole stream is in it.

    ESTABLISHED compares the position of a FIN with `rcv.nxt` and defers it when data is missing.
    FIN_WAIT_1 and FIN_WAIT_2 count a FIN wherever it stands, so there the segment that carries it has
    to bring all that is missing (`FinFits`). -/

namespace Netstack.Tcp
open Netstack.Header Netstack.Serial Netstack.Copy Netstack.Trace TCPConn

/-- What holds of the end of the stream `S`: acknowledgments cover what has been delivered, and the
    FIN only after all of it; the FIN is counted at most once; EOF is signalled only after it. -/
structure Eof (S : List UInt8) (c : TCPConn) : Prop where
  acks : ∀ p ∈ c.wire.out, p.flags.has tcpFlagACK = true → ∃ k, p.ack = seqAt c.base k ∧
    (k ≤ c.pos ∨ k = S.length + 1 ∧ c.rx.delivered = S)
  count : c.ctl.synced = true → c.rx.rcv.nxt = seqAt c.base (c.pos + c.rx.finAt.length)
  fins : c.rx.finAt = [] ∨ c.rx.finAt = [seqAt c.base S.length] ∧ c.rx.delivered = S
  eof : c.rx.readBuf.closed = true → c.rx.finAt ≠ []
  closing : c.ctl.state = .closing → c.rx.finAt ≠ []
  fin : c.rx.rcv.finReceived = true → c.rx.rcv.finSeq = seqAt c.base S.length ∧
    S.length < c.pos + 2 ^ 32
  before : c.ctl.synced = false → c.ctl.state = .synRcvd ∨ c.ctl.state = .closed

section
variable {S : List UInt8} {c c' : TCPConn}

/-- `rcv.nxt` is a position that may be acknowledged. -/
theorem Eof.ackable (h : Eof S c) (hs : c.ctl.synced = true) : ∃ k, c.rx.rcv.nxt = seqAt c.base k ∧
    (k ≤ c.pos ∨ k = S.length + 1 ∧ c.rx.delivered = S) := by
  refine ⟨_, h.count hs, ?_⟩
  rcases h.fins with hf | ⟨hf, hd⟩ <;> rw [hf]
  · exact .inl (le_refl _)
  · exact .inr ⟨by rw [pos, hd]; rfl, hd⟩

theorem Eof.synced (h : Eof S c) (h1 : c.ctl.state ≠ .synRcvd) (h2 : c.ctl.state ≠ .closed) :
    c.ctl.synced = true := by
  cases hs : c.ctl.synced with
  | true => rfl
  | false => rcases h.before hs with he | he <;> contradiction

/-- A quiet step, given what it sent. -/
theorem Eof.quiet_of (h : Eof S c) (q : Quiet c c')
    (hbefore : c'.ctl.synced = false → c'.ctl.state = .synRcvd ∨ c'.ctl.state = .closed)
    (hsent : ∀ p ∈ c'.wire.out, p.flags.has tcpFlagACK = true → p ∈ c.wire.out ∨
      ∃ k, p.ack = seqAt c.base k ∧ (k ≤ c.pos ∨ k = S.length + 1 ∧ c.rx.delivered = S)) :
    Eof S c' := by
  have hbase : c'.base = c.base := by rw [base, base, q.env]
  have hpos : c'.pos = c.pos := by rw [pos, pos, q.delivered]
  exact
    { acks := fun p hp hf => by
        rw [hbase, hpos, q.delivered]
        exact (hsent p hp hf).elim (fun hold => h.acks p hold hf) id
      count := fun hs => by rw [q.nxt, hbase, hpos, q.finAt]; exact h.count (q.synced ▸ hs)
      fins := by rw [q.finAt, hbase, q.delivered]; exact h.fins
      eof := by rw [q.readBuf, q.finAt]; exact h.eof
      closing := fun hs => by rw [q.finAt]; exact h.closing (q.closing hs)
      fin := by rw [q.finReceived, q.finSeq, hbase, hpos]; exact h.fin
      before := hbefore }

theorem Eof.quiet (h : Eof S c) (q : Quiet c c') (hs : c.ctl.synced = true) : Eof S c' := by
  refine h.quiet_of q (fun hu => ?_) fun p hp hf => ?_
  · rw [q.synced, hs] at hu; cases hu
  · obtain ⟨ps, hout, hack⟩ := q.sent
    rw [hout] at hp
    rcases List.mem_append.1 hp with hp | hp
    · exact .inl hp
    · exact .inr ((hack p hp hs hf).1 ▸ h.ackable hs)

theorem Eof.txOnly (h : Eof S c) (t : TxOnly c c') (hs : c.ctl.synced = true) : Eof S c' :=
  h.quiet (.of_txOnly t) hs

theorem Eof.silent (h : Eof S c) (q : Quiet c c') (hout : c'.wire.out = c.wire.out)
    (hst : c'.ctl.state = c.ctl.state ∨ c'.ctl.state = .closed) : Eof S c' := by
  refine h.quiet_of q (fun hu => ?_) fun p hp _ => .inl (hout ▸ hp)
  rcases hst with he | he
  · rw [he]; exact h.before (q.synced ▸ hu)
  · exact .inr he

/-- `sendACK` may also be called before there is a receiver: then it acknowledges the SYN. -/
theorem Eof.sendACK (h : Eof S c) : Eof S c.sendACK := by
  refine h.quiet_of (.sendACK c) h.before fun p hp _ => ?_
  rcases List.mem_append.1 hp with hp | hp
  · exact .inl hp
  · right
    rw [List.mem_singleton.1 hp]
    show ∃ k, c.ackNum = _ ∧ _
    rw [ackNum]
    split
    · rename_i hs; exact h.ackable hs
    · exact ⟨0, (seqAt_zero _).symm, .inl (Nat.zero_le _)⟩

/-! ### Counting the FIN -/

theorem Eof.setState (h : Eof S c) (hs : c.ctl.synced = true) (st : TCPState)
    (hst : st = .closing → c.rx.finAt ≠ []) : Eof S (c.setState st) := by
  have hbefore : c.ctl.synced = false → st = .synRcvd ∨ st = .closed := by rw [hs]; simp
  exact { h with closing := hst, before := hbefore }

/-- The FIN is counted where it stands. -/
theorem Eof.countFIN (h : Eof S c) (hs : c.ctl.synced = true) (hf : c.rx.finAt = [])
    (hd : c.rx.delivered = S) : Eof S c.countFIN := by
  have hpos : c.pos = S.length := by rw [pos, hd]
  have hnxt : c.rx.rcv.nxt = seqAt c.base S.length := by rw [h.count hs, hf, hpos]; rfl
  exact
    { h with
      count := fun _ => by
        show c.rx.rcv.nxt + 1 = seqAt c.base (c.pos + (c.rx.finAt ++ [_]).length)
        rw [hf, hpos, hnxt, ← seqAt_succ]; rfl
      fins := .inr ⟨by show c.rx.finAt ++ [_] = _; rw [hf, hnxt]; rfl, hd⟩
      eof := fun _ => by show c.rx.finAt ++ [_] ≠ []; simp
      closing := fun _ => by show c.rx.finAt ++ [_] ≠ []; simp }

theorem Eof.closeReadBuf (h : Eof S c) (hf : c.rx.finAt ≠ []) : Eof S c.closeReadBuf :=
  { h with eof := fun _ => hf }

theorem finAt_countFIN (c : TCPConn) : c.countFIN.rx.finAt ≠ [] := by
  simp [TCPConn.countFIN]

theorem Eof.processFIN (h : Eof S c) (hs : c.ctl.synced = true) (hf : c.rx.finAt = [])
    (hd : c.rx.delivered = S) : Eof S c.processFIN := by
  have hack : Eof S c.countFIN.cancelDelayedACK.sendACK :=
    ((h.countFIN hs hf hd).silent (.cancelDelayedACK _) rfl (.inl rfl)).sendACK
  exact (hack.closeReadBuf (finAt_countFIN c)).setState hs _ (fun he => by cases he)

theorem Eof.enterTimeWait (h : Eof S c) (hs : c.ctl.synced = true) (hf : c.rx.finAt ≠ []) :
    Eof S c.enterTimeWait :=
  ((h.setState hs .timeWait (fun he => by cases he)).closeReadBuf hf).silent (.of_silent rfl rfl rfl rfl rfl rfl)
    rfl (.inl rfl)

/-- Where `rcv.nxt` is the position of the FIN, nothing is missing and no FIN has been counted. -/
theorem Eof.due (h : Eof S c) (hs : c.ctl.synced = true) (hpre : c.rx.delivered <+: S)
    (hnxt : c.rx.rcv.nxt = seqAt c.base S.length) (hnear : S.length < c.pos + 2 ^ 32) :
    c.rx.finAt = [] ∧ c.rx.delivered = S := by
  have hle : c.pos ≤ S.length := hpre.length_le
  rw [h.count hs] at hnxt
  rcases h.fins with hf | ⟨hf, hd⟩
  · rw [hf, List.length_nil, Nat.add_zero, seqAt_inj _ (by omega) hnear] at hnxt
    exact ⟨hf, hpre.eq_of_length hnxt⟩
  · have hpos : c.pos = S.length := by rw [pos, hd]
    rw [hf, hpos, List.length_singleton, seqAt_inj _ (by omega) (by omega)] at hnxt
    omega

theorem Eof.deferredFIN (h : Eof S c) (hs : c.ctl.synced = true) (hpre : c.rx.delivered <+: S) :
    Eof S c.deferredFIN := by
  rw [TCPConn.deferredFIN]
  split
  · rename_i hfin
    obtain ⟨hseq, hnear⟩ := h.fin hfin.1
    obtain ⟨hf, hd⟩ := h.due hs hpre (hfin.2.trans hseq) hnear
    exact Eof.processFIN { h with fin := (fun he => by cases he) } hs hf hd
  · exact h

/-! ### Segments of the stream with the FIN at its end -/

/-- A segment that carries bytes of `S` from an offset within `2 ^ 31` of the receiver, and a FIN only
    at the end of `S`. -/
def FinSlice (S : List UInt8) (c : TCPConn) (seg : Segment) : Prop :=
  seg.payload = [] ∧ seg.flags.has tcpFlagFIN = false ∨
  ∃ o, seg.seq = c.env.irs + 1 + UInt32.ofNat o ∧ seg.payload <+: S.drop o ∧
    o ≤ c.pos + 2 ^ 31 ∧ c.pos ≤ o + 2 ^ 31 ∧
    (seg.flags.has tcpFlagFIN = true → o + seg.payload.length = S.length)

theorem FinSlice.slice {seg : Segment} (h : FinSlice S c seg) : Slice S c seg := by
  rcases h with ⟨hnil, -⟩ | ⟨o, h1, h2, h3, h4, -⟩
  · exact .inl hnil
  · exact .inr ⟨o, h1, h2, h3, h4⟩

theorem FinSlice.txOnly {seg : Segment} (h : FinSlice S c seg) (t : TxOnly c c') :
    FinSlice S c' seg := by
  rw [FinSlice, pos, t.env, t.rx]; exact h

/-- A segment with FIN ends at the end of `S`, less than `2 ^ 32` ahead. -/
theorem FinSlice.finSeq {seg : Segment} (h : FinSlice S c seg)
    (hfin : seg.flags.has tcpFlagFIN = true) :
    seg.finSeq = seqAt c.base S.length ∧ S.length < c.pos + 2 ^ 32 := by
  rcases h with ⟨-, hno⟩ | ⟨o, hseq, -, hop, -, hend⟩
  · rw [hfin] at hno; cases hno
  · have hlt := seg.payload_lt
    have ho := hend hfin
    refine ⟨?_, by omega⟩
    rw [← ho, seqAt_add, Segment.finSeq, hseq]; rfl

/-- The payload of a segment with FIN reaches back to `rcv.nxt`, and `readBuf` has room for what is
    missing before the FIN. -/
def FinFits (c : TCPConn) (seg : Segment) : Prop :=
  c.rx.rcv.finReceived = false ∧
  (seg.finSeq - c.rx.rcv.nxt).toNat ≤ min seg.payload.length c.rx.readBuf.free ∧
  (seg.finSeq = c.rx.rcv.nxt ∨ c.rx.readBuf.free ≤ 2 ^ 31)

theorem Eof.taken {c₁ : TCPConn} (h : Eof S c) (t : Taken c c₁) (h₁ : StreamInv S c₁) :
    Eof S c₁ := by
  have hctl : c₁.ctl = c.ctl := by rw [t.same]
  have hwire : c₁.wire = c.wire := by rw [t.same]
  have hbase : c₁.base = c.base := by rw [base, base, t.same]
  have hpos : c.pos ≤ c₁.pos := t.delivered.length_le
  have hall : c.rx.delivered = S → c₁.rx.delivered = S := fun hd =>
    h₁.pre.eq_of_length (le_antisymm h₁.pre.length_le (hd ▸ hpos))
  exact
    { acks := fun p hp hf => by
        obtain ⟨k, hk, hcases⟩ := h.acks p (hwire ▸ hp) hf
        refine ⟨k, hbase ▸ hk, ?_⟩
        rcases hcases with hle | ⟨hk', hd⟩
        · exact .inl (hle.trans hpos)
        · exact .inr ⟨hk', hall hd⟩
      count := fun hs => by
        rcases h.fins with hf | ⟨hf, hd⟩
        · rw [h₁.nxt hs (t.finAt.trans hf), t.finAt, hf]; rfl
        · have hd₁ := hall hd
          rw [t.nxt (by rw [hf]; simp), h.count (hctl ▸ hs), hbase, t.finAt, pos, pos, hd, hd₁]
      fins := by
        rw [t.finAt, hbase]
        exact h.fins.imp id (And.imp_right hall)
      eof := by rw [t.closed, t.finAt]; exact h.eof
      closing := by rw [hctl, t.finAt]; exact h.closing
      fin := fun hr => by
        obtain ⟨h1, h2⟩ := h.fin (t.finReceived ▸ hr)
        exact ⟨by rw [t.finSeq, hbase]; exact h1, by omega⟩
      before := by rw [hctl]; exact h.before }

theorem Eof.handleData (h : Eof S c) (hi : StreamInv S c) (hs : c.ctl.synced = true) {seg : Segment}
    (hslice : Slice S c seg) (hcap : c.rx.readBuf.cap < 2 ^ 32) :
    Eof S (c.handleData seg.seq seg.payload) := by
  obtain ⟨c₁, t, hi₁, he | he⟩ := hi.handleData_taken hs hslice hcap <;> rw [he]
  · exact h.taken t hi₁
  · exact (h.taken t hi₁).deferredFIN (by rw [t.same]; exact hs) hi₁.pre

/-- A FIN that fits finds, after its payload, the whole stream delivered and no FIN counted. -/
theorem Eof.handleData_fits (h : Eof S c) (hi : StreamInv S c) (hs : c.ctl.synced = true)
    {seg : Segment} (hslice : FinSlice S c seg) (hfin : seg.flags.has tcpFlagFIN = true)
    (hfits : FinFits c seg) (hcap : c.rx.readBuf.cap < 2 ^ 32) :
    (c.handleData seg.seq seg.payload).rx.finAt = [] ∧
      (c.handleData seg.seq seg.payload).rx.delivered = S := by
  obtain ⟨hrcv, hmiss, hwnd⟩ := hfits
  obtain ⟨hseq, hnear⟩ := hslice.finSeq hfin
  have hlt := seg.payload_lt
  have hle : c.pos ≤ S.length := hi.pre.length_le
  have hf : c.rx.finAt = [] := by
    rcases h.fins with hf | ⟨hf, hd⟩
    · exact hf
    · -- counted already, so the FIN is one behind `rcv.nxt`
      have hpos : c.pos = S.length := by rw [pos, hd]
      rw [hseq, h.count hs, hf, hpos, List.length_singleton,
        toNat_sub_of_lt _ (by omega) (by omega)] at hmiss
      omega
  have hnxt := hi.nxt hs hf
  rw [hseq, hnxt, toNat_sub_of_le _ hle (by omega)] at hmiss
  obtain ⟨c₁, t, hi₁, he⟩ := hi.handleData_taken hs hslice.slice hcap
  have he : c.handleData seg.seq seg.payload = c₁ := by
    rcases he with he | he
    · exact he
    · rw [he, TCPConn.deferredFIN, t.finReceived, hrcv, if_neg (by simp)]
  refine ⟨by rw [he, t.finAt, hf], ?_⟩
  have hend : S.length ≤ (c.handleData seg.seq seg.payload).rx.delivered.length := by
    rcases Nat.eq_or_lt_of_le hle with hpos | hpos
    · rw [he, ← hpos]; exact t.delivered.length_le
    · obtain ⟨-, hno⟩ | ⟨o, ho, hpre, -, -, hstop⟩ := hslice
      · rw [hfin] at hno; cases hno
      have hstop := hstop hfin
      rcases hi.live hs with hc | ⟨-, hopen⟩
      · exact absurd hf (h.eof hc)
      have hroom : c.rx.readBuf.free ≤ 2 ^ 31 := by
        refine hwnd.resolve_left fun heq => ?_
        rw [hseq, hnxt, seqAt_inj _ hnear (by omega)] at heq
        omega
      obtain ⟨run, hrun⟩ := handleData_delivers (sliceable_Reads S) hopen hi.shut hroom (o := o)
        (by omega) (by omega) hlt (by omega)
      rw [show seg.seq = seqAt c.base o from ho, hrun, List.length_append, List.length_append,
        List.length_drop, show c.rx.delivered.length = c.pos from rfl]
      omega
  rw [he] at hend ⊢
  exact hi₁.pre.eq_of_length (le_antisymm hi₁.pre.length_le hend)

theorem StreamInv.pos_le_takePayload (hi : StreamInv S c) {seg : Segment} (hslice : Slice S c seg)
    (hcap : c.rx.readBuf.cap < 2 ^ 32) : c.pos ≤ (c.takePayload seg).pos := by
  rw [TCPConn.takePayload]
  split
  · rename_i hs
    obtain ⟨c₁, t, -, he | he⟩ := hi.handleData_taken hs hslice hcap <;> rw [he]
    · exact t.delivered.length_le
    · rw [pos, pos, deferredFIN_delivered]; exact t.delivered.length_le
  · exact le_refl _

theorem Eof.takePayload (h : Eof S c) (hi : StreamInv S c) {seg : Segment} (hslice : Slice S c seg)
    (hcap : c.rx.readBuf.cap < 2 ^ 32) : Eof S (c.takePayload seg) := by
  rw [TCPConn.takePayload]
  split
  · rename_i hs; exact h.handleData hi hs hslice hcap
  · exact h

/-! ### The handlers -/

theorem Eof.establishedFIN (h : Eof S c) (hi : StreamInv S c) (hs : c.ctl.synced = true)
    {seg : Segment} (hfin : seg.flags.has tcpFlagFIN = true →
      seg.finSeq = seqAt c.base S.length ∧ S.length < c.pos + 2 ^ 32) :
    Eof S (c.establishedFIN seg) := by
  rw [TCPConn.establishedFIN]
  split_ifs with hflag hnxt
  · obtain ⟨hseq, hnear⟩ := hfin hflag.1
    obtain ⟨hf, hd⟩ := h.due hs hi.pre (hnxt.trans hseq) hnear
    exact h.processFIN hs hf hd
  · have hdefer : Eof S (c.deferFIN seg.finSeq) := { h with fin := fun _ => hfin hflag.1 }
    exact hdefer.quiet (.scheduleACK _ seg) hs
  · exact h.quiet (.scheduleACK _ seg) hs

theorem Eof.handleEstablished (h : Eof S c) (hi : StreamInv S c) (hs : c.ctl.synced = true)
    {seg : Segment} (hslice : FinSlice S c seg) (hcap : c.rx.readBuf.cap < 2 ^ 32) :
    Eof S (c.handleEstablished seg) := by
  have t : TxOnly c (c.resetKeepalive.establishedACK seg) :=
    (TxOnly.resetKeepalive c).trans (.establishedACK _ seg)
  have hslice' := hslice.txOnly t
  have hcap' : (c.resetKeepalive.establishedACK seg).rx.readBuf.cap < 2 ^ 32 := by
    rw [t.rx]; exact hcap
  have hi' := hi.txOnly t
  refine ((h.txOnly t hs).takePayload hi' hslice'.slice hcap').establishedFIN
    (hi'.takePayload hslice'.slice hcap') ?_ fun hfin => ?_
  · rw [(RxOnly.takePayload _ seg).synced, t.ctl]; exact hs
  · obtain ⟨hseq, hnear⟩ := hslice'.finSeq hfin
    have hle := hi'.pos_le_takePayload hslice'.slice hcap'
    exact ⟨by rw [base, (RxOnly.takePayload _ seg).env]; exact hseq, by omega⟩

/-- The payload of a segment whose FIN fits is taken in FIN_WAIT_1 and FIN_WAIT_2. -/
theorem Eof.takePayload_fits (h : Eof S c) (hi : StreamInv S c) (hs : c.ctl.synced = true)
    {seg : Segment} (hslice : FinSlice S c seg) (hfin : seg.flags.has tcpFlagFIN = true)
    (hfits : FinFits c seg) (hcap : c.rx.readBuf.cap < 2 ^ 32) :
    (c.takePayload seg).rx.finAt = [] ∧ (c.takePayload seg).rx.delivered = S := by
  rw [TCPConn.takePayload, if_pos hs]
  exact h.handleData_fits hi hs hslice hfin hfits hcap

theorem FinFits.txOnly {seg : Segment} (h : FinFits c seg) (t : TxOnly c c') : FinFits c' seg := by
  rw [FinFits, t.rx]; exact h

theorem Eof.finWait1FIN (h : Eof S c) (hs : c.ctl.synced = true) (hf : c.rx.finAt = [])
    (hd : c.rx.delivered = S) (acked : Bool) : Eof S (c.finWait1FIN acked) := by
  have hcounted : Eof S c.countFIN.sendACK.closeReadBuf :=
    (h.countFIN hs hf hd).sendACK.closeReadBuf (finAt_countFIN c)
  rw [TCPConn.finWait1FIN]
  split
  · exact hcounted.enterTimeWait hs (finAt_countFIN c)
  · exact hcounted.setState hs _ fun _ => finAt_countFIN c

theorem Eof.ackPayload (h : Eof S c) (seg : Segment) : Eof S (c.ackPayload seg) := by
  rw [TCPConn.ackPayload]
  split
  · exact h
  · exact h.sendACK

theorem Eof.finWait1End (h : Eof S c) (hs : c.ctl.synced = true) (seg : Segment) (acked : Bool) :
    Eof S (c.finWait1End seg acked) := by
  have hack : Eof S (c.ackPayload seg) := h.ackPayload seg
  have hs' : (c.ackPayload seg).ctl.synced = true := (Quiet.ackPayload c seg).synced.trans hs
  rw [TCPConn.finWait1End]
  split
  · exact (hack.setState hs' .finWait2 (fun he => by cases he)).silent
      (.of_silent rfl rfl rfl rfl rfl rfl) rfl (.inl rfl)
  · exact hack

theorem Eof.handleFinWait1 (h : Eof S c) (hi : StreamInv S c) (hs : c.ctl.synced = true)
    {seg : Segment} (hslice : FinSlice S c seg)
    (hfits : seg.flags.has tcpFlagFIN = true → FinFits c seg) (hcap : c.rx.readBuf.cap < 2 ^ 32) :
    Eof S (c.handleFinWait1 seg) := by
  have t : TxOnly c (c.finWait1ACK seg) := .finWait1ACK c seg
  have hcap' : (c.finWait1ACK seg).rx.readBuf.cap < 2 ^ 32 := by rw [t.rx]; exact hcap
  have hs' : (c.finWait1ACK seg).ctl.synced = true := by rw [t.ctl]; exact hs
  have hdata := (h.txOnly t hs).takePayload (hi.txOnly t) (hslice.txOnly t).slice hcap'
  have hs'' : ((c.finWait1ACK seg).takePayload seg).ctl.synced = true :=
    (RxOnly.takePayload _ seg).synced.trans hs'
  rw [TCPConn.handleFinWait1]
  split_ifs with hfin
  · obtain ⟨hf, hd⟩ := (h.txOnly t hs).takePayload_fits (hi.txOnly t) hs' (hslice.txOnly t) hfin.1
      ((hfits hfin.1).txOnly t) hcap'
    exact hdata.finWait1FIN hs'' hf hd _
  · exact hdata.finWait1End hs'' seg _

/-- FIN_WAIT_2 takes the payload as the other states do, and restarts its timer. -/
theorem finWait2Data_eq (hs : c.ctl.synced = true) (seg : Segment) :
    c.finWait2Data seg = c.takePayload seg ∨
      c.finWait2Data seg = (c.takePayload seg).resetFinWait2 := by
  rw [finWait2Data]
  split
  · rename_i hcond
    have hnil : seg.payload.isEmpty = true := hcond.resolve_right (by simp [hs])
    left
    rw [takePayload, if_pos hs, handleData, if_pos hnil]
  · exact .inr rfl

theorem Eof.handleFinWait2 (h : Eof S c) (hi : StreamInv S c) (hs : c.ctl.synced = true)
    {seg : Segment} (hslice : FinSlice S c seg)
    (hfits : seg.flags.has tcpFlagFIN = true → FinFits c seg) (hcap : c.rx.readBuf.cap < 2 ^ 32) :
    Eof S (c.handleFinWait2 seg) := by
  have t : TxOnly c (c.finWait2ACK seg) := .finWait2ACK c seg
  have hcap' : (c.finWait2ACK seg).rx.readBuf.cap < 2 ^ 32 := by rw [t.rx]; exact hcap
  have hs' : (c.finWait2ACK seg).ctl.synced = true := by rw [t.ctl]; exact hs
  have htake := (h.txOnly t hs).takePayload (hi.txOnly t) (hslice.txOnly t).slice hcap'
  have hdata : Eof S ((c.finWait2ACK seg).finWait2Data seg) := by
    rcases finWait2Data_eq hs' seg with he | he <;> rw [he]
    · exact htake
    · exact htake.silent (.of_silent rfl rfl rfl rfl rfl rfl) rfl (.inl rfl)
  have hrx : ((c.finWait2ACK seg).finWait2Data seg).rx
      = ((c.finWait2ACK seg).takePayload seg).rx := by
    rcases finWait2Data_eq hs' seg with he | he <;> rw [he]; rfl
  have hs'' : ((c.finWait2ACK seg).finWait2Data seg).ctl.synced = true :=
    (RxOnly.finWait2Data _ seg).synced.trans hs'
  rw [TCPConn.handleFinWait2]
  split_ifs with hfin
  · obtain ⟨hf, hd⟩ := (h.txOnly t hs).takePayload_fits (hi.txOnly t) hs' (hslice.txOnly t) hfin.1
      ((hfits hfin.1).txOnly t) hcap'
    exact (hdata.countFIN hs'' (by rw [hrx]; exact hf) (by rw [hrx]; exact hd)).sendACK.enterTimeWait
      hs'' (finAt_countFIN _)
  · exact hdata.ackPayload seg

theorem Eof.handleClosing (h : Eof S c) (hs : c.ctl.synced = true) (hst : c.ctl.state = .closing)
    (seg : Segment) : Eof S (c.handleClosing seg) := by
  have t : TxOnly c (c.closingACK seg) := .closingACK c seg
  rw [TCPConn.handleClosing]
  split_ifs
  · exact (h.txOnly t hs).enterTimeWait (by rw [t.ctl]; exact hs) (by rw [t.rx]; exact h.closing hst)
  · exact (h.txOnly t hs).quiet (.reACKFIN _ seg) (by rw [t.ctl]; exact hs)
  · exact h.quiet (.reACKFIN _ seg) hs

theorem Eof.handleRST (h : Eof S c) : Eof S c.handleRST := by
  refine h.silent (.handleRST c) ?_ (.inr ?_) <;> rw [TCPConn.handleRST, closeDone] <;> split <;> rfl

theorem Eof.handleRSTSegment (h : Eof S c) (seg : Segment) : Eof S (c.handleRSTSegment seg) := by
  rw [TCPConn.handleRSTSegment]
  split_ifs
  · exact h
  · exact h.handleRST
  · exact h.sendACK
  · exact h

theorem Eof.sendRSTSegment (h : Eof S c) (seq : UInt32) : Eof S (c.sendRSTSegment seq) := by
  refine h.quiet_of (.sendRSTSegment c seq) h.before fun p hp hf => ?_
  rcases List.mem_append.1 hp with hp | hp
  · exact .inl hp
  · rw [List.mem_singleton.1 hp] at hf
    exact absurd hf (by simp only; decide)

theorem Eof.sendSYNACK (h : Eof S c) (hs : c.ctl.synced = false) : Eof S c.sendSYNACK := by
  refine h.quiet_of (.sendSYNACK c hs) h.before fun p hp _ => ?_
  rcases List.mem_append.1 hp with hp | hp
  · exact .inl hp
  · rw [List.mem_singleton.1 hp]
    exact .inr ⟨0, (seqAt_zero _).symm, .inl (Nat.zero_le _)⟩

theorem Eof.establish (h : Eof S c) (hi : StreamInv S c) (hs : c.ctl.synced = false)
    (hrun : c.ctl.running = true) (seg : Segment) : Eof S (c.establish seg) := by
  obtain ⟨-, hf, -⟩ := hi.unsynced hs
  have hnxt := (hi.establish hs hrun seg).nxt rfl hf
  exact
    { h with
      count := fun _ => by
        rw [hnxt, show (c.establish seg).rx.finAt = c.rx.finAt from rfl, hf]; rfl
      closing := (fun he => by cases he)
      fin := (fun he => by cases he)
      before := (fun he => by cases he) }

theorem Eof.handleSynRcvd (h : Eof S c) (hi : StreamInv S c) (hsyn : c.ctl.state = .synRcvd)
    (hrun : c.ctl.running = true) {seg : Segment} (hslice : Slice S c seg)
    (hcap : c.rx.readBuf.cap < 2 ^ 32) : Eof S (c.handleSynRcvd seg) := by
  have hs := hi.syn hsyn
  have hest : Eof S (c.establish seg).resetKeepalive :=
    (h.establish hi hs hrun seg).txOnly (.resetKeepalive _) rfl
  have hiest : StreamInv S (c.establish seg).resetKeepalive :=
    (hi.establish hs hrun seg).txOnly (.resetKeepalive _)
  rw [TCPConn.handleSynRcvd]
  split_ifs
  · exact h.sendACK
  · exact (h.sendRSTSegment _).handleRST
  · refine Eof.silent ?_ (.handOver _) rfl (.inl rfl)
    rw [synPayload]
    split
    · exact hest
    · exact (hest.handleData hiest rfl hslice hcap).sendACK
  · exact h.sendSYNACK hs
  · exact h

/-- In FIN_WAIT_1 and FIN_WAIT_2, a FIN fits. -/
def FinInTime (c : TCPConn) (seg : Segment) : Prop :=
  seg.flags.has tcpFlagFIN = true → c.ctl.state = .finWait1 ∨ c.ctl.state = .finWait2 →
    FinFits c seg

theorem FinInTime.txOnly {seg : Segment} (h : FinInTime c seg) (t : TxOnly c c') :
    FinInTime c' seg :=
  fun hf hst => (h hf (by rw [← t.ctl]; exact hst)).txOnly t

theorem Eof.dispatch (h : Eof S c) (hi : StreamInv S c) (hrun : c.ctl.running = true) {seg : Segment}
    (hslice : FinSlice S c seg) (hfits : FinInTime c seg) (hcap : c.rx.readBuf.cap < 2 ^ 32) : Eof S (c.dispatch seg) := by
  have hs := h.synced
  cases hst : c.ctl.state <;> simp only [TCPConn.dispatch, hst] <;> rw [hst] at hs <;>
    simp only [ne_eq, reduceCtorEq, not_false_eq_true, forall_const, not_true_eq_false] at hs
  case synRcvd => exact h.handleSynRcvd hi hst hrun hslice.slice hcap
  case established => exact h.handleEstablished hi hs hslice hcap
  case finWait1 => exact h.handleFinWait1 hi hs hslice (hfits · (.inl hst)) hcap
  case finWait2 => exact h.handleFinWait2 hi hs hslice (hfits · (.inr hst)) hcap
  case closeWait => exact h.txOnly (.handleCloseWait c seg) hs
  case closing => exact h.handleClosing hs hst seg
  case lastAck => exact h.quiet (.handleLastAck c seg) hs
  case timeWait => exact h.quiet (.handleTimeWait c seg) hs
  case closed => exact h

theorem Eof.handleSegment (h : Eof S c) (hi : StreamInv S c) (hrun : c.ctl.running = true)
    {seg : Segment} (hslice : FinSlice S c seg) (hfits : FinInTime c seg) (hcap : c.rx.readBuf.cap < 2 ^ 32) :
    Eof S (c.handleSegment seg) := by
  have t : TxOnly c (c.updateTSRecent seg) := .updateTSRecent c seg
  rw [TCPConn.handleSegment]
  split_ifs
  · exact h
  · exact h.handleRSTSegment seg
  · exact h.sendACK
  · have hts : Eof S (c.updateTSRecent seg) := by
      refine h.silent (.of_txOnly t) ?_ (.inl (by rw [t.ctl]))
      rw [updateTSRecent]
      split
      · split <;> rfl
      · rfl
    exact hts.dispatch (hi.txOnly t) (by rw [t.ctl]; exact hrun) (hslice.txOnly t)
      (hfits.txOnly t) (by rw [t.rx]; exact hcap)

theorem Eof.onInbound (h : Eof S c) (hi : StreamInv S c) (hrun : c.ctl.running = true)
    {seg : Segment} (hslice : FinSlice S c seg) (hfits : FinInTime c seg) (hcap : c.rx.readBuf.cap < 2 ^ 32) :
    Eof S (c.onInbound seg) := by
  have hrto : Eof S (c.handleSegment seg).manageRTO := by
    refine (h.handleSegment hi hrun hslice hfits hcap).silent (.manageRTO _) ?_ (.inl ?_)
    all_goals
      rw [manageRTO, armRTO]
      split_ifs <;> rfl
  rw [TCPConn.onInbound, drainForFIN]
  split
  · rename_i hpend
    exact hrto.quiet ((Quiet.of_txOnly (.sendPending _)).trans (.finIfDrained _)) hpend.2
  · exact hrto

theorem Eof.read (h : Eof S c) (n : ℕ) :
    Eof S { c with rx.readBuf := (c.rx.readBuf.readNoBlock n).1 } :=
  { h with eof := fun hc => h.eof ((c.rx.readBuf.closed_readNoBlock n).symm.trans hc) }

end

/-! ### Whole runs -/

/-- The peer sends `S` and its FIN; the application reads at least a byte at a time and calls neither
    `CloseRead` nor `ForceClose`. -/
def SendsStream (S : List UInt8) (s : Sys) : Event → Prop
  | .inbound seg => FinSlice S s.conn seg
  | .readCall n => 0 < n
  | .closeRead | .forceCloseCh => False
  | _ => True

/-- Besides, `readBuf` stays below `2 ^ 32` bytes, and in FIN_WAIT_1 and FIN_WAIT_2 a FIN fits. -/
structure EndsStream (S : List UInt8) (s : Sys) (e : Event) : Prop where
  sends : SendsStream S s e
  cap : s.conn.rx.readBuf.cap < 2 ^ 32
  inTime : ∀ seg, e = .inbound seg → FinInTime s.conn seg

theorem EndsStream.readsWithin {S : List UInt8} {s : Sys} {e : Event} (h : EndsStream S s e) :
    ReadsWithin S s e := by
  obtain ⟨h, hcap, -⟩ := h
  refine ⟨hcap, ?_⟩
  cases e with
  | inbound seg => exact FinSlice.slice h
  | readCall n => exact h
  | closeRead => exact h
  | _ => trivial

theorem eof_init (S : List UInt8) {s : Sys} (h : s.Init) : Eof S s.conn := by
  obtain ⟨hd, irs, iss, options, hr, hw, -, rfl⟩ := Sys.init_iff.1 h
  exact
    { acks := fun p hp _ => by
        rw [List.mem_singleton.1 hp]
        exact ⟨0, (seqAt_zero _).symm, .inl (Nat.zero_le _)⟩
      count := (fun hs => by cases hs)
      fins := .inl rfl
      eof := (fun hc => by cases hc)
      closing := (fun hc => by cases hc)
      fin := (fun hc => by cases hc)
      before := fun _ => .inl rfl }

theorem eof_step {S : List UInt8} {s s' : Sys} {e : Event} (hi : StreamInv S s.conn)
    (h : Eof S s.conn) (hok : EndsStream S s e) (hstep : s.step e = some s') : Eof S s'.conn := by
  obtain ⟨-, st⟩ := Sys.step_inv hstep
  cases hq : Sys.quiet e with
  | true =>
    cases hs : s.conn.ctl.synced with
    | true => exact h.quiet (st.quiet hq) hs
    | false =>
      obtain ⟨hout, hst⟩ := st.unsynced hq hs (h.before hs)
      refine h.quiet_of (st.quiet hq) (fun _ => hst) fun p hp _ => ?_
      exact (hout p hp).imp id fun hack => ⟨0, hack.trans (seqAt_zero _).symm, .inl (Nat.zero_le _)⟩
  | false =>
    cases st <;> simp only [Sys.quiet, reduceCtorEq] at hq
    case inbound seg hrun => exact h.onInbound hi hrun hok.sends (hok.inTime seg rfl) hok.cap
    case forceCloseCh => exact hok.sends.elim
    case readCall n _ => exact h.read n
    case closeRead => exact hok.sends.elim

theorem eof_reach {S : List UInt8} {s : Sys} (hr : Reach Sys.Init Sys.step (EndsStream S) s) :
    StreamInv S s.conn ∧ Eof S s.conn :=
  hr.invariant (I := fun s => StreamInv S s.conn ∧ Eof S s.conn) (fun _ hs => ⟨streamInv_init S hs, eof_init S hs⟩) fun _ _ _ hi hok hstep =>
    ⟨streamInv_step hi.1 hok.readsWithin hstep, eof_step hi.1 hi.2 hok hstep⟩

/-- SAFE: in every run in which the peer sends `S` and its FIN, `readBuf` stays below `2 ^ 32` bytes
    and a FIN that comes in FIN_WAIT_1 or FIN_WAIT_2 fits: every acknowledgment is of a position that
    has been delivered, or of the FIN once all of `S` has been; `readBuf` is closed only then; and
    `rcv.nxt` is advanced over the FIN at most once, at its position. -/
theorem eof_safety {S : List UInt8} {s : Sys} (hr : Reach Sys.Init Sys.step (EndsStream S) s) :
    (∀ p ∈ s.conn.wire.out, p.flags.has tcpFlagACK = true → ∃ k,
      p.ack = s.conn.env.irs + 1 + UInt32.ofNat k ∧
      (k ≤ s.conn.rx.delivered.length ∨ k = S.length + 1 ∧ s.conn.rx.delivered = S)) ∧
    (s.conn.rx.readBuf.closed = true → s.conn.rx.delivered = S) ∧
    s.conn.rx.delivered <+: S ∧
    (s.conn.rx.finAt = [] ∨
      s.conn.rx.finAt = [s.conn.env.irs + 1 + UInt32.ofNat S.length] ∧ s.conn.rx.delivered = S) := by
  obtain ⟨hi, h⟩ := eof_reach hr
  exact ⟨h.acks, fun hc => (h.fins.resolve_left (h.eof hc)).2, hi.pre, h.fins⟩

instance (c : TCPConn) (seg : Segment) : Decidable (FinFits c seg) :=
  inferInstanceAs (Decidable (_ ∧ _ ∧ _))

instance (c : TCPConn) (seg : Segment) : Decidable (FinInTime c seg) :=
  inferInstanceAs (Decidable (_ → _ → _))

/-- A check for `SendsStream`, on a stream of at most `2 ^ 31` bytes. -/
def sendsStream (S : List UInt8) (s : Sys) : Event → Bool
  | .inbound seg => (seg.payload.isEmpty && !seg.flags.has tcpFlagFIN) ||
      (decide (s.conn.pos ≤ 2 ^ 31) && (List.range (S.length + 1)).any fun o =>
        seg.seq == s.conn.env.irs + 1 + UInt32.ofNat o && seg.payload.isPrefixOf (S.drop o) &&
        (!seg.flags.has tcpFlagFIN || decide (o + seg.payload.length = S.length)))
  | .readCall n => decide (0 < n)
  | .closeRead | .forceCloseCh => false
  | _ => true

theorem sendsStream_sound {S : List UInt8} (hS : S.length ≤ 2 ^ 31) {s : Sys} {e : Event}
    (h : sendsStream S s e = true) : SendsStream S s e := by
  cases e with
  | inbound seg =>
    rcases Bool.or_eq_true_iff.1 h with hnil | hsome
    · rw [Bool.and_eq_true, List.isEmpty_iff, Bool.not_eq_true'] at hnil
      exact .inl hnil
    · simp only [Bool.and_eq_true, decide_eq_true_iff, List.any_eq_true, List.mem_range,
        beq_iff_eq, List.isPrefixOf_iff_prefix] at hsome
      obtain ⟨hpos, o, ho, ⟨hseq, hpre⟩, hfin⟩ := hsome
      refine .inr ⟨o, hseq, hpre, by omega, by omega, fun hflag => ?_⟩
      rw [hflag] at hfin
      exact of_decide_eq_true hfin
  | readCall n => exact of_decide_eq_true (p := 0 < n) h
  | closeRead => cases h
  | forceCloseCh => cases h
  | _ => trivial

/-- Two bytes and the FIN in one segment, after our own FIN has been acknowledged. -/
def closedThen (last : Segment) : List Event :=
  [Sys.sampleACK, .closeWrite, .closeCh,
    .inbound (Sys.sampleSegment tcpFlagACK 101 202 1000 [] Sys.length_nil_lt), .inbound last]

theorem eof_safety_finWait2 : ∃ s, Reach Sys.Init Sys.step (EndsStream [1, 2]) s ∧
    s.conn.rx.readBuf.closed = true ∧ s.conn.rx.delivered = [1, 2] := by
  obtain ⟨s, hr, hs⟩ := Sys.exists_reach Sys.init_sample
    (fun s e => sendsStream [1, 2] s e && decide (s.conn.rx.readBuf.cap < 2 ^ 32) &&
      match e with | .inbound seg => decide (FinInTime s.conn seg) | _ => true)
    (fun s => s.conn.rx.readBuf.closed = true)
    (closedThen (Sys.sampleSegment (tcpFlagFIN ||| tcpFlagACK) 101 202 1000 [1, 2]))
    (by decide +kernel)
  have hr' : Reach Sys.Init Sys.step (EndsStream [1, 2]) s := hr.mono fun s e h => by
    simp only [Bool.and_eq_true, decide_eq_true_iff] at h
    refine ⟨sendsStream_sound (by decide) h.1.1, h.1.2, fun seg he => ?_⟩
    subst he
    exact of_decide_eq_true h.2
  exact ⟨s, hr', hs, (eof_safety hr').2.1 hs⟩

/-- In FIN_WAIT_2, a FIN behind a lost byte: EOF is signalled and nothing has been delivered. -/
theorem eof_truncates : ∃ s, Reach Sys.Init Sys.step (SendsStream [1, 2]) s ∧
    s.conn.rx.readBuf.closed = true ∧ s.conn.rx.delivered = [] := by
  obtain ⟨s, hr, hs⟩ := Sys.exists_reach Sys.init_sample (sendsStream [1, 2])
    (fun s => s.conn.rx.readBuf.closed = true ∧ s.conn.rx.delivered = [])
    (closedThen (Sys.sampleSegment (tcpFlagFIN ||| tcpFlagACK) 102 202 1000 [2]))
    (by decide +kernel)
  exact ⟨s, hr.mono fun _ _ => sendsStream_sound (by decide), hs⟩

end Netstack.Tcp
