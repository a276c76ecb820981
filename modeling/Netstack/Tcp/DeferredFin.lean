import Netstack.Tcp.EofSafety
import Netstack.Tcp.DelayedAck
import Netstack.Tcp.WindowPromise

/-! The deferred FIN: an ESTABLISHED connection that has put off the peer's FIN is still short of it.

    `deliverOOO` looks for a deferred FIN whenever it has delivered something. After `CloseRead`,
    `handleData` counts the bytes in order by itself and never gets to `deliverOOO`, so a segment that
    brings the last bytes before the FIN leaves the FIN where it was (`FillsGap`).

    The position of the receiver is a ghost: after `CloseRead` the bytes are dropped, and `rcv.nxt`
    gives it only modulo `2 ^ 32`. -/

namespace Netstack.Tcp
open Netstack.Header Netstack.Serial Netstack.Copy Netstack.Trace TCPConn

namespace TCPConn

/-! ### Data after `CloseRead` -/

section
variable {base : UInt32} {c : TCPConn} {p o : ℕ} {data : List UInt8}

/-- After `CloseRead` the bytes inside the window are counted if they are in order. -/
theorem windowData_shut (hnxt : c.rx.rcv.nxt = seqAt base p) (hshut : c.app.readShutdown = true)
    (hlen : data.length < 2 ^ 31) (hpo : p ≤ o) (hop : o < p + 2 ^ 31) : ∃ m ≤ data.length,
      c.windowData (seqAt base o) data = { c with rx.rcv.nxt := seqAt base (p + m) } ∧
      (m ≠ 0 → o = p ∧ m ≤ c.rcvWnd.toNat) := by
  have hnone : c = { c with rx.rcv.nxt := seqAt base (p + 0) } := by
    rw [Nat.add_zero, ← hnxt]
  rw [windowData_offsets hnxt rfl (by omega) hpo hop]
  split
  · rw [acceptData, if_pos hshut, skipData, hnxt]
    by_cases heq : o = p
    · have hcut : (data.take (p + c.rx.readBuf.free % 2 ^ 32 - o)).length
          = min (p + c.rx.readBuf.free % 2 ^ 32 - o) data.length := List.length_take
      refine ⟨(data.take (p + c.rx.readBuf.free % 2 ^ 32 - o)).length, by omega, ?_, fun _ => ⟨heq, ?_⟩⟩
      · rw [if_pos (by rw [heq]), seqAt_add]
      · rw [rcvWnd, UInt32.toNat_ofNat']
        omega
    · refine ⟨0, Nat.zero_le _, ?_, fun h => absurd rfl h⟩
      rw [if_neg (by rw [seqAt_inj base (by omega) (by omega)]; exact heq), Nat.add_zero]
  · exact ⟨0, Nat.zero_le _, hnone, fun h => absurd rfl h⟩

/-- After `CloseRead`, `handleData` moves `rcv.nxt` over `m` bytes of the segment, those that are in
    order and inside the window, and does nothing about a deferred FIN. -/
theorem handleData_shut (hnxt : c.rx.rcv.nxt = seqAt base p) (hshut : c.app.readShutdown = true)
    (hlen : data.length < 2 ^ 16) (hop : o ≤ p + 2 ^ 31) (hpo : p ≤ o + 2 ^ 31) :
    ∃ (r : Receiver) (m : ℕ), c.handleData (seqAt base o) data = { c with rx.rcv := r } ∧
      r.nxt = seqAt base (p + m) ∧ r.finReceived = c.rx.rcv.finReceived ∧
      r.finSeq = c.rx.rcv.finSeq ∧
      (m ≠ 0 → o ≤ p ∧ p + m ≤ o + data.length ∧ m ≤ c.rcvWnd.toNat) := by
  by_cases hnil : data = []
  · subst hnil
    exact ⟨c.rx.rcv, 0, rfl, hnxt, rfl, rfl, fun h => absurd rfl h⟩
  rw [handleData_offsets hnxt hnil (by omega) hop hpo]
  split
  · have hdrop : (data.drop (p - o)).length = data.length - (p - o) := List.length_drop
    have hshort : (data.drop (p - o)).length < 2 ^ 31 := by omega
    obtain ⟨m, hm, he, hin⟩ := windowData_shut hnxt hshut hshort (le_max_right o p) (by omega)
    refine ⟨_, m, he, rfl, rfl, rfl, fun h => ?_⟩
    obtain ⟨heq, hle⟩ := hin h
    exact ⟨by omega, by omega, hle⟩
  · exact ⟨_, 0, rfl, hnxt, rfl, rfl, fun h => absurd rfl h⟩

end

/-! ### Data while reading is open -/

/-- A deferred FIN whose turn has come. -/
def Due (c : TCPConn) : Prop := c.rx.rcv.finReceived = true ∧ c.rx.rcv.nxt = c.rx.rcv.finSeq

section
variable {c : TCPConn}

theorem not_due_deferredFIN (c : TCPConn) : ¬c.deferredFIN.Due := by
  rw [deferredFIN]
  split
  · rintro ⟨hfin, -⟩
    have hclear : c.clearFIN.processFIN.rx.rcv.finReceived = false :=
      (Quiet.sendACK c.clearFIN.countFIN.cancelDelayedACK).finReceived
    exact absurd (hclear.symm.trans hfin) (by simp)
  · assumption

theorem acceptData_due (hshut : c.app.readShutdown = false) (seq : UInt32) (data : List UInt8) :
    (c.acceptData seq data).rx.rcv.nxt = c.rx.rcv.nxt ∨ ¬(c.acceptData seq data).Due := by
  rw [acceptData, if_neg (by simp [hshut])]
  split
  · split
    · exact .inr (not_due_deferredFIN _)
    · rename_i hzero
      left
      rw [deliver, if_neg hzero, writeData, Nat.eq_zero_of_not_pos hzero]
      exact UInt32.add_zero _
  · split
    · exact .inl (insertOOO_nxt _ _ _).1
    · exact .inl rfl

theorem windowData_due (hshut : c.app.readShutdown = false) (seq : UInt32) (data : List UInt8) :
    (c.windowData seq data).rx.rcv.nxt = c.rx.rcv.nxt ∨ ¬(c.windowData seq data).Due := by
  rw [windowData]
  split
  · exact .inl rfl
  split
  · exact .inl rfl
  · exact acceptData_due hshut _ _

/-- While reading is open, `handleData` leaves `rcv.nxt` where it was or looks for a deferred FIN. -/
theorem handleData_due (hshut : c.app.readShutdown = false) (seq : UInt32) (data : List UInt8) :
    (c.handleData seq data).rx.rcv.nxt = c.rx.rcv.nxt ∨ ¬(c.handleData seq data).Due := by
  rw [handleData]
  split_ifs
  · exact .inl rfl
  · exact .inl rfl
  · exact windowData_due hshut _ _
  · exact windowData_due hshut _ _

end
end TCPConn

/-! ### The receiver in ESTABLISHED -/

/-- The receiver stands at offset `p` of the stream `S`; a FIN it has put off is the one that ends
    `S`. -/
structure Follows (S : List UInt8) (c : TCPConn) (p : ℕ) : Prop where
  nxt : c.rx.rcv.nxt = seqAt c.base p
  within : p ≤ S.length
  isOpen : c.app.readShutdown = false → Open c.base (Reads S) c p
  fin : c.rx.rcv.finReceived = true → c.rx.rcv.finSeq = seqAt c.base S.length ∧ S.length < p + 2 ^ 32

/-- Besides, it is still short of such a FIN. -/
structure Awaits (S : List UInt8) (c : TCPConn) (p : ℕ) : Prop extends Follows S c p where
  short : c.rx.rcv.finReceived = true → p < S.length

section
variable {S : List UInt8} {c c' : TCPConn} {p : ℕ} {seg : Segment}

theorem Follows.quiet (h : Follows S c p) (q : Quiet c c') : Follows S c' p where
  nxt := by rw [q.nxt, base, q.env]; exact h.nxt
  within := h.within
  isOpen hs := by
    have ho := h.isOpen (q.readShutdown ▸ hs)
    rw [base, q.env]
    exact ⟨q.nxt.trans ho.nxt, q.readBuf ▸ ho.closed, by rw [q.readBuf, q.ooo]; exact ho.ooo⟩
  fin hf := by rw [q.finSeq, base, q.env]; exact h.fin (q.finReceived ▸ hf)

theorem Awaits.quiet (h : Awaits S c p) (q : Quiet c c') : Awaits S c' p where
  toFollows := h.toFollows.quiet q
  short hf := h.short (q.finReceived ▸ hf)

/-- The segment carries bytes of `S` from an offset within `2 ^ 31` of `p`, and FIN only at the end. -/
def SliceAt (S : List UInt8) (base : UInt32) (p : ℕ) (seg : Segment) : Prop :=
  seg.payload = [] ∧ seg.flags.has tcpFlagFIN = false ∨
  ∃ o, seg.seq = seqAt base o ∧ seg.payload <+: S.drop o ∧ o ≤ p + 2 ^ 31 ∧ p ≤ o + 2 ^ 31 ∧
    (seg.flags.has tcpFlagFIN = true → o + seg.payload.length = S.length)

theorem SliceAt.finSeq {b : UInt32} (h : SliceAt S b p seg)
    (hfin : seg.flags.has tcpFlagFIN = true) : seg.finSeq = seqAt b S.length ∧ S.length < p + 2 ^ 32 := by
  rcases h with ⟨-, hno⟩ | ⟨o, hseq, -, hop, -, hend⟩
  · exact absurd (hno.symm.trans hfin) (by simp)
  · have hlt := seg.payload_lt
    have ho := hend hfin
    exact ⟨by rw [← ho, seqAt_add, Segment.finSeq, hseq], by omega⟩

/-- How far a step takes the receiver in the peer's stream: over the bytes put into `readBuf`, or,
    after `CloseRead`, over those counted and dropped. -/
def TCPConn.taken (c c' : TCPConn) : ℕ :=
  if c.app.readShutdown then
    (c'.rx.rcv.nxt - c.rx.rcv.nxt).toNat - (c'.rx.finAt.length - c.rx.finAt.length)
  else c'.pos - c.pos

theorem TCPConn.Quiet.taken_from (q : Quiet c c') (d : TCPConn) : c'.taken d = c.taken d := by
  rw [taken, taken, q.readShutdown, q.nxt, q.finAt, pos, pos, pos, q.delivered]

theorem TCPConn.Quiet.taken_to (q : Quiet c c') (d : TCPConn) : d.taken c' = d.taken c := by
  rw [taken, taken, q.nxt, q.finAt, pos, pos, pos, q.delivered]

theorem taken_self (c : TCPConn) : c.taken c = 0 := by
  rw [taken]
  split <;> simp

/-- A segment without FIN that, after `CloseRead`, brings the last bytes before a deferred FIN. -/
structure FillsGap (c : TCPConn) (seg : Segment) : Prop where
  state : c.ctl.state = .established
  shut : c.app.readShutdown = true
  deferred : c.rx.rcv.finReceived = true
  bare : seg.flags.has tcpFlagFIN = false
  nonempty : seg.payload ≠ []
  inOrder : seqGreaterThan seg.seq c.rx.rcv.nxt = false
  last : seg.finSeq = c.rx.rcv.finSeq
  fits : c.rx.rcv.finSeq - c.rx.rcv.nxt ≤ c.rcvWnd

theorem FillsGap.of_quiet (h : FillsGap c' seg) (q : Quiet c c') : FillsGap c seg where
  state := q.established h.state
  shut := q.readShutdown.symm.trans h.shut
  deferred := q.finReceived.symm.trans h.deferred
  bare := h.bare
  nonempty := h.nonempty
  inOrder := q.nxt ▸ h.inOrder
  last := h.last.trans q.finSeq
  fits := by
    have hfits := h.fits
    rwa [rcvWnd, q.nxt, q.finSeq, q.readBuf] at hfits

/-- The payload of a segment while reading is open. -/
theorem Awaits.handleData_open (h : Awaits S c p) (hshut : c.app.readShutdown = false)
    (hcap : c.rx.readBuf.cap < 2 ^ 32) {o : ℕ} (hseq : seg.seq = seqAt c.base o)
    (hpre : seg.payload <+: S.drop o) (hop : o ≤ p + 2 ^ 31) (hpo : p ≤ o + 2 ^ 31)
    (hst : (c.handleData seg.seq seg.payload).ctl.state = .established) :
    Awaits S (c.handleData seg.seq seg.payload) (p + c.taken (c.handleData seg.seq seg.payload)) ∧
      (c.handleData seg.seq seg.payload).rx.rcv.finReceived = c.rx.rcv.finReceived := by
  have hfree : c.rx.readBuf.free < 2 ^ 32 := by
    have := c.rx.readBuf.len_add_free; omega
  obtain ⟨run, c₁, hrec, hq, hopen, hcases⟩ := handleData_takesIn (sliceable_Reads S)
    (h.isOpen hshut) hfree hshut seg.payload_lt hop hpo hpre
  rw [← hseq] at hcases
  have hsame : c.handleData seg.seq seg.payload = c₁ := by
    rcases hcases with he | he
    · exact he
    · rw [he, deferredFIN] at hst ⊢
      split at hst
      · cases hst
      · rename_i hno; rw [if_neg hno]
  have hdue := handleData_due hshut seg.seq seg.payload
  rw [hsame] at hdue ⊢
  have hbase : c₁.base = c.base := by rw [base, base, hrec.same]
  have happ : c₁.app = c.app := by rw [hrec.same]
  have htaken : c.taken c₁ = run.length := by
    rw [taken, hshut, if_neg (by simp), pos, pos, hrec.delivered, List.length_append,
      Nat.add_sub_cancel_left]
  have hwithin : p + run.length ≤ S.length := by
    have hle := hq.length_le
    rw [List.length_drop] at hle
    have := h.within
    omega
  rw [htaken]
  refine ⟨⟨⟨by rw [hbase]; exact hrec.nxt, hwithin, fun _ => by rw [hbase]; exact hopen, fun hf => ?_⟩,
    fun hf => ?_⟩, hrec.finReceived⟩
  · obtain ⟨h1, h2⟩ := h.fin (hrec.finReceived ▸ hf)
    exact ⟨by rw [hbase, hrec.finSeq]; exact h1, by omega⟩
  · obtain ⟨h1, h2⟩ := h.fin (hrec.finReceived ▸ hf)
    have hshort := h.short (hrec.finReceived ▸ hf)
    rcases hdue with hstay | hno
    · rw [hrec.nxt, h.nxt, seqAt_inj _ (by omega) (by omega)] at hstay
      omega
    · rcases Nat.lt_or_ge (p + run.length) S.length with hlt | hge
      · exact hlt
      · refine absurd ⟨hf, ?_⟩ hno
        rw [hrec.nxt, hrec.finSeq, h1, show p + run.length = S.length by omega]

/-- The payload of a segment after `CloseRead`: a deferred FIN may come due, if the segment fills
    the gap before it. -/
theorem Awaits.handleData_shut (h : Awaits S c p) (hshut : c.app.readShutdown = true) {o : ℕ}
    (hseq : seg.seq = seqAt c.base o) (hpre : seg.payload <+: S.drop o) (hop : o ≤ p + 2 ^ 31)
    (hpo : p ≤ o + 2 ^ 31) (hst : (c.handleData seg.seq seg.payload).ctl.state = .established) :
    Follows S (c.handleData seg.seq seg.payload) (p + c.taken (c.handleData seg.seq seg.payload)) ∧
      (c.handleData seg.seq seg.payload).rx.rcv.finReceived = c.rx.rcv.finReceived ∧
      (c.rx.rcv.finReceived = true →
        p + c.taken (c.handleData seg.seq seg.payload) = S.length →
        seg.flags.has tcpFlagFIN = true ∨ FillsGap c seg) := by
  have hest : c.ctl.state = .established := ((RxOnly.handleData c _ _).early (by rw [hst]; rfl)).trans hst
  obtain ⟨r, m, he, hnxt, hfin, hfinSeq, hm⟩ := TCPConn.handleData_shut h.nxt hshut seg.payload_lt hop hpo
  have hlt := seg.payload_lt
  rw [← hseq] at he
  rw [he]
  have hmlt : m < 2 ^ 16 := by
    rcases Nat.eq_zero_or_pos m with h0 | h0
    · omega
    · have := hm (by omega); omega
  have htaken : c.taken { c with rx.rcv := r } = m := by
    rw [taken, if_pos hshut]
    show (r.nxt - c.rx.rcv.nxt).toNat - (c.rx.finAt.length - c.rx.finAt.length) = m
    rw [hnxt, h.nxt, toNat_sub_of_le _ (by omega) (by omega)]
    omega
  have hlen : m ≠ 0 → o + seg.payload.length ≤ S.length := by
    intro h0
    have hle := hpre.length_le
    rw [List.length_drop] at hle
    have := hm h0
    omega
  rw [htaken]
  refine ⟨⟨hnxt, ?_, fun hs => absurd (hshut.symm.trans hs) (by simp), fun hf => ?_⟩, hfin,
    fun hf hend => ?_⟩
  · have := h.within
    by_cases h0 : m = 0
    · omega
    · have := hm h0; have := hlen h0; omega
  · obtain ⟨h1, h2⟩ := h.fin (hfin ▸ hf)
    exact ⟨hfinSeq.trans h1, by omega⟩
  · obtain ⟨h1, h2⟩ := h.fin hf
    have hshort := h.short hf
    have h0 : m ≠ 0 := by omega
    obtain ⟨hle, hreach, hwnd⟩ := hm h0
    have hend' := hlen h0
    cases hbare : seg.flags.has tcpFlagFIN with
    | true => exact .inl rfl
    | false =>
      refine .inr ⟨hest, hshut, hf, hbare, List.ne_nil_of_length_pos (by omega), ?_, ?_, ?_⟩
      · rw [hseq, h.nxt, seqGreaterThan_seqAt _ (by omega) hpo]
        exact decide_eq_false (by omega)
      · rw [Segment.finSeq, hseq, ← seqAt_add, h1]
        congr 1
        omega
      · rw [UInt32.le_iff_toNat_le, h1, h.nxt, toNat_sub_of_le _ (by omega) (by omega)]
        omega

/-- The payload of a segment, in either case. -/
theorem Awaits.takePayload (h : Awaits S c p) (hs : c.ctl.synced = true)
    (hslice : SliceAt S c.base p seg)
    (hcap : c.app.readShutdown = false → c.rx.readBuf.cap < 2 ^ 32)
    (hst : (c.takePayload seg).ctl.state = .established) :
    Follows S (c.takePayload seg) (p + c.taken (c.takePayload seg)) ∧
      (c.takePayload seg).rx.rcv.finReceived = c.rx.rcv.finReceived ∧
      (c.rx.rcv.finReceived = true → p + c.taken (c.takePayload seg) = S.length →
        seg.flags.has tcpFlagFIN = true ∨ FillsGap c seg) := by
  rw [TCPConn.takePayload, if_pos hs] at hst ⊢
  rcases hslice with ⟨hnil, -⟩ | ⟨o, hseq, hpre, hop, hpo, -⟩
  · rw [hnil, handleData_nil, taken_self]
    exact ⟨h.toFollows, rfl, fun hf he => absurd (h.short hf) (by omega)⟩
  cases hshut : c.app.readShutdown with
  | true => exact h.handleData_shut hshut hseq hpre hop hpo hst
  | false =>
    obtain ⟨ha, hf⟩ := h.handleData_open hshut (hcap hshut) hseq hpre hop hpo hst
    exact ⟨ha.toFollows, hf, fun hf' he => absurd (ha.short (hf.trans hf')) (by omega)⟩

/-- The FIN part of `handleEstablished`: a FIN that is due is processed, another one is put off. -/
theorem Follows.establishedFIN (h : Follows S c p) (hs : c.ctl.synced = true)
    (hfinSeq : seg.flags.has tcpFlagFIN = true →
      seg.finSeq = seqAt c.base S.length ∧ S.length < p + 2 ^ 32)
    (hdue : c.rx.rcv.finReceived = true → p = S.length → seg.flags.has tcpFlagFIN = true)
    (hst : (c.establishedFIN seg).ctl.state = .established) :
    Awaits S (c.establishedFIN seg) p ∧ ∀ d : TCPConn, d.taken (c.establishedFIN seg) = d.taken c := by
  rw [TCPConn.establishedFIN] at hst ⊢
  by_cases hfin : seg.flags.has tcpFlagFIN = true
  · rw [if_pos ⟨hfin, hs⟩] at hst ⊢
    split at hst
    · cases hst
    · rename_i hne
      rw [if_neg hne]
      obtain ⟨h1, h2⟩ := hfinSeq hfin
      have hp : p ≠ S.length := by
        rintro rfl
        exact hne (h.nxt.trans h1.symm)
      have hshort : p < S.length := lt_of_le_of_ne h.within hp
      have hdef : Awaits S (c.deferFIN seg.finSeq) p :=
        ⟨⟨h.nxt, h.within, fun hr => ⟨(h.isOpen hr).nxt, (h.isOpen hr).closed, (h.isOpen hr).ooo⟩,
          fun _ => ⟨h1, h2⟩⟩, fun _ => hshort⟩
      have q := Quiet.scheduleACK (c.deferFIN seg.finSeq) seg
      exact ⟨hdef.quiet q, q.taken_to⟩
  · rw [if_neg fun hc => hfin hc.1]
    have q := Quiet.scheduleACK c seg
    refine ⟨Awaits.quiet ⟨h, fun hf => lt_of_le_of_ne h.within fun he => hfin (hdue hf he)⟩ q,
      q.taken_to⟩

/-- A segment in ESTABLISHED, unless it fills the gap before a deferred FIN after `CloseRead`. -/
theorem Awaits.handleEstablished (h : Awaits S c p) (hs : c.ctl.synced = true)
    (hslice : SliceAt S c.base p seg)
    (hcap : c.app.readShutdown = false → c.rx.readBuf.cap < 2 ^ 32) (hgap : ¬FillsGap c seg)
    (hst : (c.handleEstablished seg).ctl.state = .established) :
    Awaits S (c.handleEstablished seg) (p + c.taken (c.handleEstablished seg)) := by
  have t : TxOnly c (c.resetKeepalive.establishedACK seg) :=
    (TxOnly.resetKeepalive c).trans (.establishedACK _ seg)
  have q := Quiet.of_txOnly t
  rw [TCPConn.handleEstablished] at hst ⊢
  generalize c.resetKeepalive.establishedACK seg = c₁ at *
  have hst₂ : (c₁.takePayload seg).ctl.state = .established :=
    ((RxOnly.establishedFIN _ seg).early (by rw [hst]; rfl)).trans hst
  have hbase : (c₁.takePayload seg).base = c.base := by
    rw [base, base, (RxOnly.takePayload c₁ seg).env, t.env]
  have hs₂ : (c₁.takePayload seg).ctl.synced = true :=
    (RxOnly.takePayload c₁ seg).synced.trans (q.synced.trans hs)
  obtain ⟨hf, hrcv, hdue⟩ := (h.quiet q).takePayload (q.synced.trans hs)
    (by rw [base, t.env]; exact hslice) (by rw [t.app, t.rx]; exact hcap) hst₂
  rw [q.taken_from] at hf hdue
  have hfinSeq : seg.flags.has tcpFlagFIN = true → seg.finSeq = seqAt (c₁.takePayload seg).base S.length ∧
      S.length < p + c.taken (c₁.takePayload seg) + 2 ^ 32 := by
    intro hfin
    obtain ⟨h1, h2⟩ := hslice.finSeq hfin
    exact ⟨by rw [hbase]; exact h1, by omega⟩
  obtain ⟨ha, htaken⟩ := hf.establishedFIN hs₂ hfinSeq (fun hfin he =>
    (hdue (hrcv.symm.trans hfin) he).resolve_right fun hg => hgap (hg.of_quiet q)) hst
  rw [htaken]
  exact ha

/-- `handleSegment` lets the segment through to the handler of a state past SYN_RCVD. -/
structure TCPConn.Heeds (c : TCPConn) (seg : Segment) : Prop where
  paws : c.pawsDrop seg = false
  rst : seg.flags.has tcpFlagRST = false
  syn : seg.flags.has tcpFlagSYN = false

/-- The same for the run loop. -/
theorem Awaits.onInbound (h : Awaits S c p) (hs : c.ctl.synced = true)
    (hest : c.ctl.state = .established) (hslice : SliceAt S c.base p seg)
    (hcap : c.app.readShutdown = false → c.rx.readBuf.cap < 2 ^ 32)
    (hgap : c.Heeds seg → ¬FillsGap c seg)
    (hst : (c.onInbound seg).ctl.state = .established) :
    Awaits S (c.onInbound seg) (p + c.taken (c.onInbound seg)) := by
  have hend : Quiet (c.handleSegment seg) (c.onInbound seg) :=
    (Quiet.manageRTO _).trans (.drainForFIN _)
  have hst₁ := hend.established hst
  refine Awaits.quiet ?_ hend
  rw [hend.taken_to]
  have hquiet : ∀ {d : TCPConn}, Quiet c d → Awaits S d (p + c.taken d) := by
    intro d q
    rw [q.taken_to, taken_self]
    exact h.quiet q
  rw [handleSegment] at hst₁ ⊢
  split_ifs at hst₁ ⊢ with hpaws hrst hsyn
  · exact hquiet (.refl c)
  · exact hquiet (.handleRSTSegment c seg)
  · exact hquiet (.sendACK c)
  · have t := TxOnly.updateTSRecent c seg
    have q := Quiet.of_txOnly t
    have hest₁ : (c.updateTSRecent seg).ctl.state = .established := by rw [t.ctl]; exact hest
    rw [dispatch, hest₁] at hst₁ ⊢
    rw [← q.taken_from]
    refine (h.quiet q).handleEstablished (q.synced.trans hs) (by rw [base, t.env]; exact hslice)
      (by rw [t.app, t.rx]; exact hcap) (fun hg => hgap ⟨by simpa using hpaws, by simpa using hrst, ?_⟩
      (hg.of_quiet q)) hst₁
    simpa [hest] using hsyn

/-! ### The handshake -/

/-- Before the handshake ends: the application is not there yet, and nothing has been received. -/
structure Unopened (c : TCPConn) (p : ℕ) : Prop where
  shut : c.app.readShutdown = false
  isOpen : c.rx.readBuf.closed = false
  position : p = 0

theorem Unopened.quiet (h : Unopened c p) (q : Quiet c c') : Unopened c' p :=
  ⟨q.readShutdown.trans h.shut, q.readBuf ▸ h.isOpen, h.position⟩

/-- A segment that leaves the connection in SYN_RCVD does nothing to the receive side. -/
theorem quiet_of_synRcvd (hs : c.ctl.synced = false) (hsyn : c.ctl.state = .synRcvd)
    (hst : (c.onInbound seg).ctl.state = .synRcvd) : Quiet c (c.onInbound seg) := by
  have hend : Quiet (c.handleSegment seg) (c.onInbound seg) :=
    (Quiet.manageRTO _).trans (.drainForFIN _)
  obtain ⟨-, hsync⟩ := (handleSegment_ctl c seg).synRcvd (hend.synRcvd hst)
  refine (onInbound_unsynced hs (.inl hsyn) seg).resolve_right ?_
  rintro ⟨-, q⟩
  have hopened := (quiet_synPayload (c := ((c.updateTSRecent seg).establish seg).resetKeepalive) rfl
    seg).synced.trans (RxOnly.takePayload _ seg).synced
  have hsynced := q.synced.trans hopened
  rw [hend.synced, hsync, hs] at hsynced
  cases hsynced

theorem Unopened.awaits (h : Unopened c p) (seg : Segment) : Awaits S (c.establish seg) p := by
  obtain rfl := h.position
  have hnxt : (c.establish seg).rx.rcv.nxt = seqAt (c.establish seg).base 0 := by
    rw [seqAt_zero]; rfl
  exact ⟨⟨hnxt, Nat.zero_le _, fun _ => ⟨hnxt, h.isOpen, trivial⟩, fun hf => by cases hf⟩,
    fun hf => by cases hf⟩

theorem Unopened.onInbound (h : Unopened c p) (hs : c.ctl.synced = false)
    (hsyn : c.ctl.state = .synRcvd) (hslice : SliceAt S c.base p seg)
    (hcap : c.app.readShutdown = false → c.rx.readBuf.cap < 2 ^ 32)
    (hst : (c.onInbound seg).ctl.state = .established) :
    Awaits S (c.onInbound seg) (p + c.taken (c.onInbound seg)) := by
  rcases onInbound_unsynced hs (.inl hsyn) seg with q | ⟨-, q⟩
  · exact absurd (hsyn.symm.trans (q.established hst)) (by simp)
  have t := TxOnly.updateTSRecent c seg
  have q₁ := Quiet.of_txOnly t
  have q₂ : Quiet ((c.updateTSRecent seg).establish seg)
      ((c.updateTSRecent seg).establish seg).resetKeepalive := .of_txOnly (.resetKeepalive _)
  have hopened : Awaits S ((c.updateTSRecent seg).establish seg).resetKeepalive p :=
    ((h.quiet q₁).awaits seg).quiet q₂
  have hfrom : ∀ d, ((c.updateTSRecent seg).establish seg).resetKeepalive.taken d = c.taken d := by
    intro d
    rw [q₂.taken_from, ← q₁.taken_from]
    rw [taken, taken, show ((c.updateTSRecent seg).establish seg).app = (c.updateTSRecent seg).app from rfl,
      (h.quiet q₁).shut]
    rfl
  have q₃ := (quiet_synPayload (c := ((c.updateTSRecent seg).establish seg).resetKeepalive) rfl seg).trans q
  have hslice' : SliceAt S ((c.updateTSRecent seg).establish seg).resetKeepalive.base p seg := by
    show SliceAt S (c.updateTSRecent seg).base p seg
    rw [base, t.env]
    exact hslice
  obtain ⟨hf, hrcv, -⟩ := hopened.takePayload rfl hslice' (fun _ => by
    show (c.updateTSRecent seg).rx.readBuf.cap < 2 ^ 32
    rw [t.rx]
    exact hcap h.shut) (q₃.established hst)
  rw [hfrom] at hf
  rw [q₃.taken_to]
  exact Awaits.quiet ⟨hf, fun hfin => by cases hrcv.symm.trans hfin⟩ q₃

end
/-! ### Whole runs -/

/-- The system with the position of the receiver in the peer's stream. -/
def trackStep : Sys × ℕ → Event → Option (Sys × ℕ) :=
  watch Sys.step fun s s' p => p + s.conn.taken s'.conn

def TrackInit (w : Sys × ℕ) : Prop := w.1.Init ∧ w.2 = 0

/-- The peer sends slices of `S`, and a FIN only at its end. -/
def OneStream (S : List UInt8) (w : Sys × ℕ) : Event → Prop
  | .inbound seg => SliceAt S w.1.conn.base w.2 seg
  | _ => True

/-- Besides, no segment fills the gap before a deferred FIN after `CloseRead`, and until `CloseRead`
    `readBuf` is below `2 ^ 32` bytes when a segment comes in. -/
structure MindsGap (S : List UInt8) (w : Sys × ℕ) (e : Event) : Prop where
  stream : OneStream S w e
  cap : ∀ seg, e = .inbound seg → w.1.conn.app.readShutdown = false →
    w.1.conn.rx.readBuf.cap < 2 ^ 32
  gap : ∀ seg, e = .inbound seg → w.1.conn.Heeds seg → ¬FillsGap w.1.conn seg

/-- What a run keeps: a receiver not there yet, or one short of the FIN it has put off. -/
structure Tracks (S : List UInt8) (c : TCPConn) (p : ℕ) : Prop where
  syn : c.ctl.state = .synRcvd → Unopened c p
  est : c.ctl.state = .established → Awaits S c p

section
variable {S : List UInt8}

theorem tracks_init {w : Sys × ℕ} (h : TrackInit w) : Tracks S w.1.conn w.2 := by
  obtain ⟨s, p⟩ := w
  obtain ⟨hinit, rfl⟩ := h
  obtain ⟨hd, irs, iss, options, hr, hw, -, rfl⟩ := Sys.init_iff.1 hinit
  exact ⟨fun _ => ⟨rfl, rfl, rfl⟩, fun h => by cases h⟩

theorem Tracks.quiet {c c' : TCPConn} {p : ℕ} (h : Tracks S c p) (q : Quiet c c') :
    Tracks S c' (p + c.taken c') := by
  rw [q.taken_to, taken_self]
  exact ⟨fun hs => (h.syn (q.synRcvd hs)).quiet q, fun hs => (h.est (q.established hs)).quiet q⟩

/-- The application reads, or shuts down reading. -/
theorem Awaits.read {c : TCPConn} {p : ℕ} (h : Awaits S c p) (n : ℕ) :
    Awaits S { c with rx.readBuf := (c.rx.readBuf.readNoBlock n).1 } p where
  nxt := h.nxt
  within := h.within
  isOpen hs := by
    have ho := h.isOpen hs
    exact ⟨ho.nxt, (c.rx.readBuf.closed_readNoBlock n).trans ho.closed, ho.ooo.mono (le_refl _)
      (Nat.add_le_add_left (c.rx.readBuf.free_le_free_readNoBlock n) _) (le_refl _)⟩
  fin := h.fin
  short := h.short

theorem Awaits.closeRead {c : TCPConn} {p : ℕ} (h : Awaits S c p) : Awaits S c.closeRead p := by
  rw [TCPConn.closeRead]
  split
  · exact h
  · exact ⟨⟨h.nxt, h.within, (fun hs => by cases hs), h.fin⟩, h.short⟩

theorem Sys.handedOver_of_closeRead {s s' : Sys} (h : s.step .closeRead = some s') :
    s.conn.ctl.handedOver = true := by
  rw [Sys.step] at h
  split at h
  · cases h
  · split at h
    · assumption
    · cases h

theorem tracks_step {w w' : Sys × ℕ} {e : Event} (hr : Reach Sys.Init Sys.step (fun _ _ => True) w.1)
    (h : Tracks S w.1.conn w.2) (hok : MindsGap S w e) (hstep : trackStep w e = some w') :
    Tracks S w'.1.conn w'.2 := by
  obtain ⟨s, p⟩ := w
  obtain ⟨s', p'⟩ := w'
  obtain ⟨he, hp⟩ := watch_eq_some.1 hstep
  dsimp only at he hp hr h ⊢
  subst hp
  obtain ⟨-, st⟩ := Sys.step_inv he
  cases hq : Sys.quiet e with
  | true => exact h.quiet (st.quiet hq)
  | false =>
    cases st <;> simp only [Sys.quiet, reduceCtorEq] at hq
    case inbound seg hrun =>
      have hend : Quiet (s.conn.handleSegment seg) (s.conn.onInbound seg) :=
        (Quiet.manageRTO _).trans (.drainForFIN _)
      have hctl := handleSegment_ctl s.conn seg
      refine ⟨fun hs => ?_, fun hs => ?_⟩
      · have hsyn := (hctl.synRcvd (hend.synRcvd hs)).1
        have q := quiet_of_synRcvd (unsynced_reach hr hsyn) hsyn hs
        dsimp only
        rw [q.taken_to, taken_self]
        exact (h.syn hsyn).quiet q
      · rcases hctl.established (hend.established hs) with hest | hsyn
        · exact (h.est hest).onInbound (established_synced hr hest) hest hok.stream (hok.cap seg rfl)
            (hok.gap seg rfl) hs
        · exact (h.syn hsyn).onInbound (unsynced_reach hr hsyn) hsyn hok.stream (hok.cap seg rfl) hs
    case forceCloseCh =>
      have hclosed := onForceClose_state (doneClosed_reach hr)
      exact ⟨(fun hs => by cases hclosed.symm.trans hs), fun hs => by cases hclosed.symm.trans hs⟩
    case readCall n _ =>
      have htaken : s.conn.taken { s.conn with rx.readBuf := (s.conn.rx.readBuf.readNoBlock n).1 } = 0 :=
        taken_self s.conn
      dsimp only
      rw [htaken]
      refine ⟨fun hs => ?_, fun hs => (h.est hs).read n⟩
      obtain ⟨h1, h2, h3⟩ := h.syn hs
      exact ⟨h1, (s.conn.rx.readBuf.closed_readNoBlock n).trans h2, h3⟩
    case closeRead =>
      have htaken : s.conn.taken s.conn.closeRead = 0 := by
        rw [TCPConn.closeRead]
        split <;> exact taken_self s.conn
      dsimp only
      rw [htaken]
      have hstate : s.conn.closeRead.ctl = s.conn.ctl := by
        rw [TCPConn.closeRead]
        split <;> rfl
      rw [Nat.add_zero]
      refine ⟨fun hs => ?_, fun hs => (h.est (hstate ▸ hs)).closeRead⟩
      have hfresh := fresh_reach hr (unsynced_reach hr (hstate ▸ hs))
      have hover : s.conn.ctl.handedOver = false := congrArg (fun t => t.2.1) hfresh.tokens
      exact absurd (hover.symm.trans (Sys.handedOver_of_closeRead he)) (by simp)

theorem tracks_reach {w : Sys × ℕ} (hr : Reach TrackInit trackStep (MindsGap S) w) :
    Tracks S w.1.conn w.2 := by
  induction hr with
  | start h => exact tracks_init h
  | next hr hok he ih => exact tracks_step hr.unwatch ih hok he

/-- SAFE: in every run in which the peer sends one stream and one FIN, and in which no segment fills
    the gap before a deferred FIN after `CloseRead`, an ESTABLISHED connection that has put off the
    FIN stands strictly before it. -/
theorem deferred_fin_waits {w : Sys × ℕ} (hr : Reach TrackInit trackStep (MindsGap S) w)
    (hst : w.1.conn.ctl.state = .established) (hfin : w.1.conn.rx.rcv.finReceived = true) :
    w.1.conn.rx.rcv.nxt = seqAt w.1.conn.base w.2 ∧
    w.1.conn.rx.rcv.finSeq = seqAt w.1.conn.base S.length ∧
    w.2 < S.length ∧ S.length < w.2 + 2 ^ 32 := by
  have h := (tracks_reach hr).est hst
  exact ⟨h.nxt, (h.fin hfin).1, h.short hfin, (h.fin hfin).2⟩

end

/-- A check for `OneStream`, on a stream of at most `2 ^ 31` bytes. -/
def oneStream (S : List UInt8) (w : Sys × ℕ) : Event → Bool
  | .inbound seg => (seg.payload.isEmpty && !seg.flags.has tcpFlagFIN) ||
      (decide (w.2 ≤ 2 ^ 31) && (List.range (S.length + 1)).any fun o =>
        seg.seq == seqAt w.1.conn.base o && seg.payload.isPrefixOf (S.drop o) &&
        (!seg.flags.has tcpFlagFIN || decide (o + seg.payload.length = S.length)))
  | _ => true

theorem oneStream_sound {S : List UInt8} (hS : S.length ≤ 2 ^ 31) {w : Sys × ℕ} {e : Event}
    (h : oneStream S w e = true) : OneStream S w e := by
  cases e with
  | inbound seg =>
    rcases Bool.or_eq_true_iff.1 h with hnil | hsome
    · rw [Bool.and_eq_true, List.isEmpty_iff, Bool.not_eq_true'] at hnil
      exact .inl hnil
    · simp only [Bool.and_eq_true, decide_eq_true_iff, List.any_eq_true, List.mem_range, beq_iff_eq,
        List.isPrefixOf_iff_prefix, Bool.or_eq_true, Bool.not_eq_true'] at hsome
      obtain ⟨hpos, o, ho, ⟨hseq, hpre⟩, hfin⟩ := hsome
      refine .inr ⟨o, hseq, hpre, by omega, by omega, fun hf => ?_⟩
      exact hfin.resolve_left (by rw [hf]; simp)
  | _ => trivial

theorem exists_track (ok : Sys × ℕ → Event → Bool) (P : Sys × ℕ → Prop) [DecidablePred P]
    (es : List Event) (h : (exec trackStep (fun w e => ok w e = true) (Sys.sample, 0) es).any
      (fun w => P w) = true) : ∃ w, Reach TrackInit trackStep (fun w e => ok w e = true) w ∧ P w :=
  exists_reach_exec ⟨Sys.init_sample, rfl⟩ es h

/-- A check for `MindsGap`. -/
def mindsGap (S : List UInt8) (w : Sys × ℕ) (e : Event) : Bool :=
  oneStream S w e &&
  match e with
  | .inbound seg => decide (w.1.conn.rx.readBuf.cap < 2 ^ 32) &&
      (!w.1.conn.app.readShutdown || seg.finSeq != w.1.conn.rx.rcv.finSeq)
  | _ => true

theorem mindsGap_sound {S : List UInt8} (hS : S.length ≤ 2 ^ 31) {w : Sys × ℕ} {e : Event}
    (h : mindsGap S w e = true) : MindsGap S w e := by
  obtain ⟨hstream, h⟩ := Bool.and_eq_true_iff.1 h
  refine ⟨oneStream_sound hS hstream, ?_, ?_⟩
  · rintro seg rfl -
    exact of_decide_eq_true (Bool.and_eq_true_iff.1 h).1
  · rintro seg rfl - hgap
    have hlast := (Bool.and_eq_true_iff.1 h).2
    simp [hgap.shut, hgap.last] at hlast

/-- The FIN of a stream of two bytes comes first. After `CloseRead` the first byte brings the receiver
    closer to it. -/
theorem deferred_fin_waits_shut : ∃ w, Reach TrackInit trackStep (MindsGap [1, 2]) w ∧
    w.1.conn.app.readShutdown = true ∧ w.1.conn.rx.rcv.nxt = seqAt w.1.conn.base w.2 ∧
    w.1.conn.rx.rcv.finSeq = seqAt w.1.conn.base [1, 2].length ∧
    w.2 < [1, 2].length ∧ [1, 2].length < w.2 + 2 ^ 32 := by
  obtain ⟨w, hr, hshut, hst, hfin⟩ := exists_track (mindsGap [1, 2])
    (fun w => w.1.conn.app.readShutdown = true ∧ w.1.conn.ctl.state = .established ∧
      w.1.conn.rx.rcv.finReceived = true)
    [Sys.sampleACK, .inbound (Sys.sampleSegment (tcpFlagFIN ||| tcpFlagACK) 103 201 1000 []),
      .closeRead, .inbound (Sys.sampleSegment tcpFlagACK 101 201 1000 [1])] (by decide +kernel)
  have hr' := hr.mono fun _ _ => mindsGap_sound (by decide)
  exact ⟨w, hr', hshut, deferred_fin_waits hr' hst hfin⟩

/-- When both bytes come in one segment, the receiver has caught up with the FIN and does not
    process it. -/
theorem deferred_fin_stuck : ∃ w, Reach TrackInit trackStep (OneStream [1, 2]) w ∧
    w.1.conn.ctl.state = .established ∧ w.1.conn.rx.rcv.finReceived = true ∧
    w.1.conn.rx.rcv.nxt = w.1.conn.rx.rcv.finSeq ∧ w.2 = [1, 2].length := by
  obtain ⟨w, hr, hw⟩ := exists_track (oneStream [1, 2])
    (fun w => w.1.conn.ctl.state = .established ∧ w.1.conn.rx.rcv.finReceived = true ∧
      w.1.conn.rx.rcv.nxt = w.1.conn.rx.rcv.finSeq ∧ w.2 = [1, 2].length)
    [Sys.sampleACK, .inbound (Sys.sampleSegment (tcpFlagFIN ||| tcpFlagACK) 103 201 1000 []),
      .closeRead, .inbound (Sys.sampleSegment tcpFlagACK 101 201 1000 [1, 2])] (by decide +kernel)
  exact ⟨w, hr.mono fun _ _ => oneStream_sound (by decide), hw⟩

end Netstack.Tcp
