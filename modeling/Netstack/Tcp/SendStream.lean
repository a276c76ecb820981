import Netstack.Tcp.SendSteps

/-! Send-stream integrity.

    Let `W` be the bytes `Write` has accepted. In every reachable state the retransmission queue is a
    contiguous stretch of `W` that ends at `snd.nxt`, `writeBuf` holds the rest of `W`, and whatever
    was put on the wire at sequence number `s` is what `W` holds at that offset. Only the place of
    `snd.una` in the queue depends on 32-bit comparisons, and so on fewer than `2 ^ 31` bytes being
    in flight. -/

namespace Netstack.Tcp
open Netstack.Header Netstack.Serial Netstack.Trace

namespace TCPConn

/-- The queue covers the offsets from `x` to `n` of the send stream; `f` says that our FIN, which
    comes after all of it, is among them or has been. -/
structure Sending (c : TCPConn) (x n : ℕ) (f : Bool) : Prop where
  chain : Chain (c.env.iss + 1) x c.tx.snd.unacked n
  nxt : c.tx.snd.nxt = seqAt (c.env.iss + 1) n
  bytes : payloads c.tx.snd.unacked ++ c.tx.writeBuf.contents = c.tx.accepted.drop x
  una : ∃ u, x ≤ u ∧ u ≤ n ∧ c.tx.snd.una = seqAt (c.env.iss + 1) u ∧
    ∀ e ∈ c.tx.snd.unacked.head?, u < x + e.width ∨ x + 2 ^ 31 ≤ u
  data : f = false → n + c.tx.writeBuf.contents.length = c.tx.accepted.length ∧
    ∀ e ∈ c.tx.snd.unacked, e.fin = false
  ended : f = true → n = c.tx.accepted.length + 1 ∧ c.tx.writeBuf.contents = []
  out : ∀ p ∈ c.wire.out, p.payload ≠ [] →
    ∃ o, p.seq = seqAt (c.env.iss + 1) o ∧ p.payload <+: c.tx.accepted.drop o
  fins : ∀ p ∈ c.wire.out, p.flags.has tcpFlagFIN = true →
    f = true ∧ p.seq = seqAt (c.env.iss + 1) c.tx.accepted.length

variable {c c' : TCPConn} {x n : ℕ} {f : Bool}

theorem head_of_sent {l l' : List UnackedSegment} {e : UnackedSegment}
    (h : l.map UnackedSegment.sent = l'.map UnackedSegment.sent) (he : e ∈ l.head?) :
    ∃ e' ∈ l'.head?, e'.width = e.width := by
  cases l with
  | nil => cases he
  | cons a l =>
    cases l' with
    | nil => cases h
    | cons a' l' =>
      simp only [List.head?_cons, Option.mem_def, Option.some.injEq] at he
      simp only [List.map_cons, List.cons.injEq, UnackedSegment.sent, Prod.mk.injEq] at h
      refine ⟨a', rfl, ?_⟩
      rw [UnackedSegment.width, UnackedSegment.width, ← he, h.1.2.1, h.1.2.2]

/-- A FIN sent from the queue stands after all data. -/
theorem Sending.fin_entry (h : Sending c x n f) {e : UnackedSegment} (he : e ∈ c.tx.snd.unacked)
    (hfin : e.fin = true) {seq : UInt32} (hseq : e.seq = seq) :
    f = true ∧ seq = seqAt (c.env.iss + 1) c.tx.accepted.length := by
  cases f with
  | false => exact absurd ((h.data rfl).2 e he ▸ hfin) (by simp)
  | true =>
    obtain ⟨m, hm, hes⟩ := h.chain.fin_seq he hfin
    have hn := (h.ended rfl).1
    refine ⟨rfl, ?_⟩
    rw [← hseq, hes, show m = c.tx.accepted.length by omega]

theorem Sending.resends (h : Sending c x n f) (r : Resends c c') : Sending c' x n f where
  chain := by rw [r.env]; exact h.chain.congr r.queue.symm
  nxt := by rw [r.nxt, r.env]; exact h.nxt
  bytes := by rw [r.contents, r.accepted, payloads_congr r.queue]; exact h.bytes
  una := by
    obtain ⟨u, hx, hn, hu, hhead⟩ := h.una
    refine ⟨u, hx, hn, by rw [r.una, r.env]; exact hu, fun e he => ?_⟩
    obtain ⟨e', he', hw⟩ := head_of_sent r.queue he
    rw [← hw]
    exact hhead e' he'
  data hf := by
    obtain ⟨hlen, hfin⟩ := h.data hf
    refine ⟨by rw [r.contents, r.accepted]; exact hlen, fun e he => ?_⟩
    obtain ⟨e', he', hs⟩ := mem_of_sent r.queue he
    simp only [UnackedSegment.sent, Prod.mk.injEq] at hs
    exact hs.2.2 ▸ hfin e' he'
  ended hf := by rw [r.contents, r.accepted]; exact h.ended hf
  out p hp hne := by
    obtain ⟨ps, hps, hsent⟩ := r.out
    rw [r.env, r.accepted]
    rw [hps] at hp
    rcases List.mem_append.1 hp with hp | hp
    · exact h.out p hp hne
    · obtain ⟨e, he, hseq, hdata⟩ := (hsent p hp).1 hne
      obtain ⟨o, ho, hpre⟩ := h.chain.mem h.bytes he
      exact ⟨o, hseq ▸ ho, hdata ▸ hpre⟩
  fins p hp hfin := by
    obtain ⟨ps, hps, hsent⟩ := r.out
    rw [r.env, r.accepted]
    rw [hps] at hp
    rcases List.mem_append.1 hp with hp | hp
    · exact h.fins p hp hfin
    · obtain ⟨e, he, hf, hseq⟩ := (hsent p hp).2 hfin
      exact h.fin_entry he hf hseq

/-! ### New segments -/

/-- `c'` is `c` with the next bytes `data` of `writeBuf` sent at `snd.nxt` and queued as `l`. -/
structure Pushed (c c' : TCPConn) (data : List UInt8) (l : List UnackedSegment) : Prop where
  env : c'.env = c.env
  queue : c'.tx.snd.unacked = c.tx.snd.unacked ++ l
  nxt : c'.tx.snd.nxt = c.tx.snd.nxt + UInt32.ofNat data.length
  una : c'.tx.snd.una = c.tx.snd.una
  accepted : c'.tx.accepted = c.tx.accepted
  contents : c.tx.writeBuf.contents = data ++ c'.tx.writeBuf.contents
  out : ∃ p, c'.wire.out = c.wire.out ++ [p] ∧ p.seq = c.tx.snd.nxt ∧ p.payload = data ∧
    p.flags = tcpFlagACK

theorem Sending.pushed (h : Sending c x n f) {data : List UInt8} {l : List UnackedSegment}
    (hp : Pushed c c' data l) (hne : data ≠ [])
    (hl : Chain (c.env.iss + 1) n l (n + data.length)) (hbytes : payloads l = data)
    (hfin : ∀ e ∈ l, e.fin = false) : Sending c' x (n + data.length) f := by
  -- after a FIN there is nothing left to send
  have hf : f = false := by
    cases f with
    | false => rfl
    | true =>
      have hnil := (h.ended rfl).2
      rw [hp.contents] at hnil
      exact absurd (List.append_eq_nil_iff.1 hnil).1 hne
  obtain ⟨hlen, hopen⟩ := h.data hf
  have hdrop : data <+: c.tx.accepted.drop n := by
    have hn := h.chain.length hopen
    have hcut := congrArg (List.drop (payloads c.tx.snd.unacked).length) h.bytes
    rw [List.drop_left, List.drop_drop, hn, hp.contents] at hcut
    exact ⟨_, hcut⟩
  refine ⟨?_, ?_, ?_, ?_, fun _ => ⟨?_, ?_⟩, (fun ht => ?_), fun p hmem hpay => ?_,
    fun p hmem hflag => ?_⟩
  · rw [hp.env, hp.queue]
    exact h.chain.append hopen hl
  · rw [hp.nxt, hp.env, h.nxt, seqAt_add]
  · rw [hp.queue, hp.accepted, payloads_append, hbytes, List.append_assoc, ← hp.contents]
    exact h.bytes
  · obtain ⟨u, hx, hn, hu, hhead⟩ := h.una
    refine ⟨u, hx, by omega, by rw [hp.una, hp.env]; exact hu, fun e he => ?_⟩
    rw [hp.queue] at he
    cases hq : c.tx.snd.unacked with
    | cons a q =>
      rw [hq] at he hhead
      exact hhead e he
    | nil =>
      have hxn : x = n := by have := h.chain; rw [hq] at this; exact this
      rw [hq, List.nil_append] at he
      cases l with
      | nil => cases he
      | cons a l =>
        simp only [List.head?_cons, Option.mem_def, Option.some.injEq] at he
        rw [← he]
        have := hl.2.1
        omega
  · rw [hp.accepted, ← hlen, hp.contents, List.length_append]
    omega
  · intro e he
    rw [hp.queue] at he
    exact (List.mem_append.1 he).elim (hopen e) (hfin e)
  · rw [hf] at ht
    cases ht
  · obtain ⟨q, hout, hseq, hdata, -⟩ := hp.out
    rw [hout] at hmem
    rw [hp.env, hp.accepted]
    rcases List.mem_append.1 hmem with hmem | hmem
    · exact h.out p hmem hpay
    · rw [List.mem_singleton.1 hmem, hseq, hdata]
      exact ⟨n, h.nxt, hdrop⟩
  · obtain ⟨q, hout, -, -, hflags⟩ := hp.out
    rw [hout] at hmem
    rw [hp.env, hp.accepted]
    rcases List.mem_append.1 hmem with hmem | hmem
    · exact h.fins p hmem hflag
    · rw [List.mem_singleton.1 hmem, hflags] at hflag
      exact absurd hflag (by decide)

/-- Nothing to take: the bytes and the queue stay as they are. -/
theorem Sending.takeBytes (h : Sending c x n f) {k : ℕ} (hk : 0 < k)
    (hnil : (c.tx.writeBuf.readNoBlock k).2 = []) : Sending (c.takeBytes k) x n f := by
  have hcontents : (c.takeBytes k).tx.writeBuf.contents = c.tx.writeBuf.contents := by
    rw [RingBuffer.readNoBlock_snd] at hnil
    have hsplit := List.take_append_drop k c.tx.writeBuf.contents
    rw [hnil, List.nil_append] at hsplit
    exact (RingBuffer.contents_readNoBlock _ hk).trans hsplit
  exact ⟨h.chain, h.nxt, by rw [hcontents]; exact h.bytes, h.una, by rw [hcontents]; exact h.data,
    by rw [hcontents]; exact h.ended, h.out, h.fins⟩

theorem contents_takeBytes (c : TCPConn) {k : ℕ} (hk : 0 < k) : c.tx.writeBuf.contents
    = (c.tx.writeBuf.readNoBlock k).2 ++ (c.tx.writeBuf.readNoBlock k).1.contents := by
  rw [RingBuffer.readNoBlock_snd, RingBuffer.contents_readNoBlock _ hk, List.take_append_drop]

theorem length_readNoBlock_le (c : TCPConn) (k : ℕ) :
    (c.tx.writeBuf.readNoBlock k).2.length ≤ k := by
  rw [RingBuffer.readNoBlock_snd, List.length_take]
  exact min_le_left _ _

theorem Sending.sendNew (h : Sending c x n f) {k : ℕ} (hk : 0 < k) (hle : k ≤ 1500) :
    ∃ n', Sending (c.sendNew k).1 x n' f := by
  rw [TCPConn.sendNew]
  split
  · rename_i hnil
    exact ⟨n, h.takeBytes hk hnil⟩
  · rename_i hne
    have hlen := c.length_readNoBlock_le k
    have hpos := List.length_pos_iff.2 hne
    refine ⟨_, h.pushed ⟨rfl, rfl, rfl, rfl, rfl, c.contents_takeBytes hk, _, rfl, rfl, rfl, rfl⟩ hne
      ⟨h.nxt, ?_, ?_, (fun hf => by cases hf), rfl⟩ (by simp) (by simp)⟩
    · exact hpos
    · show (c.tx.writeBuf.readNoBlock k).2.length < 2 ^ 31
      omega

theorem Sending.sendGSO (h : Sending c x n f) (hm : c.Sizes) {k : ℤ} (hk : 0 < k)
    (hle : k ≤ gsoBufSize) : ∃ n', Sending (c.sendGSO k).1 x n' f := by
  rw [TCPConn.sendGSO, if_neg (by omega)]
  split
  · rename_i hnil
    exact ⟨n, h.takeBytes (by omega) hnil⟩
  · rename_i hne
    have hlen := c.length_readNoBlock_le k.toNat
    have hmss := hm.1
    rw [gsoBufSize] at hle
    have hpos : 0 < c.tx.snd.mss.toNat := by omega
    obtain ⟨h1, h2, h3⟩ := chain_gsoSegments (b := c.env.iss + 1) hpos c.now _ n
      (c.tx.writeBuf.readNoBlock k.toNat).2 le_rfl (by omega)
    rw [← h.nxt] at h1 h2 h3
    exact ⟨_, h.pushed ⟨rfl, rfl, rfl, rfl, rfl, c.contents_takeBytes (by omega), _, rfl, rfl, rfl,
      rfl⟩ hne h1 h2 h3⟩

/-! ### Acknowledgments -/

/-- An acknowledgment that `handleACK` takes for a new one is of an offset up to `snd.nxt`. -/
theorem acked_offset {b ack : UInt32} {u n : ℕ} (hun : u ≤ n)
    (hnew : seqGreaterThan ack (seqAt b u) = true)
    (hvalid : seqGreaterThan ack (seqAt b n) = false) :
    ∃ u', u < u' ∧ u' ≤ n ∧ u' < u + 2 ^ 31 ∧ ack = seqAt b u' := by
  have hack := seqAt_of_sub b ack u
  rw [seqGreaterThan, decide_eq_true_eq, gt_iff_lt, toInt32_pos_iff] at hnew
  refine ⟨u + (ack - seqAt b u).toNat, by omega, ?_, by omega, hack⟩
  by_contra hlt
  rw [hack, seqGreaterThan_seqAt b (by omega) (by omega)] at hvalid
  exact absurd hvalid (by simp; omega)

theorem Sending.acked (h : Sending c x n f) {ack : UInt32}
    (hnew : seqGreaterThan ack c.tx.snd.una = true)
    (hvalid : seqGreaterThan ack c.tx.snd.nxt = false) :
    ∃ x', Sending ((c.advanceUna ack).removeAcked ack) x' n f := by
  obtain ⟨u, hx, hn, hu, -⟩ := h.una
  rw [hu] at hnew
  rw [h.nxt] at hvalid
  obtain ⟨u', hlt, hle, -, rfl⟩ := acked_offset hn hnew hvalid
  have hend : ∀ e ∈ c.tx.snd.unacked, e.fin = true → c.tx.writeBuf.contents = [] := by
    intro e he hfin
    cases f with
    | true => exact (h.ended rfl).2
    | false => rw [(h.data rfl).2 e he] at hfin; cases hfin
  obtain ⟨x', hxx', hx'u, hchain, hbytes, hhead⟩ :=
    dropAcked_chain h.chain h.bytes hend (by omega : x ≤ u') hle
  obtain ⟨s, t, ⟨_, _, _, rfl⟩, he⟩ := removeAcked_eq (c.advanceUna (seqAt (c.env.iss + 1) u'))
    (seqAt (c.env.iss + 1) u')
  rw [he]
  refine ⟨x', hchain, h.nxt, hbytes, ⟨u', hx'u, hle, rfl, hhead⟩, fun hf => ?_, h.ended, h.out,
    h.fins⟩
  obtain ⟨hlen, hfin⟩ := h.data hf
  exact ⟨hlen, fun e hmem => hfin e (dropAcked_subset _ _ hmem)⟩

/-! ### What `Write` and the FIN add -/

theorem Sending.sendFIN (h : Sending c x n false) (hnil : c.tx.writeBuf.contents = []) :
    Sending c.sendFIN x (n + 1) true := by
  obtain ⟨hlen, hfin⟩ := h.data rfl
  rw [hnil, List.length_nil, Nat.add_zero] at hlen
  refine ⟨?_, ?_, ?_, ?_, (fun hf => by cases hf), fun _ => ⟨by rw [hlen]; rfl, hnil⟩, ?_,
    fun p hp hflag => ⟨rfl, ?_⟩⟩
  · exact h.chain.append hfin ⟨h.nxt, Nat.one_pos, by norm_num [UnackedSegment.width], by simp, rfl⟩
  · show c.tx.snd.nxt + 1 = _
    rw [h.nxt]
    exact (seqAt_succ _ _).symm
  · show payloads (c.tx.snd.unacked ++ _) ++ c.tx.writeBuf.contents = c.tx.accepted.drop x
    rw [payloads_append, payloads_cons]
    simpa using h.bytes
  · obtain ⟨u, hx, hn, hu, hhead⟩ := h.una
    refine ⟨u, hx, by omega, hu, fun e he => ?_⟩
    replace he : e ∈ (c.tx.snd.unacked ++ _).head? := he
    cases hq : c.tx.snd.unacked with
    | cons a q =>
      rw [hq] at he hhead
      exact hhead e he
    | nil =>
      have hxn : x = n := by have := h.chain; rw [hq] at this; exact this
      rw [hq] at he
      simp only [List.nil_append, List.head?_cons, Option.mem_def, Option.some.injEq] at he
      rw [← he]
      exact .inl (by rw [UnackedSegment.width]; simp; omega)
  · intro p hp hne
    rcases List.mem_append.1 (show p ∈ c.wire.out ++ [_] from hp) with hp | hp
    · exact h.out p hp hne
    · rw [List.mem_singleton.1 hp] at hne
      exact absurd rfl hne
  · rcases List.mem_append.1 (show p ∈ c.wire.out ++ [_] from hp) with hp | hp
    · exact absurd (h.fins p hp hflag).1 (by simp)
    · rw [List.mem_singleton.1 hp]
      exact h.nxt.trans (by rw [hlen]; rfl)

theorem Sending.copyChunk (h : Sending c x n false) {b : List UInt8} (hb : b ≠ []) :
    Sending (c.copyChunk b) x n false := by
  obtain ⟨hlen, hfin⟩ := h.data rfl
  have hx := h.chain.le
  have hcontents : (c.copyChunk b).tx.writeBuf.contents
      = c.tx.writeBuf.contents ++ b.take (c.tx.writeBuf.writeNoBlock b).2 :=
    RingBuffer.contents_writeNoBlock _ hb
  refine ⟨h.chain, h.nxt, ?_, h.una, fun _ => ⟨?_, hfin⟩, (fun hf => by cases hf),
    fun p hp hne => ?_, fun p hp hflag => absurd (h.fins p hp hflag).1 (by simp)⟩
  · show payloads c.tx.snd.unacked ++ _ = (c.tx.accepted ++ _).drop x
    rw [hcontents, ← List.append_assoc, h.bytes, List.drop_append_of_le_length (by omega)]
  · show n + _ = (c.tx.accepted ++ _).length
    rw [hcontents, List.length_append, List.length_append]
    omega
  · obtain ⟨o, hseq, hpre⟩ := h.out p hp hne
    refine ⟨o, hseq, ?_⟩
    show _ <+: (c.tx.accepted ++ _).drop o
    have ho : o ≤ c.tx.accepted.length := by
      by_contra hlt
      rw [List.drop_eq_nil_of_le (by omega)] at hpre
      exact hne (List.prefix_nil.1 hpre)
    rw [List.drop_append_of_le_length ho]
    exact hpre.trans (List.prefix_append ..)

/-! ### The invariant -/

/-- Some stretch of the send stream is queued. -/
def SendsAs (c : TCPConn) (f : Bool) : Prop := ∃ x n, Sending c x n f

theorem SendsAs.transmits (h : SendsAs c f) (hm : c.Sizes) (ht : Transmits c c') : SendsAs c' f := by
  induction ht with
  | refl => exact h
  | resends _ hr ih =>
    obtain ⟨x, n, hs⟩ := ih
    exact ⟨x, n, hs.resends hr⟩
  | acked _ hnew hvalid ih =>
    obtain ⟨x, n, hs⟩ := ih
    obtain ⟨x', hs'⟩ := hs.acked hnew hvalid
    exact ⟨x', n, hs'⟩
  | new ht hk ih =>
    obtain ⟨x, n, hs⟩ := ih
    obtain ⟨hpos, hle⟩ := hk (ht.sizes hm)
    exact ⟨x, hs.sendNew hpos hle⟩
  | gso ht hk ih =>
    obtain ⟨x, n, hs⟩ := ih
    obtain ⟨hpos, hle⟩ := hk (ht.sizes hm)
    exact ⟨x, hs.sendGSO (ht.sizes hm) hpos hle⟩
  | fault ht hno => exact absurd (ht.sizes hm) hno

/-- Where the close of the send side stands: `CloseWrite` leaves one token in `closeCh`, the run loop
    turns it into a FIN or into `finPending`, and `finPending` into a FIN. -/
structure Closing (c : TCPConn) (f : Bool) : Prop where
  pending : c.ctl.finPending = true → f = false ∧ c.app.closeOnce = true ∧ c.app.closeCh = false
  token : c.app.closeCh = true → f = false ∧ c.app.closeOnce = true ∧ c.ctl.finPending = false
  once : c.app.closeOnce = true → c.tx.writeBuf.closed = true
  fin : f = true → c.app.closeOnce = true

theorem Transmits.closed (h : Transmits c c') (hc : c.tx.writeBuf.closed = true) :
    c'.tx.writeBuf.closed = true :=
  h.frame (P := fun c => c.tx.writeBuf.closed = true) (fun r => r.drained.closed)
    (fun t hc => t.closed.trans hc) hc

theorem Closing.transmits (h : Closing c f) (ht : Transmits c c') : Closing c' f := by
  have htok := ht.tokens
  simp only [TCPConn.tokens, Prod.mk.injEq] at htok
  obtain ⟨-, -, hpend, hch, honce⟩ := htok
  refine ⟨?_, ?_, ?_, ?_⟩
  · rw [hpend, hch, honce]; exact h.pending
  · rw [hpend, hch, honce]; exact h.token
  · rw [honce]; exact fun ho => ht.closed (h.once ho)
  · rw [honce]; exact h.fin

/-- Before the handshake ends nothing has been written, sent or closed. -/
structure Fresh (c : TCPConn) : Prop where
  queue : c.tx.snd.unacked = []
  contents : c.tx.writeBuf.contents = []
  accepted : c.tx.accepted = []
  out : ∀ p ∈ c.wire.out, p.payload = []
  fins : ∀ p ∈ c.wire.out, p.flags.has tcpFlagFIN = false
  tokens : c.tokens = (false, false, false, false, false)

theorem Fresh.finPending (h : Fresh c) : c.ctl.finPending = false :=
  congrArg (fun t => t.2.2.1) h.tokens

theorem Fresh.resends (h : Fresh c) (r : Resends c c') : Fresh c' where
  queue := by
    have hq := r.queue
    rw [h.queue, List.map_nil] at hq
    exact List.map_eq_nil_iff.1 hq
  contents := r.contents.trans h.contents
  accepted := r.accepted.trans h.accepted
  tokens := r.tokens.trans h.tokens
  out p hp := by
    obtain ⟨ps, hps, hsent⟩ := r.out
    rw [hps] at hp
    rcases List.mem_append.1 hp with hp | hp
    · exact h.out p hp
    · by_contra hne
      obtain ⟨e, he, -⟩ := (hsent p hp).1 hne
      rw [h.queue] at he
      cases he
  fins p hp := by
    obtain ⟨ps, hps, hsent⟩ := r.out
    rw [hps] at hp
    rcases List.mem_append.1 hp with hp | hp
    · exact h.fins p hp
    · by_contra hfin
      obtain ⟨e, he, -⟩ := (hsent p hp).2 (by simpa using hfin)
      rw [h.queue] at he
      cases he

theorem Fresh.takeBytes (h : Fresh c) (k : ℕ) : Fresh (c.takeBytes k) :=
  { h with
    contents := by
      show (c.tx.writeBuf.readNoBlock k).1.contents = []
      rw [RingBuffer.readNoBlock, if_pos ((RingBuffer.contents_eq_nil_iff _).1 h.contents)]
      exact h.contents
    tokens := h.tokens }

theorem Fresh.transmits (h : Fresh c) (ht : Transmits c c') : Fresh c' := by
  induction ht with
  | refl => exact h
  | resends _ hr ih => exact ih.resends hr
  | @acked c₁ ack _ _ _ ih =>
    obtain ⟨s, t, ⟨_, _, _, rfl⟩, he⟩ := removeAcked_eq (c₁.advanceUna ack) ack
    rw [he]
    refine { ih with queue := ?_, tokens := ih.tokens }
    show dropAcked ack c₁.tx.snd.unacked = []
    rw [ih.queue, dropAcked]
  | @new c₁ k _ _ ih =>
    rw [TCPConn.sendNew, if_pos (by rw [RingBuffer.readNoBlock_snd, ih.contents, List.take_nil])]
    exact ih.takeBytes k
  | @gso c₁ k _ _ ih =>
    rw [TCPConn.sendGSO]
    split
    · exact { ih with tokens := ih.tokens }
    · rw [if_pos (by rw [RingBuffer.readNoBlock_snd, ih.contents, List.take_nil])]
      exact ih.takeBytes _
  | fault _ _ ih => exact { ih with tokens := ih.tokens }

theorem Transmits.sound (h : Transmits c c') (hm : c.Sizes) (hc : c.Sound) : c'.Sound := by
  induction h with
  | refl => exact hc
  | resends _ hr ih => exact hr.sound ih
  | @acked c₁ ack _ _ _ ih =>
    obtain ⟨s, t, -, he⟩ := removeAcked_eq (c₁.advanceUna ack) ack
    rw [he]
    exact ih
  | new _ _ ih =>
    rw [TCPConn.sendNew]
    split <;> exact ih
  | @gso c₁ k ht hk ih =>
    have hpos := (hk (ht.sizes hm)).1
    rw [TCPConn.sendGSO, if_neg (by omega)]
    split
    · exact ih
    · have hnone : recordSentGSOFault c₁.tx.snd.mss
          (c₁.tx.writeBuf.readNoBlock k.toNat).2.length = none := by
        obtain ⟨h1, h2⟩ := ht.sizes hm
        rw [maxPayloadSize] at h2
        rw [recordSentGSOFault, maxPayloadSize]
        split_ifs <;> first | rfl | omega
      show (c₁.fault <|> recordSentGSOFault _ _) ≠ _ ∧ (c₁.fault <|> recordSentGSOFault _ _) ≠ _
      rw [hnone, show (c₁.fault <|> none) = c₁.fault by cases c₁.fault <;> rfl]
      exact ih
  | fault ht hno => exact absurd (ht.sizes hm) hno

/-- The invariant of the send side. -/
structure SendInv (c : TCPConn) : Prop where
  syn : c.ctl.state = .synRcvd → c.ctl.synced = false
  fresh : c.ctl.synced = false → Fresh c
  sends : c.ctl.synced = true → ∃ f, SendsAs c f ∧ Closing c f
  mss_le : c.ctl.synced = true → c.tx.snd.mss ≤ maxPayloadSize
  sound : c.ctl.synced = true → c.Sound

/-- The connection has a segment size. -/
def HasMSS (c : TCPConn) : Prop := c.ctl.synced = true → 1 ≤ c.tx.snd.mss

theorem SendInv.sizes (h : SendInv c) (hm : c.HasMSS) (hs : c.ctl.synced = true) : c.Sizes :=
  ⟨hm hs, h.mss_le hs⟩

theorem SendInv.transmits (h : SendInv c) (hm : c.HasMSS) (ht : Transmits c c') : SendInv c' where
  syn hs := by rw [ht.synced]; exact h.syn (ht.synRcvd hs)
  fresh hs := (h.fresh (ht.synced ▸ hs)).transmits ht
  sends hs := by
    rw [ht.synced] at hs
    obtain ⟨f, hsend, hclose⟩ := h.sends hs
    exact ⟨f, hsend.transmits (h.sizes hm hs) ht, hclose.transmits ht⟩
  mss_le hs := by rw [ht.mss]; exact h.mss_le (ht.synced ▸ hs)
  sound hs := by
    rw [ht.synced] at hs
    exact ht.sound (h.sizes hm hs) (h.sound hs)

theorem SendInv.resends (h : SendInv c) (hr : Resends c c') : SendInv c' := by
  have ht := Transmits.of_resends hr
  refine ⟨fun hs => ?_, fun hs => (h.fresh (ht.synced ▸ hs)).transmits ht, fun hs => ?_, fun hs => ?_,
    fun hs => hr.sound (h.sound (ht.synced ▸ hs))⟩
  · rw [ht.synced]
    exact h.syn (ht.synRcvd hs)
  · obtain ⟨f, ⟨x, n, hsend⟩, hclose⟩ := h.sends (ht.synced ▸ hs)
    exact ⟨f, ⟨x, n, hsend.resends hr⟩, hclose.transmits ht⟩
  · rw [hr.mss]
    exact h.mss_le (ht.synced ▸ hs)

theorem HasMSS.transmits (hm : c.HasMSS) (ht : Transmits c c') : c'.HasMSS := by
  rw [HasMSS, ht.synced, ht.mss]
  exact hm

/-- The send side does not look at the state machine. -/
theorem SendsAs.of_eq (h : SendsAs c f) (henv : c'.env = c.env) (htx : c'.tx = c.tx)
    (hout : c'.wire.out = c.wire.out) : SendsAs c' f := by
  obtain ⟨x, n, h1, h2, h3, h4, h5, h6, h7, h8⟩ := h
  refine ⟨x, n, ?_, ?_, ?_, ?_, ?_, ?_, ?_, ?_⟩ <;> simp only [henv, htx, hout] <;> assumption

theorem newSender_mss_le (c : TCPConn) (seg : Segment) : (newSender c.env.iss seg.wnd
    c.env.sndWndScale c.env.handler.mtu c.env.peerMSS c.env.cfg).mss ≤ maxPayloadSize := by
  have hmtu := c.env.handler.mtu_le
  rw [newSender, maxPayloadSize]
  dsimp only
  split_ifs <;> simp only [ipv4MinHeaderSize, tcpMinHeaderSize] at * <;> omega

theorem handshakeSender_mss_le_new (c : TCPConn) (seg : Segment) : (c.handshakeSender seg).mss
    ≤ (newSender c.env.iss seg.wnd c.env.sndWndScale c.env.handler.mtu c.env.peerMSS
        c.env.cfg).mss := by
  rw [handshakeSender]
  split
  · exact Int.sub_le_self _ (by norm_num)
  · exact le_rfl

theorem handshakeSender_mss_le (c : TCPConn) (seg : Segment) :
    (c.handshakeSender seg).mss ≤ maxPayloadSize :=
  (handshakeSender_mss_le_new c seg).trans (newSender_mss_le c seg)

theorem Fresh.establish (h : Fresh c) (seg : Segment) : SendsAs (c.establish seg) false := by
  obtain ⟨m, hm⟩ := c.handshakeSender_eq seg
  have hsnd : (c.establish seg).tx.snd = { newSender c.env.iss seg.wnd c.env.sndWndScale
      c.env.handler.mtu c.env.peerMSS c.env.cfg with mss := m } := hm
  have hbuf : (c.establish seg).tx.writeBuf.contents = [] := h.contents
  have hacc : (c.establish seg).tx.accepted = [] := h.accepted
  refine ⟨0, 0, ?_, ?_, ?_, ⟨0, le_rfl, le_rfl, ?_, ?_⟩, fun _ => ⟨?_, ?_⟩, (fun hf => by cases hf), ?_,
    fun p hp hfin => absurd ((h.fins p hp).symm.trans hfin) (by simp)⟩
  · rw [hsnd]; rfl
  · rw [hsnd, seqAt_zero]; rfl
  · rw [hsnd, hbuf, hacc]; rfl
  · rw [hsnd, seqAt_zero]; rfl
  · rw [hsnd]; exact fun e he => by cases he
  · rw [hbuf, hacc]; rfl
  · rw [hsnd]; exact fun e he => by cases he
  · exact fun p hp hne => absurd (h.out p hp) hne

theorem SendInv.opened (h : SendInv c) (hs : c.ctl.state = .synRcvd) (hok : c.fault = none)
    (seg : Segment) : SendInv (c.opened seg) := by
  have hfresh : Fresh (c.updateTSRecent seg) :=
    (h.fresh (h.syn hs)).resends (.of_rxOnly (.updateTSRecent c seg))
  have htok := hfresh.tokens
  simp only [TCPConn.tokens, Prod.mk.injEq] at htok
  obtain ⟨-, -, hpend, hch, honce⟩ := htok
  have hclose : Closing ((c.updateTSRecent seg).establish seg) false := by
    refine ⟨fun hp => ?_, fun ht => ?_, fun ho => ?_, (fun hf => by cases hf)⟩
    · exact absurd (hpend.symm.trans hp) (by simp)
    · exact absurd (hch.symm.trans ht) (by simp)
    · exact absurd (honce.symm.trans ho) (by simp)
  have hr := opened_rxOnly c seg
  have ht := Transmits.of_rxOnly hr
  have hsynced : (c.opened seg).ctl.synced = true := hr.synced
  have hclose' := hclose.transmits ht
  refine ⟨fun hsyn => absurd (hr.synRcvd hsyn) (by simp [establish, TCPConn.setState]), fun hu => ?_, fun _ => ⟨false, ?_, ?_⟩, fun _ => ?_, fun _ => ?_⟩
  · rw [hsynced] at hu
    cases hu
  · obtain ⟨x, n, hsend⟩ := hfresh.establish seg
    exact SendsAs.of_eq ⟨x, n, hsend.resends (.of_rxOnly hr)⟩ rfl rfl rfl
  · exact ⟨hclose'.pending, hclose'.token, hclose'.once, hclose'.fin⟩
  · exact (le_of_eq ht.mss).trans (handshakeSender_mss_le _ seg)
  · have hnone : (c.opened seg).fault = none :=
      (hr.fault.trans (RxOnly.updateTSRecent c seg).fault).trans hok
    rw [Sound, hnone]
    exact ⟨by simp, by simp⟩

/-! ### The FIN -/

/-- A FIN is owed: `CloseWrite` has run, the run loop has taken its token, and no FIN was sent. -/
structure Owes (c : TCPConn) : Prop where
  sends : SendsAs c false
  once : c.app.closeOnce = true
  token : c.app.closeCh = false

theorem SendInv.owes (h : SendInv c) (hs : c.ctl.synced = true) (hp : c.ctl.finPending = true) :
    Owes c := by
  obtain ⟨f, hsend, hclose⟩ := h.sends hs
  obtain ⟨rfl, honce, hch⟩ := hclose.pending hp
  exact ⟨hsend, honce, hch⟩

theorem SendInv.closed (h : SendInv c) (hs : c.ctl.synced = true) (ho : c.app.closeOnce = true) :
    c.tx.writeBuf.closed = true := by
  obtain ⟨f, -, hclose⟩ := h.sends hs
  exact hclose.once ho

theorem SendInv.finalizeFIN (h : SendInv c) (hs : c.ctl.synced = true) (ho : Owes c)
    (hnil : c.tx.writeBuf.len = 0) : SendInv c.finalizeFIN := by
  have hclosed := h.closed hs ho.once
  have hfin : ∀ st, st ≠ .synRcvd → SendInv (c.clearPending.sendFIN.setState st) := by
    intro st hst
    have hsend : SendsAs c.clearPending.sendFIN true := by
      obtain ⟨x, n, hsend⟩ : SendsAs c.clearPending false := ho.sends.of_eq rfl rfl rfl
      exact ⟨x, n + 1, hsend.sendFIN ((RingBuffer.contents_eq_nil_iff _).2 hnil)⟩
    refine ⟨fun he => absurd he hst, fun hu => absurd (hs.symm.trans hu) (by simp),
      fun _ => ⟨true, hsend.of_eq rfl rfl rfl, ?_⟩, fun _ => h.mss_le hs, h.sound⟩
    exact ⟨(fun hp => by cases hp), fun ht => absurd (ho.token.symm.trans ht) (by simp),
      fun _ => hclosed, fun _ => ho.once⟩
  rw [TCPConn.finalizeFIN.eq_def]
  split
  · exact hfin _ (by simp)
  · exact hfin _ (by simp)
  · refine ⟨h.syn, fun hu => absurd (hs.symm.trans hu) (by simp), fun _ => ⟨false, ?_, ?_⟩,
      h.mss_le, h.sound⟩
    · exact ho.sends.of_eq rfl rfl rfl
    · exact ⟨(fun hp => by cases hp), fun ht => absurd (ho.token.symm.trans ht) (by simp),
        fun _ => hclosed, (fun hf => by cases hf)⟩

theorem SendInv.finIfDrained (h : SendInv c) (hs : c.ctl.synced = true)
    (hp : c.ctl.finPending = true) : SendInv c.finIfDrained := by
  rw [TCPConn.finIfDrained]
  split
  · rename_i hnil
    exact h.finalizeFIN hs (h.owes hs hp) hnil
  · exact h

theorem SendInv.drainForFIN (h : SendInv c) (hm : c.ctl.finPending = true → c.HasMSS) :
    SendInv c.drainForFIN := by
  rw [TCPConn.drainForFIN]
  split
  · rename_i hp
    have ht := Transmits.sendPending c
    exact (h.transmits (hm hp.1) ht).finIfDrained (ht.synced.trans hp.2) (ht.finPending.trans hp.1)
  · exact h

theorem SendInv.onInbound (h : SendInv c) (hm : c.HasMSS) (hok : c.fault = none)
    (seg : Segment) : SendInv (c.onInbound seg) := by
  rw [TCPConn.onInbound]
  rcases handleSegment_cases c seg with ht | ⟨hsyn, he⟩
  · have ht' := ht.resends (.manageRTO _)
    exact (h.transmits hm ht').drainForFIN fun _ => hm.transmits ht'
  · rw [he]
    refine ((h.opened hsyn hok seg).resends (.manageRTO _)).drainForFIN fun hp => ?_
    -- before the handshake ends no FIN is pending
    rw [(Transmits.of_resends (.manageRTO _)).finPending, opened_finPending,
      (h.fresh (h.syn hsyn)).finPending] at hp
    cases hp

theorem SendInv.onWriteNotify (h : SendInv c) (hm : c.HasMSS) : SendInv c.onWriteNotify := by
  have ht := Transmits.onWriteNotifySend c
  rw [TCPConn.onWriteNotify]
  split_ifs with hs hp
  · exact (h.transmits hm ht).finIfDrained (ht.synced.trans hs) (ht.finPending.trans hp)
  · exact h.transmits hm ht
  · exact h.resends (.of_silent rfl)

theorem SendInv.finOrDefer (h : SendInv c) (hs : c.ctl.synced = true) (ho : Owes c) :
    SendInv c.finOrDefer := by
  have hclosed := h.closed hs ho.once
  rw [TCPConn.finOrDefer]
  split
  · refine ⟨h.syn, fun hu => absurd (hs.symm.trans hu) (by simp), fun _ => ⟨false, ?_, ?_⟩,
      h.mss_le, h.sound⟩
    · exact ho.sends.of_eq rfl rfl rfl
    · exact ⟨fun _ => ⟨rfl, ho.once, ho.token⟩, fun ht => absurd (ho.token.symm.trans ht) (by simp),
        fun _ => hclosed, (fun hf => by cases hf)⟩
  · rename_i hlen
    exact h.finalizeFIN hs ho (by simpa [hs] using hlen)

theorem Owes.transmits (h : Owes c) (hm : c.Sizes) (ht : Transmits c c') : Owes c' :=
  ⟨h.sends.transmits hm ht, (congrArg (fun t => t.2.2.2.2) ht.tokens).trans h.once,
    (congrArg (fun t => t.2.2.2.1) ht.tokens).trans h.token⟩

/-- The token of `CloseWrite` is there only after the handshake. -/
theorem SendInv.onClose (h : SendInv c) (hm : c.HasMSS)
    (htoken : c.app.closeCh = true) : SendInv c.onClose := by
  have hs : c.ctl.synced = true := by
    by_contra hu
    have htok := congrArg (fun t => t.2.2.2.1) (h.fresh (by simpa using hu)).tokens
    exact absurd (htoken.symm.trans htok) (by simp)
  obtain ⟨f, hsend, hclose⟩ := h.sends hs
  obtain ⟨rfl, honce, hpend⟩ := hclose.token htoken
  have howes : Owes { c with app.closeCh := false } := ⟨hsend.of_eq rfl rfl rfl, honce, rfl⟩
  have hinv : SendInv { c with app.closeCh := false } := by
    refine ⟨h.syn, fun hu => absurd (hs.symm.trans hu) (by simp),
      fun _ => ⟨false, howes.sends, ?_⟩, h.mss_le, h.sound⟩
    exact ⟨fun hp => absurd (hpend.symm.trans hp) (by simp), (fun ht => by cases ht), hclose.once,
      (fun hf => by cases hf)⟩
  have hflush := Transmits.flush { c with app.closeCh := false }
  have hclosed : SendInv { c with app.closeCh := false }.handleClose := by
    rw [handleClose.eq_def]
    split
    iterate 2
      exact (hinv.transmits hm hflush).finOrDefer (hflush.synced.trans hs)
        (howes.transmits (h.sizes hm hs) hflush)
    exact hinv
  rw [TCPConn.onClose, hs]
  exact hclosed.resends (.armRTO _)

theorem SendInv.closeWrite (h : SendInv c) (hs : c.ctl.synced = true) : SendInv c.closeWrite := by
  rw [TCPConn.closeWrite]
  split
  · exact h
  · rename_i honce
    obtain ⟨f, hsend, hclose⟩ := h.sends hs
    have hf : f = false := by
      cases f with
      | false => rfl
      | true => exact absurd (hclose.fin rfl) honce
    have hpend : c.ctl.finPending = false := by
      by_contra hp
      exact honce (hclose.pending (by simpa using hp)).2.1
    have hr : Resends c { c with tx.writeBuf := c.tx.writeBuf.closeWrite } :=
      ⟨rfl, rfl, fun _ => rfl, rfl, rfl, rfl, rfl, rfl, id, .closeWrite _, rfl, id, [], (List.append_nil _).symm,
        by simp⟩
    refine ⟨h.syn, fun hu => absurd (hs.symm.trans hu) (by simp), fun _ => ⟨f, ?_, ?_⟩,
      h.mss_le, h.sound⟩
    · obtain ⟨x, n, hsend⟩ := hsend
      exact SendsAs.of_eq ⟨x, n, hsend.resends hr⟩ rfl rfl rfl
    · exact ⟨fun hp => absurd (hpend.symm.trans hp) (by simp), fun _ => ⟨hf, rfl, hpend⟩,
        fun _ => rfl, fun _ => rfl⟩

theorem SendInv.copyChunk (h : SendInv c) (hs : c.ctl.synced = true) {b : List UInt8} (hb : b ≠ [])
    (hopen : c.tx.writeBuf.closed = false) : SendInv (c.copyChunk b) := by
  obtain ⟨f, hsend, hclose⟩ := h.sends hs
  have honce : c.app.closeOnce = false := by
    by_contra ho
    exact absurd (hopen.symm.trans (hclose.once (by simpa using ho))) (by simp)
  have hf : f = false := by
    cases f with
    | false => rfl
    | true => exact absurd (honce.symm.trans (hclose.fin rfl)) (by simp)
  subst hf
  obtain ⟨x, n, hsend⟩ := hsend
  refine ⟨h.syn, fun hu => absurd (hs.symm.trans hu) (by simp),
    fun _ => ⟨false, ⟨x, n, hsend.copyChunk hb⟩, ?_⟩, h.mss_le, h.sound⟩
  exact ⟨hclose.pending, hclose.token, fun ho => absurd (honce.symm.trans ho) (by simp), hclose.fin⟩

end TCPConn

/-! ### Runs -/

open TCPConn

theorem sendInv_init {s : Sys} (h : s.Init) : SendInv s.conn := by
  obtain ⟨h, irs, iss, options, hr, hw, -, rfl⟩ := Sys.init_iff.1 h
  refine ⟨fun _ => rfl, fun _ => ⟨rfl, RingBuffer.contents_new _ hw, rfl, ?_, ?_, rfl⟩,
    (fun hs => by cases hs), (fun hs => by cases hs), (fun hs => by cases hs)⟩
  · intro p hp
    rw [List.mem_singleton.1 (show p ∈ [_] from hp)]
  · intro p hp
    rw [List.mem_singleton.1 (show p ∈ [_] from hp)]
    exact (by decide : TCPFlags.has (tcpFlagSYN ||| tcpFlagACK) tcpFlagFIN = false)

/-- The connection has a segment size before the step. -/
def PositiveMSS (s : Sys) (_ : Event) : Prop := s.conn.ctl.synced = true → 1 ≤ s.conn.tx.snd.mss

theorem sendInv_step {s s' : Sys} {e : Event} (h : SendInv s.conn) (hm : PositiveMSS s e)
    (hok : s.conn.fault = none) (hstep : Sys.Step s e s') : SendInv s'.conn := by
  have hover : s.conn.ctl.handedOver = true → s.conn.ctl.synced = true := by
    intro ho
    by_contra hu
    have htok := congrArg (fun t => t.2.1) (h.fresh (by simpa using hu)).tokens
    exact absurd (ho.symm.trans htok) (by simp)
  by_cases he : Sys.resending e = true
  · exact h.resends (hstep.resends he)
  cases hstep
  case inbound seg _ => exact h.onInbound hm hok seg
  case zeroWindowTimer => exact h.transmits hm (.onZeroWindow _)
  case writeNotify => exact h.onWriteNotify hm
  case closeCh _ htoken => exact h.onClose hm htoken
  case writeCopy =>
    rename_i rest written hho hpc hmore hopen hroom
    exact h.copyChunk (hover hho) hmore hopen
  case closeWrite ho => exact h.closeWrite (hover ho)
  case writeCopied | writeBlocked => exact h
  all_goals exact absurd rfl he

/-- Before the handshake ends there is no sender. -/
def Unsynced (c : TCPConn) : Prop := c.ctl.state = .synRcvd → c.ctl.synced = false

/-- Once there is a sender, its segment size stays. -/
theorem TCPConn.Sends.mss {c c' : TCPConn} (h : Sends c c') (hc : Unsynced c) : Unsynced c' ∧
    (c.ctl.synced = true → c'.ctl.synced = true ∧ c'.tx.snd.mss = c.tx.snd.mss) := by
  induction h with
  | refl => exact ⟨hc, fun hs => ⟨hs, rfl⟩⟩
  | transmits _ ht ih =>
    refine ⟨fun hs => ?_, fun hs => ?_⟩
    · rw [ht.synced]
      exact ih.1 (ht.synRcvd hs)
    · rw [ht.synced, ht.mss]
      exact ih.2 hs
  | silent _ he ih =>
    simp only [sendCore, Prod.mk.injEq] at he
    obtain ⟨-, hst, hsync, hsnd, -⟩ := he
    rw [Unsynced, hst, hsync, hsnd]
    exact ih
  | @opened c₁ seg _ hsyn ih =>
    refine ⟨fun hs => ?_, fun hs => ?_⟩
    · exact absurd ((opened_rxOnly c₁ seg).synRcvd hs) (by simp [establish, TCPConn.setState])
    · exact absurd ((ih.1 hsyn).symm.trans (ih.2 hs).1) (by simp)
  | fin _ hst ih =>
    refine ⟨fun hs => ?_, fun hs => ih.2 hs⟩
    rcases hst with ⟨-, rfl⟩ | ⟨-, rfl⟩ <;> cases hs
  | copy _ _ ih => exact ih

theorem unsynced_reach {ok : Sys → Event → Prop} {s : Sys} (hr : Reach Sys.Init Sys.step ok s) :
    Unsynced s.conn := by
  refine hr.invariant (I := fun s => Unsynced s.conn) (fun s h => ?_) fun s e s' h _ hs =>
    ((Sys.step_inv hs).2.sends.mss h).1
  obtain ⟨h, irs, iss, options, hr, hw, -, rfl⟩ := Sys.init_iff.1 h
  exact fun _ => rfl

theorem fresh_step {s s' : Sys} {e : Event} (h : Fresh s.conn) (hstep : Sys.Step s e s')
    (hs : s'.conn.ctl.synced = false) : Fresh s'.conn := by
  have htok := h.tokens
  simp only [TCPConn.tokens, Prod.mk.injEq] at htok
  obtain ⟨hsync, hover, hpend, hch, -⟩ := htok
  by_cases he : Sys.resending e = true
  · exact h.resends (hstep.resends he)
  cases hstep
  case inbound seg _ =>
    rcases handleSegment_cases s.conn seg with ht | ⟨-, hopen⟩
    · have hrto := (h.transmits ht).resends (.manageRTO _)
      show Fresh (drainForFIN _)
      rw [drainForFIN, if_neg (by rw [hrto.finPending]; simp)]
      exact hrto
    · have hdrain : ((s.conn.opened seg).manageRTO).ctl.finPending = false := by
        rw [(Transmits.of_resends (.manageRTO _)).finPending, opened_finPending, hpend]
      have hopened : (s.conn.onInbound seg).ctl.synced = true := by
        rw [onInbound, hopen, drainForFIN, if_neg (by rw [hdrain]; simp),
          (Transmits.of_resends (.manageRTO _)).synced]
        exact (opened_rxOnly s.conn seg).synced
      exact absurd (hs.symm.trans hopened) (by simp)
  case zeroWindowTimer => exact h.transmits (.onZeroWindow _)
  case writeNotify =>
    show Fresh (onWriteNotify _)
    rw [onWriteNotify, if_neg (by simp [hsync])]
    exact h.resends (.of_silent rfl)
  case closeCh _ htoken => exact absurd (hch.symm.trans htoken) (by simp)
  case writeCopy =>
    rename_i hho _ _ _ _
    exact absurd (hover.symm.trans hho) (by simp)
  case closeWrite hho => exact absurd (hover.symm.trans hho) (by simp)
  case writeCopied | writeBlocked => exact h
  all_goals exact absurd rfl he

/-- Before the handshake ends nothing has been written, sent or closed, in any run. -/
theorem fresh_reach {ok : Sys → Event → Prop} {s : Sys} (hr : Reach Sys.Init Sys.step ok s)
    (hs : s.conn.ctl.synced = false) : Fresh s.conn := by
  induction hr with
  | start h => exact (sendInv_init h).fresh hs
  | @next s s' e hr _ he ih =>
    obtain ⟨-, hstep⟩ := Sys.step_inv he
    refine fresh_step (ih (by_contra fun hsync => ?_)) hstep hs
    have hstill := ((hstep.sends.mss (unsynced_reach hr)).2 (by simpa using hsync)).1
    exact absurd (hs.symm.trans hstill) (by simp)

/-- A connection that has a segment size has had it since the handshake. -/
theorem reach_positiveMSS {ok : Sys → Event → Prop} {s : Sys} (hr : Reach Sys.Init Sys.step ok s)
    (hm : s.conn.HasMSS) : Reach Sys.Init Sys.step PositiveMSS s := by
  induction hr with
  | start h => exact .start h
  | @next s s' e hr _ hs ih =>
    have hsame := ((Sys.step_inv hs).2.sends.mss (unsynced_reach hr)).2
    have hm' : s.conn.HasMSS := by
      intro hsync
      rw [← (hsame hsync).2]
      exact hm (hsame hsync).1
    exact .next (ih hm') hm' hs

theorem sendInv_reach {s : Sys} (hr : Reach Sys.Init Sys.step PositiveMSS s) : SendInv s.conn :=
  hr.invariant (I := fun s => SendInv s.conn) (fun _ h => sendInv_init h) fun _ _ _ h hok hs =>
    sendInv_step h hok (Sys.step_inv hs).1 (Sys.step_inv hs).2

/-- The sequence numbers in flight: those of the queued segments. -/
def inFlight (c : TCPConn) : ℕ := (c.tx.snd.unacked.map UnackedSegment.width).sum

theorem Chain.inFlight {b : UInt32} {n : ℕ} : ∀ {l : List UnackedSegment} {x : ℕ}, Chain b x l n →
    x + (l.map UnackedSegment.width).sum = n
  | [], _, h => h
  | e :: l, x, ⟨_, _, _, _, h⟩ => by
      rw [List.map_cons, List.sum_cons, ← Nat.add_assoc]
      exact h.inFlight

/-- The queue is the stretch from `a` to `n` of what `Write` has accepted, `writeBuf` holds what
    comes after it, and whatever is on the wire is what the stream holds there. -/
structure SentStream (c : TCPConn) (a n : ℕ) : Prop where
  contiguous : Chain (c.env.iss + 1) a c.tx.snd.unacked n
  last : c.tx.snd.nxt = seqAt (c.env.iss + 1) n
  stream : c.tx.accepted
    = c.tx.accepted.take a ++ payloads c.tx.snd.unacked ++ c.tx.writeBuf.contents
  first : inFlight c < 2 ^ 31 → ∀ e ∈ c.tx.snd.unacked.head?,
    ∃ u, a ≤ u ∧ u < a + e.width ∧ c.tx.snd.una = seqAt (c.env.iss + 1) u
  empty : inFlight c < 2 ^ 31 → (c.tx.snd.unacked = [] ↔ c.tx.snd.una = c.tx.snd.nxt)
  wire : ∀ p ∈ c.wire.out, p.payload ≠ [] → ∃ o, p.seq = seqAt (c.env.iss + 1) o ∧
    p.payload = (c.tx.accepted.drop o).take p.payload.length

theorem TCPConn.Sending.sentStream {c : TCPConn} {x n : ℕ} {f : Bool} (h : Sending c x n f) :
    SentStream c x n := by
  obtain ⟨u, hx, hn, hu, hhead⟩ := h.una
  have hflight := h.chain.inFlight
  refine ⟨h.chain, h.nxt, ?_, fun hlt e he => ⟨u, hx, ?_, hu⟩, fun hlt => ⟨fun hnil => ?_, fun heq => ?_⟩,
    fun p hp hne => ?_⟩
  · rw [List.append_assoc, h.bytes, List.take_append_drop]
  · rw [inFlight] at hlt
    rcases hhead e he with hlt' | hge
    · exact hlt'
    · omega
  · have hxn := h.chain
    rw [hnil] at hxn
    rw [hu, h.nxt, show u = n from le_antisymm hn (hxn ▸ hx)]
  · rw [inFlight] at hlt
    rw [hu, h.nxt, seqAt_inj _ (by omega) (by omega)] at heq
    cases hq : c.tx.snd.unacked with
    | nil => rfl
    | cons e l =>
      have hend := h.chain
      rw [hq] at hend hhead
      rcases hhead e rfl with hlt' | hge
      · have := hend.lt
        omega
      · omega
  · obtain ⟨o, hseq, hpre⟩ := h.out p hp hne
    exact ⟨o, hseq, List.prefix_iff_eq_take.1 hpre⟩

/-- CORRECT: in every run of a connection with a segment size, the retransmission queue and
    `writeBuf` are the unacknowledged rest of what `Write` accepted, in order and without a gap, and
    every data segment ever sent, first or again, carries the bytes its sequence number stands for. -/
theorem send_stream_integrity {s : Sys} (hr : Reach Sys.Init Sys.step PositiveMSS s)
    (hs : s.conn.ctl.synced = true) : ∃ a n, SentStream s.conn a n := by
  obtain ⟨f, ⟨x, n, hsend⟩, -⟩ := (sendInv_reach hr).sends hs
  exact ⟨x, n, hsend.sentStream⟩

/-- `Write` accepts three bytes, they are sent, and the first one is acknowledged: the queue still
    holds all three. -/
theorem send_stream_integrity_partial : ∃ s : Sys, Reach Sys.Init Sys.step PositiveMSS s ∧
    s.conn.tx.snd.una = 202 ∧ s.conn.tx.snd.unacked.map UnackedSegment.data = [[1, 2, 3]] ∧
    ∃ a n, SentStream s.conn a n := by
  obtain ⟨s, hr, hs, huna, hq⟩ := Sys.exists_reach Sys.init_sample
    (fun s _ => !s.conn.ctl.synced || decide (1 ≤ s.conn.tx.snd.mss))
    (fun s => s.conn.ctl.synced = true ∧ s.conn.tx.snd.una = 202 ∧
      s.conn.tx.snd.unacked.map UnackedSegment.data = [[1, 2, 3]])
    [Sys.sampleACK, .writeCall 0 [1, 2, 3], .writeCopy 0, .writeCopy 0, .writeReturn 0, .writeNotify,
      .inbound (Sys.sampleSegment tcpFlagACK 101 202 1000 [])] (by decide +kernel)
  have hr' : Reach Sys.Init Sys.step PositiveMSS s :=
    hr.mono fun s e hok hsync => by simpa [hsync] using hok
  exact ⟨s, hr', huna, hq, send_stream_integrity hr' hs⟩

end Netstack.Tcp
