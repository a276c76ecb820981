import Netstack.Tcp.Handlers
import Netstack.Tcp.SendQueue

/-! What the send side does, as a sequence of elementary actions.

    `Transmits c c'` says that `c'` came from `c` by sending segments again, by acknowledgments that
    drop queue entries, and by new segments of at least one byte; every function of the run loop but
    the ones that send a FIN is such a sequence. An invariant of the send side is therefore proved
    once for each action. The bounds on the sizes of new segments hold if `snd.mss ≥ 1`; without a
    segment size a slice can be out of range, which is an action of its own. -/

namespace Netstack.Tcp
open Netstack.Header Netstack.Serial Netstack.Loop

namespace TCPConn

/-- No buffer was sliced out of range, and no loop ran on without advancing. -/
def Sound (c : TCPConn) : Prop := c.fault ≠ some .sliceBounds ∧ c.fault ≠ some .endlessLoop

theorem Sound.raise {c : TCPConn} {f : Fault} (h : c.Sound)
    (hf : f = .nilDereference ∨ f = .divideByZero) : (c.raise f).Sound := by
  rw [Sound, TCPConn.raise]
  cases hc : c.fault with
  | none => rcases hf with rfl | rfl <;> exact ⟨by simp, by simp⟩
  | some f' => rw [Sound, hc] at h; exact h

/-- Where the handshake and the closing of the send side stand. -/
def tokens (c : TCPConn) : Bool × Bool × Bool × Bool × Bool :=
  (c.ctl.synced, c.ctl.handedOver, c.ctl.finPending, c.app.closeCh, c.app.closeOnce)

/-! ### Work that sends nothing new -/

/-- The queue of `c'` is that of `c` but for its marks, `writeBuf` holds the same bytes, and all data
    sent on the way is sent again from the queue. -/
structure Resends (c c' : TCPConn) : Prop where
  env : c'.env = c.env
  tokens : c'.tokens = c.tokens
  early : c'.ctl.state.early = true → c.ctl.state = c'.ctl.state
  mss : c'.tx.snd.mss = c.tx.snd.mss
  nxt : c'.tx.snd.nxt = c.tx.snd.nxt
  una : c'.tx.snd.una = c.tx.snd.una
  queue : c'.tx.snd.unacked.map UnackedSegment.sent = c.tx.snd.unacked.map UnackedSegment.sent
  contents : c'.tx.writeBuf.contents = c.tx.writeBuf.contents
  faulted : c.fault ≠ none → c'.fault ≠ none
  drained : c.tx.writeBuf.Drained c'.tx.writeBuf
  accepted : c'.tx.accepted = c.tx.accepted
  sound : c.Sound → c'.Sound
  out : ∃ ps, c'.wire.out = c.wire.out ++ ps ∧ ∀ p ∈ ps,
    (p.payload ≠ [] → ∃ e ∈ c.tx.snd.unacked, e.seq = p.seq ∧ e.data = p.payload) ∧
    (p.flags.has tcpFlagFIN = true → ∃ e ∈ c.tx.snd.unacked, e.fin = true ∧ e.seq = p.seq)

/-- What there is to keep while nothing is sent. -/
def sendView (c : TCPConn) : Env × (Bool × Bool × Bool × Bool × Bool) × TCPState × ℤ × UInt32 × UInt32 ×
    List UnackedSegment × RingBuffer × List UInt8 × Option Fault × List OutSegment :=
  (c.env, c.tokens, c.ctl.state, c.tx.snd.mss, c.tx.snd.nxt, c.tx.snd.una, c.tx.snd.unacked, c.tx.writeBuf,
    c.tx.accepted, c.fault, c.wire.out)

namespace Resends

variable {c c' c'' : TCPConn}

theorem trans (h : Resends c c') (h' : Resends c' c'') : Resends c c'' := by
  obtain ⟨ps, hps, hp⟩ := h.out
  obtain ⟨ps', hps', hp'⟩ := h'.out
  refine ⟨h'.env.trans h.env, h'.tokens.trans h.tokens,
    fun hs => (h.early (by rw [h'.early hs]; exact hs)).trans (h'.early hs), h'.mss.trans h.mss, h'.nxt.trans h.nxt, h'.una.trans h.una,
    h'.queue.trans h.queue, h'.contents.trans h.contents, fun hc => h'.faulted (h.faulted hc),
    h.drained.trans h'.drained, h'.accepted.trans h.accepted, fun hs => h'.sound (h.sound hs), ps ++ ps',
    by rw [hps', hps, List.append_assoc], fun p hmem => ?_⟩
  rcases List.mem_append.1 hmem with hmem | hmem
  · exact hp p hmem
  · refine ⟨fun hne => ?_, fun hfin => ?_⟩
    · obtain ⟨e, he, hseq, hdata⟩ := (hp' p hmem).1 hne
      obtain ⟨e', he', hsent⟩ := mem_of_sent h.queue he
      simp only [UnackedSegment.sent, Prod.mk.injEq] at hsent
      exact ⟨e', he', hsent.1.trans hseq, hsent.2.1.trans hdata⟩
    · obtain ⟨e, he, hf, hseq⟩ := (hp' p hmem).2 hfin
      obtain ⟨e', he', hsent⟩ := mem_of_sent h.queue he
      simp only [UnackedSegment.sent, Prod.mk.injEq] at hsent
      exact ⟨e', he', hsent.2.2.trans hf, hsent.1.trans hseq⟩

theorem of_silent (h : c'.sendView = c.sendView) : Resends c c' := by
  simp only [sendView, Prod.mk.injEq] at h
  obtain ⟨henv, htok, hst, hmss, hnxt, huna, hq, hbuf, hacc, hfault, hout⟩ := h
  refine ⟨henv, htok, fun _ => by rw [hst], hmss, hnxt, huna, by rw [hq], by rw [hbuf],
    by rw [hfault]; exact id, by rw [hbuf]; exact .refl _, hacc, ?_, [],
    by rw [hout, List.append_nil], by simp⟩
  rw [Sound, Sound, hfault]
  exact id

theorem refl (c : TCPConn) : Resends c c := of_silent rfl

/-- A silent change, and then more. -/
theorem after (h : Resends c' c'') (h' : c'.sendView = c.sendView) : Resends c c'' :=
  (of_silent h').trans h

theorem of_rxOnly (h : RxOnly c c') : Resends c c' := by
  obtain ⟨ps, hps, hp⟩ := h.sent
  refine ⟨h.env, ?_, h.early, by rw [h.tx], by rw [h.tx], by rw [h.tx], by rw [h.tx], by rw [h.tx],
    by rw [h.fault]; exact id, by rw [h.tx]; exact .refl _, by rw [h.tx], by rw [Sound, Sound, h.fault]; exact id, ps, hps,
    fun p hmem => ⟨fun hne => absurd (hp p hmem).1 hne,
      fun hfin => absurd ((hp p hmem).2.symm.trans hfin) (by simp)⟩⟩
  rw [TCPConn.tokens, h.synced, h.handedOver, h.finPending, h.app]
  rfl

theorem raise (c : TCPConn) {f : Fault} (hf : f = .nilDereference ∨ f = .divideByZero) :
    Resends c (c.raise f) :=
  ⟨rfl, rfl, fun _ => rfl, rfl, rfl, rfl, rfl, rfl, fun _ => by simp [TCPConn.raise], .refl _, rfl, fun h => h.raise hf, [], (List.append_nil _).symm, by simp⟩

/-- Only the marks of the queue change. -/
theorem marked {l : List UnackedSegment} (hq : l.map UnackedSegment.sent
    = c.tx.snd.unacked.map UnackedSegment.sent) : Resends c { c with tx.snd.unacked := l } :=
  ⟨rfl, rfl, fun _ => rfl, rfl, rfl, rfl, hq, rfl, id, .refl _, rfl, id, [], (List.append_nil _).symm, by simp⟩

theorem retransmit {e : UnackedSegment} (he : ∃ e' ∈ c.tx.snd.unacked, e'.sent = e.sent) :
    Resends c (c.retransmit e) := by
  obtain ⟨e', he', hsent⟩ := he
  simp only [UnackedSegment.sent, Prod.mk.injEq] at hsent
  rw [TCPConn.retransmit]
  split
  · rename_i hfin
    refine ⟨rfl, rfl, fun _ => rfl, rfl, rfl, rfl, rfl, rfl, id, .refl _, rfl, id, [_], rfl, fun p hp => ?_⟩
    rw [List.mem_singleton.1 hp]
    exact ⟨fun hne => absurd rfl hne, fun _ => ⟨e', he', hsent.2.2.trans hfin, hsent.1⟩⟩
  · refine ⟨rfl, rfl, fun _ => rfl, rfl, rfl, rfl, rfl, rfl, id, .refl _, rfl, id, [_], rfl, fun p hp => ?_⟩
    rw [List.mem_singleton.1 hp]
    exact ⟨fun _ => ⟨e', he', hsent.1, hsent.2.1⟩, fun hfin => absurd (show tcpFlagACK.has tcpFlagFIN = true from hfin) (by decide)⟩

theorem retransmitOldest (c : TCPConn) : Resends c c.retransmitOldest := by
  rw [TCPConn.retransmitOldest.eq_def]
  split
  · exact refl c
  · rename_i e rest hq
    exact (marked (by rw [hq]; rfl)).trans (retransmit ⟨c.resent e, List.mem_cons_self .., rfl⟩)

theorem retransmitFirstUnSACKed (c : TCPConn) : Resends c c.retransmitFirstUnSACKed := by
  rw [TCPConn.retransmitFirstUnSACKed.eq_def]
  split
  · exact refl c
  · rename_i e rest hq
    refine (marked ?_).trans (retransmit ⟨c.resent e, by simp, rfl⟩)
    conv_rhs => rw [← List.takeWhile_append_dropWhile (p := UnackedSegment.sacked)
      (l := c.tx.snd.unacked), hq]
    simp [UnackedSegment.sent, resent]

theorem sackLossLoop : ∀ (l : List UnackedSegment) (c : TCPConn),
    (∀ e ∈ l, ∃ e' ∈ c.tx.snd.unacked, e'.sent = e.sent) →
    Resends c (sackLossLoop l c).2 ∧
      (TCPConn.sackLossLoop l c).1.map UnackedSegment.sent = l.map UnackedSegment.sent
  | [], c, _ => ⟨refl c, rfl⟩
  | seg :: rest, c, h => by
      have hgo : ∀ {c' : TCPConn} {e : UnackedSegment}, Resends c c' → e.sent = seg.sent →
          Resends c (TCPConn.sackLossLoop rest c').2 ∧
          (e :: (TCPConn.sackLossLoop rest c').1).map UnackedSegment.sent
            = (seg :: rest).map UnackedSegment.sent := by
        intro c' e hc' he
        obtain ⟨hr, hq⟩ := sackLossLoop rest c' fun e he => by
          obtain ⟨e₁, he₁, hs₁⟩ := h e (List.mem_cons_of_mem _ he)
          obtain ⟨e₂, he₂, hs₂⟩ := mem_of_sent hc'.queue.symm he₁
          exact ⟨e₂, he₂, hs₂.trans hs₁⟩
        exact ⟨hc'.trans hr, by rw [List.map_cons, List.map_cons, hq, he]⟩
      rw [TCPConn.sackLossLoop]
      split_ifs
      · exact hgo (refl c) rfl
      · exact hgo (raise c (.inl rfl)) rfl
      · exact hgo (retransmit (h seg (List.mem_cons_self ..))) rfl
      · exact hgo (refl c) rfl

theorem sackLossDetection (c : TCPConn) : Resends c c.sackLossDetection := by
  obtain ⟨hr, hq⟩ := sackLossLoop c.tx.snd.unacked c fun e he => ⟨e, he, rfl⟩
  exact hr.trans (marked (hq.trans hr.queue.symm))

theorem handleSACK (c : TCPConn) (seg : Segment) : Resends c (c.handleSACK seg) := by
  rw [TCPConn.handleSACK]
  dsimp only
  split
  · obtain ⟨l, seen, he⟩ := processSACKBlocks_eq c.tx.snd
      (parseSegmentOptions seg.options).sackBlocks seg.ack
    have hmark : Resends c { c with tx.snd.unacked := c.tx.snd.unacked.map (Sender.markSACKed l) } := by
      refine marked ?_
      rw [List.map_map]
      refine List.map_congr_left fun e _ => ?_
      rw [Function.comp_apply, Sender.markSACKed]
      split <;> rfl
    rw [he]
    exact hmark.trans ((sackLossDetection _).after rfl)
  · exact refl c

theorem backOff (c : TCPConn) : Resends c c.backOff := by
  have hmark : Resends c { c with tx.snd.unacked := c.tx.snd.unacked.map UnackedSegment.unmarked } :=
    marked (by rw [List.map_map]; rfl)
  exact hmark.trans ((retransmitOldest _).after rfl)

theorem abort (c : TCPConn) : Resends c c.abort := by
  rw [TCPConn.abort]
  split
  · exact of_rxOnly ((RxOnly.sendRSTSegment c _).trans (.closeDone _))
  · exact of_rxOnly (.closeDone c)

theorem handleRTO (c : TCPConn) : Resends c c.handleRTO := by
  rw [TCPConn.handleRTO]
  split_ifs
  · exact refl c
  · exact backOff c
  · exact (abort _).after rfl
  · exact (backOff _).after rfl

theorem measureRTTM (c : TCPConn) (seg : Segment) : Resends c (c.measureRTTM seg) := by
  obtain ⟨s, n, ⟨_, _, _, rfl⟩, he⟩ := measureRTTM_eq c seg
  rw [he]
  exact of_silent rfl

theorem setWnd (c : TCPConn) (seg : Segment) : Resends c (c.setWnd seg) := of_silent rfl

theorem noteMaxWnd (c : TCPConn) : Resends c c.noteMaxWnd := of_silent rfl

theorem updateCwnd (c : TCPConn) (ack acked : UInt32) : Resends c (c.updateCwnd ack acked) := by
  rw [TCPConn.updateCwnd]
  split
  · rw [recoveryACK]
    split
    · exact (retransmitFirstUnSACKed c).trans (of_silent rfl)
    · exact of_silent rfl
  · rw [growCwnd]
    split
    · exact of_silent rfl
    · split
      · exact raise c (.inr rfl)
      · exact of_silent rfl

theorem cancelZeroWindowProbe (c : TCPConn) : Resends c c.cancelZeroWindowProbe := by
  rw [TCPConn.cancelZeroWindowProbe]
  split <;> exact of_silent rfl

theorem checkZeroWindow (c : TCPConn) : Resends c c.checkZeroWindow := by
  rw [TCPConn.checkZeroWindow]
  split_ifs <;> exact of_silent rfl

theorem armRTO (c : TCPConn) : Resends c c.armRTO := by
  rw [TCPConn.armRTO]
  split <;> exact of_silent rfl

theorem manageRTO (c : TCPConn) : Resends c c.manageRTO := by
  rw [TCPConn.manageRTO]
  split_ifs
  · exact refl c
  · exact armRTO c
  · exact of_silent rfl

theorem exitRun (c : TCPConn) : Resends c c.exitRun :=
  (of_rxOnly (.closeDone c)).trans (of_silent rfl)

theorem growWriteBuf (c : TCPConn) : Resends c c.growWriteBuf := by
  rw [TCPConn.growWriteBuf]
  split
  · exact ⟨rfl, rfl, fun _ => rfl, rfl, rfl, rfl, rfl, RingBuffer.contents_grow .., id, .grow _ _, rfl, id, [],
      (List.append_nil _).symm, by simp⟩
  · exact refl c

theorem forceCloseBufs (c : TCPConn) : Resends c c.forceCloseBufs :=
  ⟨rfl, rfl, fun _ => rfl, rfl, rfl, rfl, rfl, rfl, id, .closeWrite _, rfl, id, [], (List.append_nil _).symm, by simp⟩

end Resends

/-! ### Everything but the FIN -/

/-- A full segment has at least one byte and fits its buffer. -/
def Sizes (c : TCPConn) : Prop := 1 ≤ c.tx.snd.mss ∧ c.tx.snd.mss ≤ maxPayloadSize

theorem Sizes.txOnly {c c' : TCPConn} (h : c.Sizes) (t : TxOnly c c') : c'.Sizes := by
  rw [Sizes, t.mss]
  exact h

/-- `c'` came from `c` by elementary actions of the send side: sending again, an acknowledgment, one
    new segment, one GSO batch, or the panic of a connection without a segment size. -/
inductive Transmits (c : TCPConn) : TCPConn → Prop
  | refl : Transmits c c
  | resends {c' c'' : TCPConn} : Transmits c c' → Resends c' c'' → Transmits c c''
  | acked {c' : TCPConn} {ack : UInt32} : Transmits c c' →
      seqGreaterThan ack c'.tx.snd.una = true → seqGreaterThan ack c'.tx.snd.nxt = false →
      Transmits c ((c'.advanceUna ack).removeAcked ack)
  | new {c' : TCPConn} {k : ℕ} : Transmits c c' → (c'.Sizes → 0 < k ∧ k ≤ 1500) →
      Transmits c (c'.sendNew k).1
  | gso {c' : TCPConn} {k : ℤ} : Transmits c c' → (c'.Sizes → 0 < k ∧ k ≤ gsoBufSize) →
      Transmits c (c'.sendGSO k).1
  | fault {c' : TCPConn} {f : Fault} : Transmits c c' → ¬c'.Sizes → Transmits c (c'.raise f)

theorem sendNew_writeBuf (c : TCPConn) (k : ℕ) :
    (c.sendNew k).1.tx.writeBuf = (c.tx.writeBuf.readNoBlock k).1 := by
  rw [sendNew]
  split <;> rfl

theorem sendGSO_writeBuf (c : TCPConn) {k : ℤ} (hk : 0 < k) :
    (c.sendGSO k).1.tx.writeBuf = (c.tx.writeBuf.readNoBlock k.toNat).1 := by
  rw [sendGSO, if_neg (by omega)]
  split <;> rfl

theorem sendSegment_eq (c : TCPConn) {k : ℤ} (hk : 0 < k) (hle : k ≤ maxPayloadSize) :
    c.sendSegment k = c.sendNew k.toNat := by
  rw [sendSegment, if_neg (by omega)]

theorem gsoDataOffset_mem (c : TCPConn) : 0 ≤ c.gsoDataOffset ∧ c.gsoDataOffset ≤ 52 := by
  rw [gsoDataOffset]
  split <;> exact ⟨by decide, by decide⟩

namespace Transmits

variable {c c' c'' : TCPConn}

theorem trans (h : Transmits c c') (h' : Transmits c' c'') : Transmits c c'' := by
  induction h' with
  | refl => exact h
  | resends _ hr ih => exact ih.resends hr
  | acked _ hnew hvalid ih => exact ih.acked hnew hvalid
  | new _ hk ih => exact ih.new hk
  | gso _ hk ih => exact ih.gso hk
  | fault _ hm ih => exact ih.fault hm

theorem of_resends (h : Resends c c') : Transmits c c' := refl.resends h

theorem of_silent (h : c'.sendView = c.sendView) : Transmits c c' := of_resends (.of_silent h)

theorem of_rxOnly (h : RxOnly c c') : Transmits c c' := of_resends (.of_rxOnly h)

theorem after (h : Transmits c' c'') (h' : c'.sendView = c.sendView) : Transmits c c'' :=
  (of_silent h').trans h

/-- What neither sending again nor any work of the send side changes is not changed. -/
theorem frame {P : TCPConn → Prop} (hr : ∀ {c c'}, Resends c c' → P c → P c')
    (ht : ∀ {c c'}, TxOnly c c' → P c → P c') (h : Transmits c c') (hc : P c) : P c' := by
  induction h with
  | refl => exact hc
  | resends _ h ih => exact hr h ih
  | acked _ _ _ ih => exact ht ((TxOnly.advanceUna _ _).trans (.removeAcked _ _)) ih
  | new _ _ ih => exact ht (TxOnly.sendNew _ _) ih
  | gso _ _ ih => exact ht (TxOnly.sendGSO _ _) ih
  | @fault c₁ f _ _ ih => exact ht (show TxOnly c₁ (c₁.raise f) from .of_silent rfl) ih

theorem mss (h : Transmits c c') : c'.tx.snd.mss = c.tx.snd.mss :=
  h.frame (P := fun c' => c'.tx.snd.mss = c.tx.snd.mss) (fun r he => r.mss.trans he)
    (fun t he => t.mss.trans he) rfl

theorem env (h : Transmits c c') : c'.env = c.env :=
  h.frame (P := fun c' => c'.env = c.env) (fun r he => r.env.trans he) (fun t he => t.env.trans he)
    rfl

theorem tokens (h : Transmits c c') : c'.tokens = c.tokens :=
  h.frame (P := fun c' => c'.tokens = c.tokens) (fun r he => r.tokens.trans he)
    (fun t he => by rw [TCPConn.tokens, t.ctl, t.app]; exact he) rfl

theorem early (h : Transmits c c') (hs : c'.ctl.state.early = true) : c.ctl.state = c'.ctl.state :=
  h.frame (P := fun c' => c'.ctl.state.early = true → c.ctl.state = c'.ctl.state)
    (fun r he hs => (he (by rw [r.early hs]; exact hs)).trans (r.early hs))
    (fun t he hs => by rw [t.ctl] at hs ⊢; exact he hs) (fun _ => rfl) hs

theorem synRcvd (h : Transmits c c') (hs : c'.ctl.state = .synRcvd) : c.ctl.state = .synRcvd :=
  (h.early (by rw [hs]; rfl)).trans hs

theorem synced (h : Transmits c c') : c'.ctl.synced = c.ctl.synced := congrArg Prod.fst h.tokens

theorem finPending (h : Transmits c c') : c'.ctl.finPending = c.ctl.finPending :=
  congrArg (fun t => t.2.2.1) h.tokens

theorem sizes (h : Transmits c c') (hm : c.Sizes) : c'.Sizes := by
  rw [Sizes, h.mss]
  exact hm

theorem sendSegment {k : ℤ} (hk : c.Sizes → 0 < k ∧ k ≤ maxPayloadSize) :
    Transmits c (c.sendSegment k).1 := by
  rw [TCPConn.sendSegment]
  split
  · rename_i hrange
    refine refl.fault fun hm => ?_
    have := hk hm
    omega
  · refine refl.new fun hm => ?_
    have := hk hm
    rw [maxPayloadSize] at this
    omega

/-- The sizes of what a turn of `sendPending` sends. -/
theorem sendBatch_cases (c : TCPConn) {w : ℤ} (hw : 0 < w) (hlen : 0 < c.tx.writeBuf.len) :
    (∃ k, c.sendBatch w c.tx.writeBuf.len = c.sendGSO k ∧ (c.Sizes → 0 < k ∧ k ≤ gsoBufSize)) ∨
    ∃ k, c.sendBatch w c.tx.writeBuf.len = c.sendSegment k ∧
      (c.Sizes → 0 < k ∧ k ≤ maxPayloadSize) := by
  have hplain : c.Sizes → 0 < min (min w c.tx.writeBuf.len) c.tx.snd.mss ∧
      min (min w c.tx.writeBuf.len) c.tx.snd.mss ≤ maxPayloadSize := by
    rintro ⟨hpos, hle⟩
    omega
  rw [sendBatch.eq_def]
  dsimp only
  split
  · rename_i g hg
    split
    · have hpos := c.env.handler.gso_pos g hg
      have hoff := c.gsoDataOffset_mem
      refine .inl ⟨_, rfl, fun _ => ?_⟩
      rw [gsoBatchSize, gsoBufSize]
      omega
    · exact .inr ⟨_, rfl, hplain⟩
  · exact .inr ⟨_, rfl, hplain⟩

theorem sendPendingStep (c : TCPConn) : Transmits c c.sendPendingStep.1 := by
  rw [TCPConn.sendPendingStep]
  split_ifs
  iterate 4 exact refl
  rcases sendBatch_cases c (w := c.tx.snd.effectiveWindow) (by omega) (by omega) with
    ⟨k, he, hk⟩ | ⟨k, he, hk⟩
  · rw [he]
    exact refl.gso hk
  · rw [he]
    exact sendSegment hk

end Transmits

/-- A batch takes bytes from `writeBuf` and leaves them in the queue. -/
structure Batch (c : TCPConn) (r : TCPConn × Bool) : Prop where
  again : r.2 = true
  transmits : Transmits c r.1
  shorter : r.1.tx.writeBuf.len < c.tx.writeBuf.len
  queued : r.1.hasUnacked = true
  sent : ∃ p, r.1.wire.out = c.wire.out ++ [p] ∧ p.flags = tcpFlagACK ∧ p.ack = c.rx.rcv.nxt

theorem batch_sendNew {c : TCPConn} {k : ℕ} (hk : 0 < k) (hle : k ≤ 1500)
    (hlen : 0 < c.tx.writeBuf.len) : Batch c (c.sendNew k) := by
  have hdata : (c.tx.writeBuf.readNoBlock k).2 ≠ [] := by
    rw [RingBuffer.readNoBlock_snd, ← List.length_pos_iff, List.length_take, RingBuffer.length_contents]
    omega
  have hlt : (c.sendNew k).1.tx.writeBuf.len < c.tx.writeBuf.len := by
    rw [sendNew_writeBuf, RingBuffer.len_readNoBlock _ hk]
    omega
  refine ⟨?_, .new .refl fun _ => ⟨hk, hle⟩, hlt, ?_, ?_⟩
  all_goals rw [sendNew, if_neg hdata]
  · simp [hasUnacked, recordSent, advanceNxt]
  · exact ⟨_, rfl, rfl, rfl⟩

theorem batch_sendGSO {c : TCPConn} {k : ℤ} (hk : 0 < k) (hle : k ≤ gsoBufSize)
    (hlen : 0 < c.tx.writeBuf.len) : Batch c (c.sendGSO k) := by
  have hdata : (c.tx.writeBuf.readNoBlock k.toNat).2 ≠ [] := by
    rw [RingBuffer.readNoBlock_snd, ← List.length_pos_iff, List.length_take, RingBuffer.length_contents]
    omega
  have hlt : (c.sendGSO k).1.tx.writeBuf.len < c.tx.writeBuf.len := by
    rw [sendGSO_writeBuf c hk, RingBuffer.len_readNoBlock _ (by omega)]
    omega
  refine ⟨?_, .gso .refl fun _ => ⟨hk, hle⟩, hlt, ?_, ?_⟩
  all_goals rw [sendGSO, if_neg (by omega), if_neg hdata]
  · obtain ⟨b, data, hb⟩ := List.exists_cons_of_ne_nil hdata
    simp [hasUnacked, recordSentGSO, advanceNxt, sendDataGSO, transmitData, hb, gsoSegments]
  · exact ⟨_, rfl, rfl, rfl⟩

theorem batch_sendBatch {c : TCPConn} (hm : c.Sizes) {w : ℤ} (hw : 0 < w)
    (hlen : 0 < c.tx.writeBuf.len) : Batch c (c.sendBatch w c.tx.writeBuf.len) := by
  rcases Transmits.sendBatch_cases c hw hlen with ⟨k, he, hk⟩ | ⟨k, he, hk⟩
  · rw [he]
    exact batch_sendGSO (hk hm).1 (hk hm).2 hlen
  · obtain ⟨hpos, hle⟩ := hk hm
    rw [he, sendSegment_eq c hpos hle]
    rw [maxPayloadSize] at hle
    exact batch_sendNew (by omega) (by omega) hlen

/-- Why `sendPending` stops. -/
def Held (c : TCPConn) : Prop :=
  c.tx.snd.effectiveWindow ≤ 0 ∨ c.tx.writeBuf.len = 0 ∨
    c.swsHold c.tx.snd.effectiveWindow c.tx.writeBuf.len = true ∨
    c.nagleHold c.tx.writeBuf.len = true

/-- A turn of `sendPending` sends a batch, or stops for one of the four reasons. -/
theorem sendPendingStep_cases {c : TCPConn} (hm : c.Sizes) :
    c.sendPendingStep = (c, false) ∧ c.Held ∨ Batch c c.sendPendingStep := by
  rw [sendPendingStep]
  split_ifs with hw ha hsws hnagle
  · exact .inl ⟨rfl, .inl hw⟩
  · exact .inl ⟨rfl, .inr (.inl (by omega))⟩
  · exact .inl ⟨rfl, .inr (.inr (.inl hsws))⟩
  · exact .inl ⟨rfl, .inr (.inr (.inr hnagle))⟩
  · exact .inr (batch_sendBatch hm (by omega) (by omega))

/-- `sendPending` ends, and when it does it has sent all it may. -/
theorem sendPending_spec {c : TCPConn} (hm : c.Sizes) :
    Transmits c c.sendPending ∧ c.sendPending.Held ∧
      (c.hasUnacked = true → c.sendPending.hasUnacked = true) := by
  refine loop_rule
    (I := fun c' => (Transmits c c' ∧ c'.Sizes) ∧ (c.hasUnacked = true → c'.hasUnacked = true))
    (J := fun c' => Transmits c c' ∧ c'.Held ∧ (c.hasUnacked = true → c'.hasUnacked = true))
    (fun c' => c'.tx.writeBuf.len) ?_ ?_ _ c ⟨⟨.refl, hm⟩, id⟩ (Nat.lt_succ_self _)
  · rintro c' ⟨⟨ht, hm'⟩, hu⟩ hagain
    rcases sendPendingStep_cases hm' with ⟨he, -⟩ | hb
    · rw [he] at hagain
      cases hagain
    · exact ⟨⟨⟨ht.trans hb.transmits, hm'.txOnly (.sendPendingStep c')⟩, fun _ => hb.queued⟩,
        hb.shorter⟩
  · rintro c' ⟨⟨ht, hm'⟩, hu⟩ hstop
    rcases sendPendingStep_cases hm' with ⟨he, hheld⟩ | hb
    · rw [he]
      exact ⟨ht, hheld, hu⟩
    · rw [hb.again] at hstop
      cases hstop

namespace Transmits

variable {c : TCPConn}

theorem sendPending (c : TCPConn) : Transmits c c.sendPending := by
  by_cases hm : c.Sizes
  · exact (sendPending_spec hm).1
  · have hstep : ∀ c' : TCPConn, ¬c'.Sizes → Transmits c' c'.sendPendingStep.1 ∧
        ¬c'.sendPendingStep.1.Sizes := by
      intro c' hm'
      refine ⟨sendPendingStep c', fun hs => hm' ?_⟩
      rw [Sizes, ← (TxOnly.sendPendingStep c').mss]
      exact hs
    refine (loop_rel (fun a b => ¬a.Sizes → Transmits a b ∧ ¬b.Sizes) ?_ hstep
      (fun c' hm' => ⟨refl.fault hm', hm'⟩) _ c hm).1
    intro a b d hab hbd ha
    obtain ⟨hab, hb⟩ := hab ha
    exact ⟨hab.trans (hbd hb).1, (hbd hb).2⟩

theorem flush (c : TCPConn) : Transmits c c.flush := by
  rw [TCPConn.flush]
  split
  · exact sendPending c
  · exact refl

theorem limitedTransmit (c : TCPConn) : Transmits c c.limitedTransmit := by
  rw [TCPConn.limitedTransmit]
  split_ifs with ha hf
  · exact refl
  · exact refl
  · dsimp only
    split
    · exact refl
    · refine sendSegment fun hm => ⟨by omega, ?_⟩
      exact (min_le_left _ _).trans ((min_le_right _ _).trans hm.2)

theorem handleDupACK (c : TCPConn) : Transmits c c.handleDupACK := by
  rw [TCPConn.handleDupACK]
  split_ifs
  · exact (sendPending c.countDup.inflate).after rfl
  · exact (limitedTransmit c.countDup).after rfl
  · exact (of_resends (.retransmitFirstUnSACKed _)).after rfl
  · exact of_silent rfl

theorem handleNewACK {ack : UInt32} (hnew : seqGreaterThan ack c.tx.snd.una = true)
    (hvalid : seqGreaterThan ack c.tx.snd.nxt = false) : Transmits c (c.handleNewACK ack) :=
  ((refl.acked hnew hvalid).resends (.updateCwnd ..)).trans (sendPending _)

theorem handleACK (c : TCPConn) (ack : UInt32) : Transmits c (c.handleACK ack) := by
  rw [TCPConn.handleACK]
  split_ifs with hdup hold
  · exact handleDupACK c
  · exact refl
  · rw [Bool.not_eq_true, Bool.or_eq_false_iff, Bool.not_eq_false'] at hold
    exact handleNewACK hold.1 hold.2

theorem manageZeroWindow (c : TCPConn) : Transmits c c.manageZeroWindow := by
  rw [TCPConn.manageZeroWindow]
  split_ifs
  · exact (of_resends (.cancelZeroWindowProbe c)).trans (sendPending _)
  · exact of_resends (.checkZeroWindow c)
  · exact refl

theorem processACK (c : TCPConn) (seg : Segment) : Transmits c (c.processACK seg) := by
  have hr : Resends c (((c.setWnd seg).noteMaxWnd.measureRTTM seg).handleSACK seg) :=
    (((Resends.setWnd c seg).trans (.noteMaxWnd _)).trans (.measureRTTM _ seg)).trans
      (.handleSACK _ seg)
  exact (of_resends hr).trans (handleACK _ _)

theorem sendOnUpdate (c : TCPConn) (seg : Segment) (oldWnd : UInt32) :
    Transmits c (c.sendOnUpdate seg oldWnd) := by
  rw [TCPConn.sendOnUpdate]
  split
  · exact sendPending c
  · exact refl

theorem establishedACK (c : TCPConn) (seg : Segment) : Transmits c (c.establishedACK seg) := by
  rw [TCPConn.establishedACK]
  split
  · exact ((processACK c seg).trans (sendOnUpdate _ _ _)).trans (manageZeroWindow _)
  · exact refl

theorem closingACK (c : TCPConn) (seg : Segment) : Transmits c (c.closingACK seg) :=
  (of_resends (.measureRTTM c seg)).trans (handleACK _ _)

theorem finWait1ACK (c : TCPConn) (seg : Segment) : Transmits c (c.finWait1ACK seg) := by
  rw [TCPConn.finWait1ACK]
  split
  · exact ((of_resends (.setWnd c seg)).resends (.measureRTTM _ seg)).trans (handleACK _ _)
  · exact refl

theorem handleCloseWait (c : TCPConn) (seg : Segment) : Transmits c (c.handleCloseWait seg) := by
  rw [TCPConn.handleCloseWait]
  split
  · exact (((of_resends (.setWnd c seg)).resends (.noteMaxWnd _)).resends (.measureRTTM _ seg)).trans
      (handleACK _ _)
  · exact refl

theorem acknowledges {c' : TCPConn} {seg : Segment} (h : Acknowledges seg c c') : Transmits c c' := by
  cases h with
  | none => exact refl
  | established => exact (establishedACK c.resetKeepalive seg).after rfl
  | finWait1 => exact finWait1ACK c seg
  | finWait2 =>
    rw [finWait2ACK]
    split
    · exact of_resends (.setWnd c seg)
    · exact refl
  | closeWait => exact handleCloseWait c seg
  | closing => exact closingACK c seg
  | lastAck => exact handleACK c seg.ack

/-- After the handshake every handler only transmits. -/
theorem handled {c' : TCPConn} {seg : Segment} (h : Handled seg c c') : Transmits c c' := by
  obtain ⟨c₁, hack, hfin⟩ := h
  exact (acknowledges hack).trans (of_rxOnly hfin.rxOnly)

end Transmits
end TCPConn
end Netstack.Tcp
