import Netstack.Tcp.SendPlan
import Netstack.Tcp.Pacing

/-! Sending with and without a GSO writer.

    Both loops of `sendPending` carry out a plan of blocks (`sendPending_emits`), and what a call does
    to the sender can be read off the plan: the segment sizes give the entries of the retransmission
    queue, the block sizes give the writes. Two calls that start in the same state end alike exactly
    when their plans cut the same segments. -/

namespace Netstack.Tcp
open Netstack.Header Netstack.Loop Netstack.Pieces Netstack.Trace

/-- Where an entry starts and what it carries. -/
def UnackedSegment.entry (e : UnackedSegment) : UInt32 × List UInt8 := (e.seq, e.data)

/-- Chunks laid one behind the other from `seq` on. -/
def laid (seq : UInt32) : List (List UInt8) → List (UInt32 × List UInt8)
  | [] => []
  | d :: ds => (seq, d) :: laid (seq + UInt32.ofNat d.length) ds

theorem laid_append (seq : UInt32) (ds ds' : List (List UInt8)) :
    laid seq (ds ++ ds') = laid seq ds ++ laid (seq + UInt32.ofNat ds.flatten.length) ds' := by
  induction ds generalizing seq with
  | nil => simp [laid]
  | cons d ds ih =>
    rw [List.cons_append, laid, ih, laid, List.flatten_cons, List.length_append, UInt32.ofNat_add,
      UInt32.add_assoc, List.cons_append]

theorem map_snd_laid (seq : UInt32) (ds : List (List UInt8)) : (laid seq ds).map Prod.snd = ds := by
  induction ds generalizing seq with
  | nil => rfl
  | cons d ds ih => rw [laid, List.map_cons, ih]

/-- `recordSentGSO` cuts the batch into pieces of `mss`. -/
theorem entry_gsoSegments {mss : ℕ} (hmss : 0 < mss) (t : ℤ) : ∀ (fuel : ℕ) (seq : UInt32)
    (data : List UInt8), data.length ≤ fuel →
    (gsoSegments mss t fuel seq data).map UnackedSegment.entry
      = laid seq ((pieces mss data.length).splitLengths data)
  | 0, _, [], _ => by simp [gsoSegments, laid]
  | fuel + 1, _, [], _ => by simp [gsoSegments, laid]
  | fuel + 1, seq, d :: data, hfuel => by
      have hpos : 0 < (d :: data).length := Nat.succ_pos _
      have hrest := entry_gsoSegments hmss t fuel
        (seq + UInt32.ofNat ((d :: data).take mss).length) ((d :: data).drop mss)
        (by rw [List.length_drop]; omega)
      rw [gsoSegments, List.map_cons, hrest, List.length_drop]
      rcases lt_or_ge (d :: data).length mss with hlt | hle
      · rw [pieces_of_lt hpos hlt, Nat.sub_eq_zero_of_le hlt.le, pieces_zero, List.splitLengths_cons,
          List.splitLengths_nil, List.splitLengths_nil, laid, laid, laid, List.take_of_length_le hlt.le,
          List.take_length]
        rfl
      · rw [pieces_of_le hmss hle, List.splitLengths_cons, laid]
        rfl

namespace TCPConn

variable {c c' c'' : TCPConn}

/-! ### Carrying out blocks -/

/-- `c'` came from `c` by sending blocks, each in one write and each recorded in segments. -/
structure Emits (c c' : TCPConn) (blocks : List (List ℕ)) : Prop where
  fits : blocks.flatten.sum ≤ c.tx.writeBuf.contents.length
  nxt : c'.tx.snd.nxt = c.tx.snd.nxt + UInt32.ofNat blocks.flatten.sum
  rest : c'.tx.writeBuf.contents = c.tx.writeBuf.contents.drop blocks.flatten.sum
  queue : c'.tx.snd.unacked.map UnackedSegment.entry = c.tx.snd.unacked.map UnackedSegment.entry
    ++ laid c.tx.snd.nxt (blocks.flatten.splitLengths c.tx.writeBuf.contents)
  writes : c'.wire.out.map OutSegment.payload = c.wire.out.map OutSegment.payload
    ++ (blocks.map List.sum).splitLengths c.tx.writeBuf.contents

namespace Emits

theorem refl (c : TCPConn) : Emits c c [] where
  fits := Nat.zero_le _
  nxt := by simp
  rest := rfl
  queue := by simp [laid]
  writes := by simp

theorem trans {bs bs' : List (List ℕ)} (h : Emits c c' bs) (h' : Emits c' c'' bs') :
    Emits c c'' (bs ++ bs') := by
  have hfits := h'.fits
  rw [h.rest, List.length_drop] at hfits
  have hlen : ((bs.flatten.splitLengths c.tx.writeBuf.contents).flatten).length = bs.flatten.sum := by
    rw [List.length_flatten, List.map_splitLengths_length _ _ h.fits]
  refine ⟨?_, ?_, ?_, ?_, ?_⟩
  · rw [List.flatten_append, List.sum_append]
    have := h.fits
    omega
  · rw [h'.nxt, h.nxt, List.flatten_append, List.sum_append, UInt32.ofNat_add, UInt32.add_assoc]
  · rw [h'.rest, h.rest, List.drop_drop, List.flatten_append, List.sum_append]
  · rw [h'.queue, h.queue, List.flatten_append, splitLengths_append, laid_append, hlen, h.nxt, h.rest,
      List.append_assoc]
  · rw [h'.writes, h.writes, List.map_append, splitLengths_append, h.rest, ← List.sum_flatten,
      List.append_assoc]

theorem sendNew {k : ℕ} (hk : 0 < k) (hle : k ≤ c.tx.writeBuf.len) :
    Emits c (c.sendNew k).1 [[k]] ∧ (c.sendNew k).2 = true ∧ (c.sendNew k).1.hasUnacked = true := by
  rw [← RingBuffer.length_contents] at hle
  have hlen : (c.tx.writeBuf.contents.take k).length = k := List.length_take_of_le hle
  have hne : (c.tx.writeBuf.readNoBlock k).2 ≠ [] := by
    rw [RingBuffer.readNoBlock_snd, ← List.length_pos_iff, hlen]
    exact hk
  rw [TCPConn.sendNew, if_neg hne, RingBuffer.readNoBlock_snd]
  refine ⟨⟨by simpa using hle, ?_, ?_, ?_, ?_⟩, rfl, by simp [hasUnacked, recordSent, advanceNxt]⟩
  · show c.tx.snd.nxt + UInt32.ofNat (c.tx.writeBuf.contents.take k).length = _
    rw [hlen]
    simp
  · exact RingBuffer.contents_readNoBlock c.tx.writeBuf hk
  · show (c.tx.snd.unacked ++ [_]).map UnackedSegment.entry = _
    simp [UnackedSegment.entry, laid]
  · show (c.wire.out ++ [_]).map OutSegment.payload = _
    simp [dataSegment]

theorem sendGSO {k : ℕ} (hm : 1 ≤ c.tx.snd.mss) (hk : 0 < k) (hle : k ≤ c.tx.writeBuf.len) :
    Emits c (c.sendGSO k).1 [pieces c.tx.snd.mss.toNat k] ∧ (c.sendGSO k).2 = true ∧
      (c.sendGSO k).1.hasUnacked = true := by
  rw [← RingBuffer.length_contents] at hle
  have hlen : (c.tx.writeBuf.contents.take k).length = k := List.length_take_of_le hle
  have hne : c.tx.writeBuf.contents.take k ≠ [] := by
    rw [← List.length_pos_iff, hlen]
    exact hk
  rw [TCPConn.sendGSO, if_neg (by omega), Int.toNat_natCast, RingBuffer.readNoBlock_snd, if_neg hne]
  refine ⟨⟨by simpa using hle, ?_, ?_, ?_, ?_⟩, rfl, ?_⟩
  · show c.tx.snd.nxt + UInt32.ofNat (c.tx.writeBuf.contents.take k).length = _
    rw [hlen]
    simp
  · rw [List.flatten_singleton, sum_pieces]
    exact RingBuffer.contents_readNoBlock c.tx.writeBuf hk
  · show (c.tx.snd.unacked ++ gsoSegments _ _ _ _ _).map UnackedSegment.entry = _
    rw [List.map_append, entry_gsoSegments (by omega) _ _ _ _ le_rfl, hlen, List.flatten_singleton]
    have hcut := splitLengths_take (pieces c.tx.snd.mss.toNat k) c.tx.writeBuf.contents
    rw [sum_pieces] at hcut
    rw [hcut]
  · show (c.wire.out ++ [_]).map OutSegment.payload = _
    simp [dataSegment]
  · obtain ⟨b, data, hb⟩ := List.exists_cons_of_ne_nil hne
    simp [hasUnacked, recordSentGSO, advanceNxt, sendDataGSO, transmitData, hb, gsoSegments]

end Emits

/-! ### The loop carries out the plan -/

/-- The most a batch may hold. -/
def batchLimit (c : TCPConn) (gsoMaxSize : ℤ) : ℤ :=
  min gsoMaxSize (min (0xffff - c.gsoDataOffset) (gsoBufSize - c.gsoDataOffset))

theorem batchLimit_pos (c : TCPConn) {g : ℤ} (hg : c.env.handler.gsoMaxSize = some g) :
    0 < c.batchLimit g := by
  have hpos := c.env.handler.gso_pos g hg
  have hoff := c.gsoDataOffset_mem
  rw [batchLimit, gsoBufSize]
  omega

/-- What a call of `sendPending` reads but does not change. -/
def pace (c : TCPConn) (hm : 1 ≤ c.tx.snd.mss) : Pace where
  mss := c.tx.snd.mss.toNat
  sws := min c.tx.snd.mss.toNat (c.tx.snd.maxWnd / 2).toNat
  probing := c.tx.zeroWindowProbing
  noDelay := c.app.noDelay
  mss_pos := by omega
  sws_le := min_le_left _ _

@[simp] theorem pace_mss (c : TCPConn) (hm : 1 ≤ c.tx.snd.mss) :
    (c.pace hm).mss = c.tx.snd.mss.toNat := rfl

@[simp] theorem pace_sws (c : TCPConn) (hm : 1 ≤ c.tx.snd.mss) :
    (c.pace hm).sws = min c.tx.snd.mss.toNat (c.tx.snd.maxWnd / 2).toNat := rfl

/-- The most a batch may hold, if there are batches. -/
def batch (c : TCPConn) : Option ℕ := c.env.handler.gsoMaxSize.map fun g => (c.batchLimit g).toNat

theorem swsHold_eq (hm : 1 ≤ c.tx.snd.mss) (w a : ℕ) : c.swsHold w a
    = (!(c.pace hm).probing && decide (w < (c.pace hm).sws) && decide (a > w)) := by
  have hwnd : (w : ℤ) < min c.tx.snd.mss ((c.tx.snd.maxWnd / 2).toNat : ℤ) ↔ w < (c.pace hm).sws := by
    rw [pace_sws]
    omega
  have hlen : (a : ℤ) > w ↔ a > w := Nat.cast_lt
  rw [swsHold, decide_eq_decide.2 hwnd, decide_eq_decide.2 hlen]
  rfl

theorem holds_eq (hm : 1 ≤ c.tx.snd.mss) (w a : ℕ) :
    (c.swsHold w a || c.nagleHold a) = (c.pace hm).holds w a c.hasUnacked := by
  have hlen : (a : ℤ) < c.tx.snd.mss ↔ a < (c.pace hm).mss := by
    rw [pace_mss]
    omega
  rw [swsHold_eq hm, nagleHold, decide_eq_decide.2 hlen]
  rfl

/-- What a turn sends is the block of the plan. -/
theorem sendBatch_emits (hm : 1 ≤ c.tx.snd.mss) {w : ℕ} (hw : 0 < w) (ha : 0 < c.tx.writeBuf.len)
    (hpay : (min (min w c.tx.writeBuf.len) c.tx.snd.mss.toNat : ℤ) ≤ maxPayloadSize) :
    Emits c (c.sendBatch w c.tx.writeBuf.len).1 [(c.pace hm).block c.batch w c.tx.writeBuf.len] ∧
      (c.sendBatch w c.tx.writeBuf.len).2 = true ∧
      (c.sendBatch w c.tx.writeBuf.len).1.hasUnacked = true := by
  have hplain : Emits c (c.sendSegment (min (min w c.tx.writeBuf.len) c.tx.snd.mss)).1
      [[min (min w c.tx.writeBuf.len) c.tx.snd.mss.toNat]] ∧
      (c.sendSegment (min (min w c.tx.writeBuf.len) c.tx.snd.mss)).2 = true ∧
      (c.sendSegment (min (min w c.tx.writeBuf.len) c.tx.snd.mss)).1.hasUnacked = true := by
    have hnat : (min (min (w : ℤ) c.tx.writeBuf.len) c.tx.snd.mss).toNat
        = min (min w c.tx.writeBuf.len) c.tx.snd.mss.toNat := by omega
    rw [sendSegment_eq c (by omega) (by omega), hnat]
    exact Emits.sendNew (by omega) (by omega)
  rw [sendBatch.eq_def, Pace.block.eq_def, batch]
  cases hg : c.env.handler.gsoMaxSize with
  | none => exact hplain
  | some g =>
    have hlim := c.batchLimit_pos hg
    have hnat : c.gsoBatchSize w c.tx.writeBuf.len g
        = ((min (min w c.tx.writeBuf.len) (c.batchLimit g).toNat : ℕ) : ℤ) := by
      rw [gsoBatchSize, ← batchLimit]
      omega
    simp only [Option.map_some]
    by_cases hbatch : (c.pace hm).mss < c.tx.writeBuf.len ∧ (c.pace hm).mss < w
    · rw [if_pos hbatch]
      rw [pace_mss] at hbatch
      rw [if_pos (by omega), hnat]
      exact Emits.sendGSO hm (by omega) (by omega)
    · rw [if_neg hbatch]
      rw [pace_mss] at hbatch
      rw [if_neg (by omega)]
      exact hplain

/-- What goes out is taken off the window. -/
theorem Emits.effectiveWindow {b : List ℕ} (h : Emits c c' [b]) (hk : c'.kept = c.kept)
    (hb : (b.sum : ℤ) ≤ c.tx.snd.effectiveWindow) :
    c'.tx.snd.effectiveWindow = c.tx.snd.effectiveWindow - b.sum := by
  have hcwnd : c'.tx.snd.cwnd = c.tx.snd.cwnd := congrArg (·.1.cwnd) hk
  have hwnd : c'.tx.snd.wnd = c.tx.snd.wnd := congrArg (·.1.wnd) hk
  have huna : c'.tx.snd.una = c.tx.snd.una := congrArg (·.1.una) hk
  have hnxt := h.nxt
  rw [List.flatten_singleton] at hnxt
  rw [Sender.effectiveWindow] at hb
  have hlt := c.tx.snd.cwnd.toNat_lt
  have hflight : (c'.tx.snd.nxt - c.tx.snd.una).toNat = (c.tx.snd.nxt - c.tx.snd.una).toNat + b.sum := by
    rw [UInt32.toNat_sub] at hb
    rw [UInt32.toNat_sub, UInt32.toNat_sub, hnxt, UInt32.toNat_add, UInt32.toNat_ofNat']
    have hnxtlt := c.tx.snd.nxt.toNat_lt
    have hunalt := c.tx.snd.una.toNat_lt
    omega
  rw [Sender.effectiveWindow, Sender.effectiveWindow, hcwnd, hwnd, huna, hflight]
  omega

theorem Emits.len {b : List ℕ} (h : Emits c c' [b]) : c'.tx.writeBuf.len = c.tx.writeBuf.len - b.sum := by
  rw [← RingBuffer.length_contents, h.rest, List.length_drop, RingBuffer.length_contents,
    List.flatten_singleton]

theorem pace_eq (hm : 1 ≤ c.tx.snd.mss) (hm' : 1 ≤ c'.tx.snd.mss) (hk : c'.kept = c.kept)
    (htx : TxOnly c c') : c'.pace hm' = c.pace hm := by
  have hmax : c'.tx.snd.maxWnd = c.tx.snd.maxWnd := congrArg (·.1.maxWnd) hk
  have hprobing : c'.tx.zeroWindowProbing = c.tx.zeroWindowProbing := congrArg (·.2.1) hk
  rw [pace, pace, Pace.mk.injEq, htx.mss, hmax, hprobing, htx.app]
  exact ⟨rfl, rfl, rfl, rfl⟩

theorem batch_eq (htx : TxOnly c c') : c'.batch = c.batch := by
  rw [batch, batch, htx.env]
  congr 1
  funext g
  rw [batchLimit, batchLimit, gsoDataOffset, gsoDataOffset, htx.env]

theorem batch_pos (c : TCPConn) : ∀ g ∈ c.batch, 0 < g := by
  intro g hg
  obtain ⟨k, hk, rfl⟩ := Option.map_eq_some_iff.1 hg
  have := c.batchLimit_pos hk
  omega

/-- A turn stops for the reasons for which the plan ends. -/
theorem sendPendingStep_eq (hm : 1 ≤ c.tx.snd.mss) {w : ℕ} (hw : c.tx.snd.effectiveWindow.toNat = w) :
    c.sendPendingStep = if w = 0 ∨ c.tx.writeBuf.len = 0 ∨
        (c.pace hm).holds w c.tx.writeBuf.len c.hasUnacked = true then (c, false)
      else c.sendBatch w c.tx.writeBuf.len := by
  rw [sendPendingStep]
  by_cases hwnd : c.tx.snd.effectiveWindow ≤ 0
  · rw [if_pos hwnd, if_pos (.inl (by omega))]
  have hcast : c.tx.snd.effectiveWindow = (w : ℤ) := by omega
  by_cases hlen : c.tx.writeBuf.len = 0
  · rw [if_neg hwnd, if_pos (by omega), if_pos (.inr (.inl hlen))]
  rw [if_neg hwnd, if_neg (by omega), hcast, ← holds_eq hm]
  cases hsws : c.swsHold w c.tx.writeBuf.len <;> cases hnagle : c.nagleHold c.tx.writeBuf.len
  · rw [if_neg (by simp), if_neg (by simp), if_neg (by simp; omega)]
  · simp
  · simp
  · simp

theorem loop_emits : ∀ {fuel : ℕ} {c : TCPConn} (hm : 1 ≤ c.tx.snd.mss) {w : ℕ},
    c.tx.snd.effectiveWindow.toNat = w → c.tx.writeBuf.len < fuel →
    (min (min w c.tx.writeBuf.len) c.tx.snd.mss.toNat : ℤ) ≤ maxPayloadSize →
    Emits c (loop sendPendingStep (fun c => c.raise .endlessLoop) fuel c)
      ((c.pace hm).plan c.batch fuel w c.tx.writeBuf.len c.hasUnacked)
  | 0, _, _, _, _, hlt, _ => absurd hlt (Nat.not_lt_zero _)
  | fuel + 1, c, hm, w, hw, hlt, hpay => by
      rw [loop, sendPendingStep_eq hm hw, Pace.plan]
      by_cases hstop : w = 0 ∨ c.tx.writeBuf.len = 0 ∨
        (c.pace hm).holds w c.tx.writeBuf.len c.hasUnacked = true
      · rw [if_pos hstop, if_pos hstop]
        exact Emits.refl c
      rw [if_neg hstop, if_neg hstop]
      obtain ⟨he, hagain, hqueued⟩ := sendBatch_emits hm (w := w) (by omega) (by omega) hpay
      have hkept := c.sendBatch_kept w c.tx.writeBuf.len
      have htx := TxOnly.sendBatch c w c.tx.writeBuf.len
      have hle := (c.pace hm).sum_block_le c.batch w c.tx.writeBuf.len
      have hpos := (c.pace hm).sum_block_pos c.batch_pos (w := w) (a := c.tx.writeBuf.len) (by omega)
      have hm' : 1 ≤ (c.sendBatch w c.tx.writeBuf.len).1.tx.snd.mss := by
        rw [htx.mss]
        exact hm
      have hw' := he.effectiveWindow hkept (by omega)
      have hlen := he.len
      have hshort : (c.sendBatch w c.tx.writeBuf.len).1.tx.writeBuf.len < fuel := by omega
      have ih := loop_emits hm' rfl hshort (by rw [hlen, htx.mss]; omega)
      rw [pace_eq hm hm' hkept htx, batch_eq htx, hqueued, hlen,
        show (c.sendBatch w c.tx.writeBuf.len).1.tx.snd.effectiveWindow.toNat
          = w - ((c.pace hm).block c.batch w c.tx.writeBuf.len).sum by omega] at ih
      rw [if_pos hagain]
      exact he.trans ih

/-- A call of `sendPending` carries out its plan. -/
theorem sendPending_emits (hm : 1 ≤ c.tx.snd.mss)
    (hpay : min (min c.tx.snd.effectiveWindow c.tx.writeBuf.len) c.tx.snd.mss ≤ maxPayloadSize) :
    Emits c c.sendPending ((c.pace hm).plan c.batch (c.tx.writeBuf.len + 1)
      c.tx.snd.effectiveWindow.toNat c.tx.writeBuf.len c.hasUnacked) :=
  loop_emits hm rfl (Nat.lt_succ_self _) (by rw [maxPayloadSize] at hpay ⊢; omega)

/-! ### The two writers -/

/-- The connection with the GSO writer taken away. -/
def withoutGSO (c : TCPConn) : TCPConn :=
  { c with env.handler := { c.env.handler with gsoMaxSize := none, gso_pos := TCPHandler.gso_pos_none } }

/-- `c` sent with batches what `c'` sent without, both from `c₀`: the same place in the sequence
    space, the same bytes left over, the same entries to retransmit. What `c'` wrote segment by
    segment, `c` wrote in groups. -/
structure SentAlike (c₀ c c' : TCPConn) : Prop where
  nxt : c.tx.snd.nxt = c'.tx.snd.nxt
  rest : c.tx.writeBuf.contents = c'.tx.writeBuf.contents
  unacked : c.tx.snd.unacked.map UnackedSegment.entry = c'.tx.snd.unacked.map UnackedSegment.entry
  merged : ∃ groups : List (List (List UInt8)), (∀ g ∈ groups, g ≠ []) ∧
    c'.wire.out.map OutSegment.payload = c₀.wire.out.map OutSegment.payload ++ groups.flatten ∧
    c.wire.out.map OutSegment.payload
      = c₀.wire.out.map OutSegment.payload ++ groups.map List.flatten

/-- When the writer makes no difference. There is at most one segment to send; or a segment fits a
    pooled buffer, the limit of a batch is a multiple of `mss` unless one batch takes everything, and
    the last segment is full, or is not taken along by a batch, or passes the SWS and Nagle tests. -/
def GSOAgrees (c : TCPConn) (gsoMaxSize : ℤ) : Prop :=
  let mss := c.tx.snd.mss
  let windowLeft := c.tx.snd.effectiveWindow
  let available : ℤ := c.tx.writeBuf.len
  let n := min windowLeft available
  let limit := c.batchLimit gsoMaxSize
  let full := n - n % mss
  n ≤ mss ∨
    mss ≤ maxPayloadSize ∧ (n ≤ limit ∨ mss ∣ limit) ∧
      ((n - 1) % limit + 1 ≤ mss ∨ n % mss = 0 ∨
        c.swsHold (windowLeft - full) (available - full) = false ∧
          (c.app.noDelay = true ∨ mss ≤ available - full))

instance (c : TCPConn) (g : ℤ) : Decidable (c.GSOAgrees g) := by unfold GSOAgrees; infer_instance

/-- Two calls that carry out plans end alike if the plans cut the same segments. -/
theorem sentAlike_iff {bs bs' : List (List ℕ)} (h : Emits c c' bs) (h' : Emits c c'' bs')
    (hne : ∀ b ∈ bs, b ≠ []) (hsingle : ∀ b ∈ bs', ∃ k, b = [k]) :
    SentAlike c c' c'' ↔ bs'.flatten = bs.flatten := by
  constructor
  · intro halike
    have hq := halike.unacked
    rw [h.queue, h'.queue, List.append_cancel_left_eq] at hq
    have hcut := congrArg (List.map Prod.snd) hq
    rw [map_snd_laid, map_snd_laid] at hcut
    have hsizes := congrArg (List.map List.length) hcut
    rw [List.map_splitLengths_length _ _ h.fits, List.map_splitLengths_length _ _ h'.fits] at hsizes
    exact hsizes.symm
  · intro hcut
    have hsum : bs'.map List.sum = bs'.flatten := by
      clear h' hcut
      induction bs' with
      | nil => rfl
      | cons b bs' ih =>
        obtain ⟨k, rfl⟩ := hsingle b (List.mem_cons_self ..)
        rw [List.map_cons, List.flatten_cons, ih fun b hb => hsingle b (List.mem_cons_of_mem _ hb)]
        rfl
    refine ⟨by rw [h.nxt, h'.nxt, hcut], by rw [h.rest, h'.rest, hcut],
      by rw [h.queue, h'.queue, hcut], regroup bs c.tx.writeBuf.contents, mem_regroup hne, ?_, ?_⟩
    · rw [h'.writes, hsum, hcut, flatten_regroup]
    · rw [h.writes, map_flatten_regroup]

/-- What the tests do to the last segment, which follows full ones. -/
theorem holds_last_iff (hm : 1 ≤ c.tx.snd.mss) (w a : ℕ) : (c.pace hm).holds w a true = false ↔
    c.swsHold w a = false ∧ (c.app.noDelay = true ∨ c.tx.snd.mss ≤ a) := by
  have hlen : ¬a < (c.pace hm).mss ↔ c.tx.snd.mss ≤ a := by
    rw [pace_mss]
    omega
  rw [Pace.holds, Bool.or_eq_false_iff, swsHold_eq hm, ← hlen]
  refine and_congr_right fun _ => ?_
  rw [Bool.and_true, Bool.and_eq_false_iff, decide_eq_false_iff_not, Bool.not_eq_false']
  rfl

/-- The plan's condition, read off the connection. -/
theorem agrees_iff (hm : 1 ≤ c.tx.snd.mss) {g : ℤ} (hg : c.env.handler.gsoMaxSize = some g)
    (hpay : min (min c.tx.snd.effectiveWindow c.tx.writeBuf.len) c.tx.snd.mss ≤ maxPayloadSize) :
    (c.pace hm).Agrees (c.batchLimit g).toNat c.tx.snd.effectiveWindow.toNat c.tx.writeBuf.len ↔
      c.GSOAgrees g := by
  have hlim := c.batchLimit_pos hg
  rw [Pace.Agrees, GSOAgrees]
  by_cases hle : min c.tx.snd.effectiveWindow c.tx.writeBuf.len ≤ c.tx.snd.mss
  · exact iff_of_true (.inl (by rw [pace_mss]; omega)) (.inl hle)
  obtain ⟨w, hw⟩ := Int.eq_ofNat_of_zero_le (a := c.tx.snd.effectiveWindow) (by omega)
  obtain ⟨l, hl⟩ := Int.eq_ofNat_of_zero_le hlim.le
  obtain ⟨m, hmss⟩ := Int.eq_ofNat_of_zero_le (a := c.tx.snd.mss) (by omega)
  have hlast := fun w a => c.holds_last_iff hm w a
  have hpace : (c.pace hm).mss = m := by rw [pace_mss, hmss]; rfl
  rw [hw, hmss] at hle hpay
  rw [hmss] at hlast
  rw [hw, hl, hmss, hpace, Int.toNat_natCast, Int.toNat_natCast, Pace.holdsLast, hpace, Bool.true_or,
    hlast]
  generalize c.tx.writeBuf.len = a at *
  have hn : min (w : ℤ) a = ((min w a : ℕ) : ℤ) := by omega
  have hmod : ((min w a : ℕ) : ℤ) % m = ((min w a % m : ℕ) : ℤ) := rfl
  have hr := Nat.mod_le (min w a) m
  have hpred : ((min w a : ℕ) : ℤ) - 1 = ((min w a - 1 : ℕ) : ℤ) := by omega
  have hbatch : ((min w a - 1 : ℕ) : ℤ) % l = (((min w a - 1) % l : ℕ) : ℤ) := rfl
  have hfull : ∀ x, min w a ≤ x → (x : ℤ) - (((min w a : ℕ) : ℤ) - ((min w a % m : ℕ) : ℤ))
      = ((x - (min w a - min w a % m) : ℕ) : ℤ) := by omega
  rw [hn, hmod, hpred, hbatch, hfull w (min_le_left _ _), hfull a (min_le_right _ _),
    Int.natCast_dvd_natCast]
  constructor
  · rintro (h | ⟨h, h'⟩)
    · omega
    · exact .inr ⟨by omega, by omega, h'.imp (by omega) (Or.imp (by omega) id)⟩
  · rintro (h | ⟨-, h, h'⟩)
    · omega
    · exact .inr ⟨by omega, h'.imp (by omega) (Or.imp (by omega) id)⟩

/-! ### Segments that do not fit a pooled buffer -/

/-- Outside of a batch a segment that does not fit is not sent, and the call ends. -/
theorem sendPending_oversize
    (hpay : maxPayloadSize < min (min c.tx.snd.effectiveWindow c.tx.writeBuf.len) c.tx.snd.mss)
    (hplain : c.env.handler.gsoMaxSize = none ∨
      min c.tx.snd.effectiveWindow c.tx.writeBuf.len ≤ c.tx.snd.mss) :
    c.sendPending = c ∨ c.sendPending = c.raise .sliceBounds := by
  rw [maxPayloadSize] at hpay
  have hsend : c.sendBatch c.tx.snd.effectiveWindow c.tx.writeBuf.len
      = (c.raise .sliceBounds, false) := by
    have hseg : c.sendSegment (min (min c.tx.snd.effectiveWindow c.tx.writeBuf.len) c.tx.snd.mss)
        = (c.raise .sliceBounds, false) := by
      rw [sendSegment, if_pos (.inr (by rw [maxPayloadSize]; omega))]
    rw [sendBatch.eq_def]
    split
    · rename_i hg
      rw [if_neg (by rcases hplain with h | h; · rw [h] at hg; cases hg
                     · omega)]
      exact hseg
    · exact hseg
  have hstep : c.sendPendingStep = (c, false) ∨ c.sendPendingStep = (c.raise .sliceBounds, false) := by
    rw [sendPendingStep, hsend]
    split_ifs
    iterate 4 exact .inl rfl
    exact .inr rfl
  rw [sendPending, loop]
  rcases hstep with h | h
  · rw [h]
    exact .inl rfl
  · rw [h]
    exact .inr rfl

/-- A batch is sent whatever the size of its segments. -/
theorem oversize_batch (hm : 1 ≤ c.tx.snd.mss) {g : ℤ} (hg : c.env.handler.gsoMaxSize = some g)
    (hbatch : c.tx.snd.mss < min c.tx.snd.effectiveWindow c.tx.writeBuf.len) :
    c.tx.snd.unacked.length < c.sendPending.tx.snd.unacked.length := by
  have hlim := c.batchLimit_pos hg
  obtain ⟨w, hw⟩ := Int.eq_ofNat_of_zero_le (a := c.tx.snd.effectiveWindow) (by omega)
  have hstep : c.sendPendingStep = c.sendGSO (min (min w c.tx.writeBuf.len) (c.batchLimit g).toNat : ℕ) := by
    rw [hw] at hbatch
    rw [sendPendingStep_eq hm (w := w) (by rw [hw]; rfl), if_neg, sendBatch.eq_def, hg]
    · dsimp only
      rw [if_pos (by omega), gsoBatchSize, ← batchLimit]
      congr 1
      omega
    · rintro (h | h | h)
      · omega
      · omega
      · have := Pace.lt_of_holds h
        rw [pace_mss] at this
        omega
  obtain ⟨he, hagain, -⟩ := Emits.sendGSO (c := c)
    (k := min (min w c.tx.writeBuf.len) (c.batchLimit g).toNat) hm (by omega) (by omega)
  rw [← hstep] at he hagain
  have hgrows : Grows c.sendPendingStep.1 c.sendPending := by
    rw [sendPending, loop, if_pos hagain]
    refine loop_rel Grows Grows.trans Grows.sendPendingStep ?_ _ _
    exact fun _ => Grows.of_queue rfl
  have hlen := hgrows.length_le
  rw [List.length_map, List.length_map] at hlen
  have hqueue := congrArg List.length he.queue
  rw [List.length_map, List.length_append, List.length_map, ← List.length_map (f := Prod.snd),
    map_snd_laid, List.length_splitLengths, List.flatten_singleton] at hqueue
  have hpieces : 0 < (pieces c.tx.snd.mss.toNat (min (min w c.tx.writeBuf.len) (c.batchLimit g).toNat)).length := by
    rw [List.length_pos_iff]
    intro hnil
    have hsum := sum_pieces c.tx.snd.mss.toNat (min (min w c.tx.writeBuf.len) (c.batchLimit g).toNat)
    rw [hnil, List.sum_nil] at hsum
    omega
  omega

/-- CORRECT: a call of `sendPending` with a GSO writer ends like one without, and only merges writes,
    exactly if `GSOAgrees` holds before it. -/
theorem gso_refines_plain_iff {g : ℤ} (hg : c.env.handler.gsoMaxSize = some g)
    (hm : 1 ≤ c.tx.snd.mss) :
    SentAlike c c.sendPending c.withoutGSO.sendPending ↔ c.GSOAgrees g := by
  by_cases hpay : min (min c.tx.snd.effectiveWindow c.tx.writeBuf.len) c.tx.snd.mss ≤ maxPayloadSize
  · have h := sendPending_emits hm hpay
    have h' := sendPending_emits (c := c.withoutGSO) hm hpay
    have hb : c.batch = some (c.batchLimit g).toNat := by rw [batch, hg]; rfl
    have hplain : Emits c c.withoutGSO.sendPending ((c.pace hm).plan none (c.tx.writeBuf.len + 1)
      c.tx.snd.effectiveWindow.toNat c.tx.writeBuf.len c.hasUnacked) :=
      ⟨h'.fits, h'.nxt, h'.rest, h'.queue, h'.writes⟩
    have hlim := c.batchLimit_pos hg
    rw [sentAlike_iff h hplain (Pace.mem_plan_ne c.batch_pos) Pace.mem_plan_none, hb,
      Pace.plan_agrees (by omega) (by omega), agrees_iff hm hg hpay]
  · push Not at hpay
    have hplain := sendPending_oversize (c := c.withoutGSO) hpay (.inl rfl)
    have hqueue : c.withoutGSO.sendPending.tx = c.tx ∧ c.withoutGSO.sendPending.wire = c.wire := by
      rcases hplain with h | h <;> rw [h] <;> exact ⟨rfl, rfl⟩
    by_cases hle : min c.tx.snd.effectiveWindow c.tx.writeBuf.len ≤ c.tx.snd.mss
    · have hgso := sendPending_oversize hpay (.inr hle)
      have hqueue' : c.sendPending.tx = c.tx ∧ c.sendPending.wire = c.wire := by
        rcases hgso with h | h <;> rw [h] <;> exact ⟨rfl, rfl⟩
      refine iff_of_true ⟨?_, ?_, ?_, [], by simp, ?_, ?_⟩ (.inl hle)
      · rw [hqueue.1, hqueue'.1]
      · rw [hqueue.1, hqueue'.1]
      · rw [hqueue.1, hqueue'.1]
      · rw [hqueue.2, List.flatten_nil, List.append_nil]
      · rw [hqueue'.2, List.map_nil, List.append_nil]
    · refine iff_of_false (fun halike => ?_) ?_
      · have hlen := congrArg List.length halike.unacked
        rw [List.length_map, List.length_map, hqueue.1] at hlen
        have := oversize_batch hm hg (by omega)
        omega
      · rintro (h | ⟨h, -⟩)
        · exact hle h
        · omega

end TCPConn

/-- A handler with a GSO writer. -/
def Sys.gsoHandler : TCPHandler :=
  { Sys.sampleHandler 8 8 with
    gsoMaxSize := some 65536
    gso_pos := by rintro _ ⟨⟩; decide }

/-- The system after a SYN that offers segments of two bytes. -/
def Sys.gsoSample : Sys := Sys.start Sys.gsoHandler 100 200 [2, 4, 0, 2] (by decide) (by decide)

theorem Sys.init_gsoSample : Sys.Init Sys.gsoSample :=
  Sys.init_iff.2 ⟨Sys.gsoHandler, _, _, _, _, _, ⟨(Sys.sampleHandler 8 8).cfg, rfl⟩, rfl⟩

/-- Three full segments go out in one batch. -/
theorem gso_refines_plain_full : ∃ s : Sys, Reach Sys.Init Sys.step (fun _ _ => True) s ∧
    s.conn.env.handler.gsoMaxSize = some 65536 ∧ s.conn.tx.snd.mss = 2 ∧ s.conn.tx.writeBuf.len = 6 ∧
    TCPConn.SentAlike s.conn s.conn.sendPending s.conn.withoutGSO.sendPending := by
  obtain ⟨s, hr, hg, hm, hlen, hagrees⟩ := Sys.exists_reach Sys.init_gsoSample (fun _ _ => true)
    (fun s => s.conn.env.handler.gsoMaxSize = some 65536 ∧ s.conn.tx.snd.mss = 2 ∧
      s.conn.tx.writeBuf.len = 6 ∧ s.conn.GSOAgrees 65536)
    [Sys.sampleACK, .writeCall 0 [1, 2, 3, 4, 5, 6], .writeCopy 0] (by decide +kernel)
  exact ⟨s, hr.mono fun _ _ _ => trivial, hg, hm, hlen,
    (TCPConn.gso_refines_plain_iff hg (by omega)).2 hagrees⟩

/-- Two full segments and one byte: the batch takes the byte along, which Nagle would hold back. -/
theorem batch_overrides_nagle : ∃ s : Sys, Reach Sys.Init Sys.step (fun _ _ => True) s ∧
    s.conn.env.handler.gsoMaxSize = some 65536 ∧ s.conn.tx.snd.mss = 2 ∧ s.conn.app.noDelay = false ∧
    s.conn.tx.writeBuf.contents = [1, 2, 3, 4, 5] ∧
    s.conn.sendPending.tx.snd.nxt = 206 ∧ s.conn.withoutGSO.sendPending.tx.snd.nxt = 205 ∧
    s.conn.sendPending.tx.snd.unacked.map UnackedSegment.entry
      = [(201, [1, 2]), (203, [3, 4]), (205, [5])] ∧
    s.conn.withoutGSO.sendPending.tx.snd.unacked.map UnackedSegment.entry
      = [(201, [1, 2]), (203, [3, 4])] := by
  obtain ⟨s, hr, h⟩ := Sys.exists_reach Sys.init_gsoSample (fun _ _ => true)
    (fun s => s.conn.env.handler.gsoMaxSize = some 65536 ∧ s.conn.tx.snd.mss = 2 ∧
      s.conn.app.noDelay = false ∧ s.conn.tx.writeBuf.contents = [1, 2, 3, 4, 5] ∧
      s.conn.sendPending.tx.snd.nxt = 206 ∧ s.conn.withoutGSO.sendPending.tx.snd.nxt = 205 ∧
      s.conn.sendPending.tx.snd.unacked.map UnackedSegment.entry
        = [(201, [1, 2]), (203, [3, 4]), (205, [5])] ∧
      s.conn.withoutGSO.sendPending.tx.snd.unacked.map UnackedSegment.entry
        = [(201, [1, 2]), (203, [3, 4])])
    [Sys.sampleACK, .writeCall 0 [1, 2, 3, 4, 5], .writeCopy 0] (by decide +kernel)
  exact ⟨s, hr.mono fun _ _ _ => trivial, h⟩

end Netstack.Tcp
