import Netstack.Tcp.Pacing
import Netstack.Tcp.LastAck

/-! What a segment with an unacceptable acknowledgment number does to the send side.

    `handleACK` rejects such a number, but its callers have by then taken the window, the RTT sample
    and the SACK blocks from the segment. So the segment is inert exactly if each of these is: the
    conditions are stated one by one (`RTTInert`, `SACKInert`, `ZeroWindowInert`) and collected by
    state in `AckInert`. -/

namespace Netstack.Tcp
open Netstack.Header Netstack.Serial Netstack.Trace Netstack.Loop

/-! ### RTT samples -/

/-- The sample `measured` leaves the RTT estimate and the timeout where they are. -/
structure Sender.RTTFixed (s : Sender) (cfg : Config) (measured : ℤ) : Prop where
  srtt : (if s.srtt = 0 then measured else (7 * s.srtt + measured).tdiv 8) = s.srtt
  rttvar : (if s.srtt = 0 then measured.tdiv 2
    else (3 * s.rttvar + |s.srtt - measured|).tdiv 4) = s.rttvar
  rto : min (max (s.srtt + 4 * s.rttvar) cfg.minRTO) cfg.maxRTO = s.rto

theorem Sender.RTTFixed.updateRTT {s : Sender} {cfg : Config} {m : ℤ} (h : s.RTTFixed cfg m) :
    s.updateRTT cfg m = s := by
  rw [Sender.updateRTT, h.srtt, h.rttvar, h.rto]

theorem Sender.rttFixed_of_updateRTT {s s' : Sender} {cfg : Config} {m : ℤ}
    (hs : s' = s.updateRTT cfg m) (hsrtt : s'.srtt = s.srtt) (hvar : s'.rttvar = s.rttvar)
    (hrto : s'.rto = s.rto) : s.RTTFixed cfg m := by
  subst hs
  simp only [Sender.updateRTT] at hsrtt hvar hrto
  rw [hsrtt, hvar] at hrto
  exact ⟨hsrtt, hvar, hrto⟩

namespace TCPConn

variable {c c' c'' : TCPConn} {seg : Segment}

/-- The timestamp echoed by the segment gives no RTT sample, or one that changes nothing. -/
def RTTInert (c : TCPConn) (seg : Segment) : Prop :=
  ∀ ts, seg.timestamp c.env = some ts → ts.ecr ≠ 0 → 0 < (c.handlerNow - ts.ecr).toNat →
    c.tx.snd.RTTFixed c.env.cfg ((c.handlerNow - ts.ecr).toNat * millisecond)

theorem measureRTTM_of_inert (h : c.RTTInert seg) : ∃ n, c.measureRTTM seg = { c with ticks := n } := by
  rw [measureRTTM]
  split
  · rename_i ts hts
    split
    · exact ⟨_, rfl⟩
    · rename_i hecr
      dsimp only
      split_ifs with hpos
      · have hnat : 0 < (c.handlerNow - ts.ecr).toNat := by
          simp only [millisecond] at hpos
          omega
        rw [(h ts hts hecr hnat).updateRTT]
        exact ⟨_, rfl⟩
      · exact ⟨_, rfl⟩
  · exact ⟨_, rfl⟩

theorem rttInert_of_measureRTTM (hsrtt : (c.measureRTTM seg).tx.snd.srtt = c.tx.snd.srtt)
    (hvar : (c.measureRTTM seg).tx.snd.rttvar = c.tx.snd.rttvar)
    (hrto : (c.measureRTTM seg).tx.snd.rto = c.tx.snd.rto) : c.RTTInert seg := by
  intro ts hts hecr hnat
  have hpos : ((c.handlerNow - ts.ecr).toNat : ℤ) * millisecond > 0 := by
    simp only [millisecond]
    omega
  have hm : (c.measureRTTM seg).tx.snd
      = c.tx.snd.updateRTT c.env.cfg ((c.handlerNow - ts.ecr).toNat * millisecond) := by
    rw [measureRTTM, hts]
    dsimp only
    rw [if_neg hecr]
    dsimp only
    rw [if_pos hpos]
  exact Sender.rttFixed_of_updateRTT hm hsrtt hvar hrto

theorem measureRTTM_tx_iff : (c.measureRTTM seg).tx = c.tx ↔ c.RTTInert seg := by
  constructor
  · intro h
    exact rttInert_of_measureRTTM (by rw [h]) (by rw [h]) (by rw [h])
  · intro h
    obtain ⟨n, he⟩ := measureRTTM_of_inert h
    rw [he]

/-! ### The window -/

theorem setWnd_of_eq (h : scaledWnd seg.wnd c.env.sndWndScale = c.tx.snd.wnd) : c.setWnd seg = c := by
  rw [setWnd, h]

theorem noteMaxWnd_of_le (h : c.tx.snd.wnd ≤ c.tx.snd.maxWnd) : c.noteMaxWnd = c := by
  rw [noteMaxWnd, Sender.updateMaxWnd, if_neg (by simpa using h)]

theorem le_maxWnd_of_noteMaxWnd (h : c.noteMaxWnd.tx.snd.maxWnd = c.tx.snd.maxWnd) :
    c.tx.snd.wnd ≤ c.tx.snd.maxWnd := by
  simp only [noteMaxWnd, Sender.updateMaxWnd] at h
  split_ifs at h with hgt
  · rw [h]
    exact UInt32.le_refl _
  · simpa using hgt

end TCPConn

/-! ### SACK blocks -/

/-- No entry has three SACKed entries above it without being SACKed or sent again itself. -/
def NoLoss : List UnackedSegment → Prop
  | [] => True
  | e :: rest => (e.sacked = true ∨ e.retransmitted = true ∨ rest.countP UnackedSegment.sacked < 3) ∧
      NoLoss rest

/-- The blocks `processSACKBlocks` marks with: a first block that ends at or below `ack` is a
    D-SACK. -/
def sackedBlocks (blocks : List SACKBlock) (ack : UInt32) : List SACKBlock :=
  match blocks with
  | [] => []
  | b :: rest => if !seqGreaterThan b.stop ack then rest else b :: rest

/-- Every entry the blocks cover is marked already, a D-SACK has been seen before, and no entry is
    judged lost. -/
structure Sender.SACKInert (s : Sender) (blocks : List SACKBlock) (ack : UInt32) : Prop where
  dsack : ∀ b, blocks.head? = some b → seqGreaterThan b.stop ack = false → s.dsackSeen = true
  marked : ∀ e ∈ s.unacked, e.sacked = true ∨ ∀ b ∈ sackedBlocks blocks ack,
    ¬(b.start ≤ e.seq ∧ e.seq + UInt32.ofNat e.data.length ≤ b.stop)
  noLoss : NoLoss s.unacked

theorem Sender.markSACKed_eq_iff {l : List SACKBlock} {e : UnackedSegment} :
    (Sender.markSACKed l e).sacked = e.sacked ↔ e.sacked = true ∨
      ∀ b ∈ l, ¬(b.start ≤ e.seq ∧ e.seq + UInt32.ofNat e.data.length ≤ b.stop) := by
  rw [Sender.markSACKed]
  cases hs : e.sacked with
  | true => simp [hs]
  | false => simp [List.any_eq_false]

theorem Sender.markSACKed_of_sacked {l : List SACKBlock} {e : UnackedSegment}
    (h : (Sender.markSACKed l e).sacked = e.sacked) : Sender.markSACKed l e = e := by
  rw [Sender.markSACKed] at h ⊢
  split_ifs at h ⊢ with hs
  · rfl
  · rw [show (l.any fun b => decide (e.seq ≥ b.start) &&
      decide (e.seq + UInt32.ofNat e.data.length ≤ b.stop)) = e.sacked from h]

theorem Sender.processSACKBlocks_marks (s : Sender) (blocks : List SACKBlock) (ack : UInt32) :
    (s.processSACKBlocks blocks ack).unacked
      = s.unacked.map (Sender.markSACKed (sackedBlocks blocks ack)) := by
  rw [Sender.processSACKBlocks.eq_def]
  split
  · rfl
  · rw [sackedBlocks]
    split <;> rfl

theorem Sender.processSACKBlocks_dsack (s : Sender) (blocks : List SACKBlock) (ack : UInt32) :
    (s.processSACKBlocks blocks ack).dsackSeen = s.dsackSeen ↔
      ∀ b, blocks.head? = some b → seqGreaterThan b.stop ack = false → s.dsackSeen = true := by
  rw [Sender.processSACKBlocks.eq_def]
  split
  · simp
  · rename_i b rest
    cases hb : seqGreaterThan b.stop ack with
    | true => simp [hb]
    | false =>
      rw [if_pos (by rfl)]
      exact ⟨fun h _ _ _ => h.symm, fun h => (h b rfl hb).symm⟩

theorem sackLossLoop_of_noLoss : ∀ {l : List UnackedSegment} (c : TCPConn), NoLoss l →
    TCPConn.sackLossLoop l c = (l, c)
  | [], _, _ => rfl
  | e :: rest, c, h => by
      rw [TCPConn.sackLossLoop, sackLossLoop_of_noLoss c h.2]
      rcases h.1 with h | h | h
      · rw [h, Bool.true_or, if_pos rfl]
      · rw [h, Bool.or_true, if_pos rfl]
      · rw [if_neg (by omega : ¬rest.countP UnackedSegment.sacked ≥ 3), ite_self]

/-- The loop leaves the marks alone. -/
theorem sackLossLoop_sacked : ∀ (l : List UnackedSegment) (c : TCPConn),
    (TCPConn.sackLossLoop l c).1.map UnackedSegment.sacked = l.map UnackedSegment.sacked
  | [], _ => rfl
  | e :: rest, c => by
      rw [TCPConn.sackLossLoop]
      split_ifs
      all_goals
        dsimp only
        rw [List.map_cons, List.map_cons, sackLossLoop_sacked rest]
        try rfl

theorem noLoss_of_sackLossLoop : ∀ {l : List UnackedSegment} {c : TCPConn},
    (TCPConn.sackLossLoop l c).1 = l → NoLoss l
  | [], _, _ => trivial
  | e :: rest, c, h => by
      rw [TCPConn.sackLossLoop] at h
      split_ifs at h with hdone hcount hfin
      · rw [Bool.or_eq_true] at hdone
        exact ⟨hdone.imp_right .inl, noLoss_of_sackLossLoop (List.cons.inj h).2⟩
      · have hre := congrArg UnackedSegment.retransmitted (List.cons.inj h).1
        exact ⟨.inr (.inl hre.symm), noLoss_of_sackLossLoop (List.cons.inj h).2⟩
      · have hre := congrArg UnackedSegment.retransmitted (List.cons.inj h).1
        exact ⟨.inr (.inl hre.symm), noLoss_of_sackLossLoop (List.cons.inj h).2⟩
      · exact ⟨.inr (.inr (by omega)), noLoss_of_sackLossLoop (List.cons.inj h).2⟩

theorem map_eq_self {l : List UnackedSegment} {f : UnackedSegment → UnackedSegment}
    (h : ∀ e ∈ l, f e = e) : l.map f = l :=
  (List.map_congr_left h).trans (List.map_id' l)

theorem Sender.SACKInert.processSACKBlocks {s : Sender} {blocks : List SACKBlock} {ack : UInt32}
    (h : s.SACKInert blocks ack) : s.processSACKBlocks blocks ack = s := by
  have hmarks : (s.processSACKBlocks blocks ack).unacked = s.unacked := by
    rw [s.processSACKBlocks_marks]
    exact map_eq_self fun e he => markSACKed_of_sacked (markSACKed_eq_iff.2 (h.marked e he))
  have hseen := (s.processSACKBlocks_dsack blocks ack).2 h.dsack
  obtain ⟨marked, seen, he⟩ := TCPConn.processSACKBlocks_eq s blocks ack
  rw [he] at hmarks hseen ⊢
  rw [show s.unacked.map (markSACKed marked) = s.unacked from hmarks,
    show seen = s.dsackSeen from hseen]

namespace TCPConn

variable {c c' c'' : TCPConn} {seg : Segment}

/-- SACK is off, the segment has no blocks, or they change nothing. -/
def SACKInert (c : TCPConn) (seg : Segment) : Prop :=
  c.env.sackPermitted = true → (parseSegmentOptions seg.options).sackBlocks ≠ [] →
    c.tx.snd.SACKInert (parseSegmentOptions seg.options).sackBlocks seg.ack

theorem handleSACK_of_inert (h : c.SACKInert seg) : c.handleSACK seg = c := by
  rw [handleSACK]
  dsimp only
  split_ifs with hon
  · simp only [Bool.and_eq_true, Bool.not_eq_true', List.isEmpty_eq_false_iff] at hon
    have hs := h hon.1.1 hon.2
    rw [hs.processSACKBlocks, sackLossDetection, sackLossLoop_of_noLoss _ hs.noLoss]
  · rfl

theorem handleSACK_kept (c : TCPConn) (seg : Segment) :
    { (c.handleSACK seg).kept.1 with dsackSeen := false } = { c.kept.1 with dsackSeen := false } := by
  rw [handleSACK]
  dsimp only
  split
  · obtain ⟨_, _, he⟩ := processSACKBlocks_eq c.tx.snd
      (parseSegmentOptions seg.options).sackBlocks seg.ack
    rw [he, sackLossDetection_kept]
    rfl
  · rfl

theorem sackLossDetection_dsackSeen (c : TCPConn) :
    c.sackLossDetection.tx.snd.dsackSeen = c.tx.snd.dsackSeen :=
  congrArg (fun k => k.1.dsackSeen) (sackLossDetection_kept c)

theorem sackInert_of_handleSACK (h : (c.handleSACK seg).tx.snd = c.tx.snd) : c.SACKInert seg := by
  intro hperm hblocks
  have hoptions : seg.options ≠ [] := by
    intro hnil
    rw [hnil] at hblocks
    exact hblocks rfl
  rw [handleSACK] at h
  dsimp only at h
  rw [if_pos (by simp [hperm, hblocks, hoptions])] at h
  set blocks := (parseSegmentOptions seg.options).sackBlocks
  have hseen : (c.tx.snd.processSACKBlocks blocks seg.ack).dsackSeen = c.tx.snd.dsackSeen :=
    (sackLossDetection_dsackSeen _).symm.trans (congrArg Sender.dsackSeen h)
  have hlist : (sackLossLoop (c.tx.snd.processSACKBlocks blocks seg.ack).unacked
      { c with tx.snd := c.tx.snd.processSACKBlocks blocks seg.ack }).1 = c.tx.snd.unacked :=
    congrArg Sender.unacked h
  have hmarks : ∀ e ∈ c.tx.snd.unacked,
      (Sender.markSACKed (sackedBlocks blocks seg.ack) e).sacked = e.sacked := by
    have hs := sackLossLoop_sacked (c.tx.snd.processSACKBlocks blocks seg.ack).unacked
      { c with tx.snd := c.tx.snd.processSACKBlocks blocks seg.ack }
    rw [hlist, Sender.processSACKBlocks_marks, List.map_map] at hs
    exact fun e he => ((List.map_inj_left.1 hs) e he).symm
  have hsame : (c.tx.snd.processSACKBlocks blocks seg.ack).unacked = c.tx.snd.unacked := by
    rw [Sender.processSACKBlocks_marks]
    exact map_eq_self fun e he => Sender.markSACKed_of_sacked (hmarks e he)
  rw [hsame] at hlist
  exact ⟨(Sender.processSACKBlocks_dsack _ _ _).1 hseen,
    fun e he => Sender.markSACKed_eq_iff.1 (hmarks e he), noLoss_of_sackLossLoop hlist⟩

/-! ### Acknowledgments that are passed over -/

/-- `handleACK` passes over the acknowledgment: it is not a duplicate, and it compares as old or as
    beyond `snd.nxt`. -/
def Ignores (c : TCPConn) (ack : UInt32) : Prop :=
  ack ≠ c.tx.snd.una ∧ (seqGreaterThan ack c.tx.snd.una = true → seqGreaterThan ack c.tx.snd.nxt = true)

theorem handleACK_of_ignores {ack : UInt32} (h : c.Ignores ack) : c.handleACK ack = c := by
  rw [handleACK, if_neg h.1, if_pos]
  cases hnew : seqGreaterThan ack c.tx.snd.una with
  | false => rfl
  | true => rw [h.2 hnew, Bool.or_true]

theorem Ignores.resends {ack : UInt32} (h : c.Ignores ack) (hr : Resends c c') : c'.Ignores ack := by
  rw [Ignores, hr.una, hr.nxt]
  exact h

instance {ack : UInt32} : Decidable (ValidACK c ack) := Nat.decLe _ _

/-- An acknowledgment outside `[una, nxt]` is passed over. -/
theorem ignores_of_not_validACK {ack : UInt32} (h : ¬ValidACK c ack) : c.Ignores ack := by
  rw [ValidACK, not_le] at h
  refine ⟨?_, fun hnew => ?_⟩
  · rintro rfl
    simp at h
  · rw [seqGreaterThan, decide_eq_true_iff, gt_iff_lt, toInt32_pos_iff] at hnew ⊢
    have hsub : ack - c.tx.snd.nxt = (ack - c.tx.snd.una) - (c.tx.snd.nxt - c.tx.snd.una) := by
      grind
    rw [hsub, UInt32.toNat_sub_of_le _ _ (UInt32.le_iff_toNat_le.2 h.le)]
    omega

/-- Neither branch of the zero-window part is taken. -/
def ZeroWindowInert (c : TCPConn) : Prop :=
  (0 < c.tx.snd.wnd → c.tx.zeroWindowProbing = false) ∧
  (c.tx.snd.wnd = 0 → 0 < c.tx.writeBuf.len → c.tx.zeroWindowProbing = true)

theorem manageZeroWindow_of_inert (h : c.ZeroWindowInert) : c.manageZeroWindow = c := by
  rw [manageZeroWindow, if_neg, if_neg]
  · rintro ⟨hw, hlen, hp⟩
    exact hp (h.2 hw hlen)
  · rintro ⟨hw, hp⟩
    exact absurd (hp.symm.trans (h.1 hw)) (by simp)

theorem zeroWindowInert_of_probing (hs : c.ctl.synced = true)
    (hp : c.manageZeroWindow.tx.zeroWindowProbing = c.tx.zeroWindowProbing) : c.ZeroWindowInert := by
  rw [manageZeroWindow] at hp
  refine ⟨fun hw => ?_, fun hw hlen => ?_⟩
  · by_contra hprobe
    rw [Bool.not_eq_false] at hprobe
    have hsame := congrArg (fun k => k.2.1) (sendPending_kept c.cancelZeroWindowProbe)
    rw [if_pos ⟨hw, hprobe⟩, hprobe] at hp
    have hcancel : c.cancelZeroWindowProbe.tx.zeroWindowProbing = true := hsame.symm.trans hp
    rw [cancelZeroWindowProbe, if_pos hprobe] at hcancel
    cases hcancel
  · by_contra hprobe
    rw [Bool.not_eq_true] at hprobe
    rw [if_neg (by simp [hw]), if_pos ⟨hw, hlen, by simp [hprobe]⟩, checkZeroWindow,
      if_neg (by simp [hs, hprobe]), if_pos ⟨hw, hlen⟩, hprobe] at hp
    cases hp

/-! ### The ACK part of each state -/

/-- The window field repeats the window already known. -/
def SameWnd (c : TCPConn) (seg : Segment) : Prop :=
  scaledWnd seg.wnd c.env.sndWndScale = c.tx.snd.wnd

/-- What ESTABLISHED takes from the segment besides the acknowledgment changes nothing. -/
structure EstablishedInert (c : TCPConn) (seg : Segment) : Prop where
  wnd : c.SameWnd seg
  maxWnd : c.tx.snd.wnd ≤ c.tx.snd.maxWnd
  rtt : c.RTTInert seg
  sack : c.SACKInert seg
  zeroWindow : c.ZeroWindowInert

/-- All of it is read off the environment, the send side and the clock. -/
theorem EstablishedInert.of_view (h : c.EstablishedInert seg) (henv : c'.env = c.env)
    (htx : c'.tx = c.tx) (hticks : c'.ticks = c.ticks) : c'.EstablishedInert seg := by
  obtain ⟨hwnd, hmax, hrtt, hsack, hzero⟩ := h
  simp only [SameWnd, RTTInert, SACKInert, ZeroWindowInert, handlerNow, now] at hwnd hrtt hsack hzero
  rw [← henv, ← htx] at hwnd hrtt hsack
  rw [← hticks] at hrtt
  rw [← htx] at hmax hzero
  exact ⟨hwnd, hmax, hrtt, hsack, hzero⟩

theorem establishedACK_of_inert (hign : c.Ignores seg.ack) (h : c.EstablishedInert seg) :
    ∃ n, c.establishedACK seg = { c with ticks := n } := by
  obtain ⟨n, hm⟩ := measureRTTM_of_inert h.rtt
  have hsack : ({ c with ticks := n } : TCPConn).handleSACK seg = { c with ticks := n } :=
    handleSACK_of_inert h.sack
  have hack : ({ c with ticks := n } : TCPConn).handleACK seg.ack = { c with ticks := n } :=
    handleACK_of_ignores hign
  have hzero : ({ c with ticks := n } : TCPConn).manageZeroWindow = { c with ticks := n } :=
    manageZeroWindow_of_inert h.zeroWindow
  rw [establishedACK]
  split
  · refine ⟨n, ?_⟩
    rw [processACK, setWnd_of_eq h.wnd, noteMaxWnd_of_le h.maxWnd, hm, hsack, hack, sendOnUpdate,
      if_neg (fun hu => hign.1 hu.1), hzero]
  · exact ⟨c.ticks, rfl⟩

/-- The rest of ESTABLISHED's ACK part, once the acknowledgment has been passed over. -/
theorem establishedACK_of_ignores (hs : c.ctl.synced = true) (hack : seg.flags.has tcpFlagACK = true)
    (hign : c.Ignores seg.ack) : c.establishedACK seg
      = (((c.setWnd seg).noteMaxWnd.measureRTTM seg).handleSACK seg).manageZeroWindow := by
  have hign' := hign.resends ((((Resends.setWnd c seg).trans (.noteMaxWnd _)).trans
    (.measureRTTM _ seg)).trans (.handleSACK _ seg))
  rw [establishedACK, if_pos ⟨hack, hs⟩, processACK, handleACK_of_ignores hign', sendOnUpdate,
    if_neg (fun hu => hign'.1 hu.1)]

/-- Where the windows stayed as they were, the segment brought nothing new about them. -/
theorem sameWnd_of_pacing (hp : c'.pacing = (c.setWnd seg).noteMaxWnd.pacing) (h : c'.tx = c.tx) :
    c.SameWnd seg ∧ c.tx.snd.wnd ≤ c.tx.snd.maxWnd := by
  have hwnd : c.SameWnd seg := (congrArg Prod.fst hp).symm.trans (congrArg (·.snd.wnd) h)
  rw [setWnd_of_eq hwnd] at hp
  exact ⟨hwnd, le_maxWnd_of_noteMaxWnd ((congrArg (fun p => p.2.1) hp).symm.trans
    (congrArg (·.snd.maxWnd) h))⟩

theorem establishedACK_tx_iff (hs : c.ctl.synced = true) (hack : seg.flags.has tcpFlagACK = true)
    (hign : c.Ignores seg.ack) : (c.establishedACK seg).tx = c.tx ↔ c.EstablishedInert seg := by
  constructor
  · intro h
    rw [establishedACK_of_ignores hs hack hign] at h
    have t : TxOnly c (((c.setWnd seg).noteMaxWnd.measureRTTM seg).handleSACK seg) :=
      (((TxOnly.setWnd c seg).trans (.noteMaxWnd _)).trans (.measureRTTM _ seg)).trans (.handleSACK _ seg)
    have hpacing := (handleSACK_pacing ((c.setWnd seg).noteMaxWnd.measureRTTM seg) seg).trans
      (measureRTTM_pacing (c.setWnd seg).noteMaxWnd seg)
    have hprobing : (((c.setWnd seg).noteMaxWnd.measureRTTM seg).handleSACK seg).tx.zeroWindowProbing
        = c.tx.zeroWindowProbing := congrArg (fun p => p.2.2.2.2.2.2.1) hpacing
    -- the zero-window part did nothing, so the rest is what `h` is about
    have hzero := zeroWindowInert_of_probing (t.ctl ▸ hs) ((congrArg Tx.zeroWindowProbing h).trans
      hprobing.symm)
    rw [manageZeroWindow_of_inert hzero] at h
    obtain ⟨hwnd, hmax⟩ := sameWnd_of_pacing hpacing h
    rw [setWnd_of_eq hwnd, noteMaxWnd_of_le hmax] at h
    have hkept := handleSACK_kept (c.measureRTTM seg) seg
    have hrtt : c.RTTInert seg := rttInert_of_measureRTTM
      ((congrArg Sender.srtt hkept).symm.trans (congrArg (·.snd.srtt) h))
      ((congrArg Sender.rttvar hkept).symm.trans (congrArg (·.snd.rttvar) h))
      ((congrArg Sender.rto hkept).symm.trans (congrArg (·.snd.rto) h))
    obtain ⟨n, hm⟩ := measureRTTM_of_inert hrtt
    rw [hm] at h
    rw [setWnd_of_eq hwnd, noteMaxWnd_of_le hmax, hm] at hzero
    have hsack : ({ c with ticks := n } : TCPConn).SACKInert seg := sackInert_of_handleSACK (by rw [h])
    rw [handleSACK_of_inert hsack] at hzero
    exact ⟨hwnd, hmax, hrtt, hsack, hzero⟩
  · intro h
    obtain ⟨n, he⟩ := establishedACK_of_inert hign h
    rw [he]

theorem measureRTTM_setWnd_tx_iff : ((c.setWnd seg).measureRTTM seg).tx = c.tx ↔
    c.SameWnd seg ∧ c.RTTInert seg := by
  constructor
  · intro h
    have hwnd : c.SameWnd seg :=
      (congrArg Prod.fst (measureRTTM_pacing (c.setWnd seg) seg)).symm.trans (congrArg (·.snd.wnd) h)
    rw [setWnd_of_eq hwnd] at h
    exact ⟨hwnd, measureRTTM_tx_iff.1 h⟩
  · rintro ⟨hwnd, hrtt⟩
    rw [setWnd_of_eq hwnd, measureRTTM_tx_iff.2 hrtt]

theorem measureRTTM_noteMaxWnd_tx_iff : ((c.setWnd seg).noteMaxWnd.measureRTTM seg).tx = c.tx ↔
    c.SameWnd seg ∧ c.tx.snd.wnd ≤ c.tx.snd.maxWnd ∧ c.RTTInert seg := by
  constructor
  · intro h
    obtain ⟨hwnd, hmax⟩ := sameWnd_of_pacing (measureRTTM_pacing (c.setWnd seg).noteMaxWnd seg) h
    rw [setWnd_of_eq hwnd, noteMaxWnd_of_le hmax] at h
    exact ⟨hwnd, hmax, measureRTTM_tx_iff.1 h⟩
  · rintro ⟨hwnd, hmax, hrtt⟩
    rw [setWnd_of_eq hwnd, noteMaxWnd_of_le hmax, measureRTTM_tx_iff.2 hrtt]

/-- What the handler of the state takes from the segment before it looks at the acknowledgment
    changes nothing. In ESTABLISHED the clock has been read once by then. -/
def AckInert (c : TCPConn) (seg : Segment) : Prop :=
  match c.ctl.state with
  | .established => c.tick.EstablishedInert seg
  | .finWait1 => c.SameWnd seg ∧ c.RTTInert seg
  | .finWait2 => c.SameWnd seg
  | .closeWait => c.SameWnd seg ∧ c.tx.snd.wnd ≤ c.tx.snd.maxWnd ∧ c.RTTInert seg
  | .closing => c.RTTInert seg
  | _ => True

/-! ### The handlers -/

/-- What the handler of the state does with the acknowledgment, before it turns to the payload. -/
def ackPart (c : TCPConn) (seg : Segment) : TCPConn :=
  match c.ctl.state with
  | .established => c.resetKeepalive.establishedACK seg
  | .finWait1 => c.finWait1ACK seg
  | .finWait2 => c.finWait2ACK seg
  | .closeWait => c.handleCloseWait seg
  | .closing => if seg.flags.has tcpFlagACK ∧ c.ctl.synced then c.closingACK seg else c
  | _ => c

/-- A state whose handler reads the acknowledgment number with `handleACK` and goes on. -/
def takesACK (st : TCPState) : Bool :=
  st == .established || st == .finWait1 || st == .closeWait || st == .closing

/-- After the acknowledgment only the receive side and the state machine are at work. -/
theorem dispatch_rxOnly (c : TCPConn) (seg : Segment) (hsyn : c.ctl.state ≠ .synRcvd)
    (hlast : c.ctl.state ≠ .lastAck) : RxOnly (c.ackPart seg) (c.dispatch seg) := by
  cases hst : c.ctl.state <;> rw [dispatch, ackPart, hst]
  case synRcvd => exact absurd hst hsyn
  case established => exact (RxOnly.takePayload _ seg).trans (.establishedFIN _ seg)
  case finWait1 => exact (Finishes.handleFinWait1 c seg).rxOnly
  case finWait2 => exact (Finishes.handleFinWait2 c seg).rxOnly
  case closeWait => exact .refl _
  case closing =>
    dsimp only
    rw [handleClosing]
    split_ifs
    · exact .enterTimeWait _
    · exact .reACKFIN _ seg
    · exact .reACKFIN c seg
  case lastAck => exact absurd hst hlast
  case timeWait => exact .handleTimeWait c seg
  case closed => exact .refl c

theorem setWnd_tx_iff : (c.setWnd seg).tx = c.tx ↔ c.SameWnd seg := by
  constructor
  · intro h
    exact congrArg (·.snd.wnd) h
  · intro h
    rw [setWnd_of_eq h]

/-- Once the acknowledgment is passed over, the send side is left alone exactly if the rest is
    inert. -/
theorem ackPart_tx_iff (hs : c.ctl.synced = true) (hack : seg.flags.has tcpFlagACK = true)
    (hign : takesACK c.ctl.state = true → c.Ignores seg.ack) :
    (c.ackPart seg).tx = c.tx ↔ c.AckInert seg := by
  cases hst : c.ctl.state <;> rw [hst] at hign <;> rw [ackPart, AckInert, hst] <;> dsimp only
  case established =>
    refine (establishedACK_tx_iff (c := c.resetKeepalive) hs hack (hign rfl)).trans ?_
    exact ⟨fun h => h.of_view rfl rfl rfl, fun h => h.of_view rfl rfl rfl⟩
  case finWait1 =>
    rw [finWait1ACK, if_pos ⟨hack, hs⟩, handleACK_of_ignores ((hign rfl).resends
      ((Resends.setWnd c seg).trans (.measureRTTM _ seg)))]
    exact measureRTTM_setWnd_tx_iff
  case finWait2 =>
    rw [finWait2ACK, if_pos ⟨hack, hs⟩]
    exact setWnd_tx_iff
  case closeWait =>
    rw [handleCloseWait, if_pos ⟨hack, hs⟩, handleACK_of_ignores ((hign rfl).resends
      (((Resends.setWnd c seg).trans (.noteMaxWnd _)).trans (.measureRTTM _ seg)))]
    exact measureRTTM_noteMaxWnd_tx_iff
  case closing =>
    rw [if_pos ⟨hack, hs⟩, closingACK, handleACK_of_ignores ((hign rfl).resends
      (.measureRTTM _ seg))]
    exact measureRTTM_tx_iff
  all_goals simp

/-- An inert acknowledgment starts timers and reads the clock, at most. -/
theorem ackPart_of_inert (hign : takesACK c.ctl.state = true → c.Ignores seg.ack)
    (hin : c.AckInert seg) : ∃ t n, c.ackPart seg = { c with timers := t, ticks := n } := by
  have hpass : ∀ n, takesACK c.ctl.state = true →
      ({ c with ticks := n } : TCPConn).handleACK seg.ack = { c with ticks := n } :=
    fun n hst => handleACK_of_ignores (hign hst)
  have hsame : ∃ t n, c = { c with timers := t, ticks := n } := ⟨c.timers, c.ticks, rfl⟩
  rw [AckInert] at hin
  cases hst : c.ctl.state <;> rw [hst] at hin hign hpass <;> rw [ackPart, hst] <;> dsimp only
  case established =>
    have hin : c.tick.EstablishedInert seg := hin
    obtain ⟨n, he⟩ := establishedACK_of_inert (c := c.resetKeepalive) (hign rfl)
      (hin.of_view rfl rfl rfl)
    exact ⟨_, n, he⟩
  case finWait1 =>
    obtain ⟨n, he⟩ := measureRTTM_of_inert hin.2
    rw [finWait1ACK, setWnd_of_eq hin.1, he, hpass n rfl]
    split
    · exact ⟨c.timers, n, rfl⟩
    · exact hsame
  case finWait2 =>
    rw [finWait2ACK, setWnd_of_eq hin, ite_self]
    exact hsame
  case closeWait =>
    obtain ⟨n, he⟩ := measureRTTM_of_inert hin.2.2
    rw [handleCloseWait, setWnd_of_eq hin.1, noteMaxWnd_of_le hin.2.1, he, hpass n rfl]
    split
    · exact ⟨c.timers, n, rfl⟩
    · exact hsame
  case closing =>
    obtain ⟨n, he⟩ := measureRTTM_of_inert hin
    rw [closingACK, he, hpass n rfl]
    split
    · exact ⟨c.timers, n, rfl⟩
    · exact hsame
  all_goals exact hsame

/-- Without an acknowledgment there is nothing to take. -/
theorem ackPart_of_noACK (hack : seg.flags.has tcpFlagACK = false) :
    ∃ t n, c.ackPart seg = { c with timers := t, ticks := n } := by
  have hsame : ∃ t n, c = { c with timers := t, ticks := n } := ⟨c.timers, c.ticks, rfl⟩
  rw [ackPart.eq_def]
  split
  · rw [establishedACK, hack, if_neg (by simp)]
    exact ⟨_, _, rfl⟩
  · rw [finWait1ACK, hack, if_neg (by simp)]
    exact hsame
  · rw [finWait2ACK, hack, if_neg (by simp)]
    exact hsame
  · rw [handleCloseWait, hack, if_neg (by simp)]
    exact hsame
  · rw [hack, if_neg (by simp)]
    exact hsame
  · exact hsame

/-- `c'` comes from `c` by a segment that left the send side alone and made no data go out. -/
structure Isolated (c c' : TCPConn) : Prop where
  tx : c'.tx = c.tx
  out : ∃ ps, c'.wire.out = c.wire.out ++ ps ∧ ∀ p ∈ ps, p.payload = []

theorem Isolated.of_rxOnly {c c₁ c' : TCPConn} (hr : RxOnly c₁ c') (htx : c₁.tx = c.tx)
    (hout : c₁.wire.out = c.wire.out) : Isolated c c' := by
  obtain ⟨ps, hps, hp⟩ := hr.sent
  exact ⟨hr.tx.trans htx, ps, by rw [hps, hout], fun p h => (hp p h).1⟩

theorem updateTSRecent_eq (c : TCPConn) (seg : Segment) :
    ∃ v, c.updateTSRecent seg = { c with wire.tsRecent := v } := by
  rw [updateTSRecent]
  split
  · split
    · exact ⟨_, rfl⟩
    · exact ⟨c.wire.tsRecent, rfl⟩
  · exact ⟨c.wire.tsRecent, rfl⟩

theorem ackInert_tsRecent {v : UInt32} :
    ({ c with wire.tsRecent := v } : TCPConn).AckInert seg ↔ c.AckInert seg := by
  rw [AckInert, AckInert]
  dsimp only
  cases c.ctl.state
  case established => exact ⟨fun h => h.of_view rfl rfl rfl, fun h => h.of_view rfl rfl rfl⟩
  all_goals rfl

/-- The handler of the state gets to see the segment, and reads its acknowledgment number. -/
def AckRead (c : TCPConn) (seg : Segment) : Prop :=
  c.pawsDrop seg = false ∧ seg.flags.has tcpFlagRST = false ∧ seg.flags.has tcpFlagSYN = false ∧
    seg.flags.has tcpFlagACK = true

end TCPConn

open TCPConn

theorem synced_of_takesACK {ok : Sys → Event → Prop} {s : Sys} (hr : Reach Sys.Init Sys.step ok s)
    (hst : takesACK s.conn.ctl.state = true) : s.conn.ctl.synced = true := by
  refine (syncedInside_reach hr).resolve_right ?_
  rintro (h | h) <;> rw [h] at hst <;> cases hst

/-- SAFE, with the condition it needs: a segment whose acknowledgment number lies outside
    `[snd.una, snd.nxt]` leaves the send side alone and makes no data go out, exactly if the
    acknowledgment is not looked at or what the handler takes from the segment beside it is inert. -/
theorem invalid_ack_isolated_iff {s : Sys} (hr : Reach Sys.Init Sys.step (fun _ _ => True) s)
    (seg : Segment) (hst : takesACK s.conn.ctl.state = true) (hack : ¬ValidACK s.conn seg.ack) :
    Isolated s.conn (s.conn.handleSegment seg) ↔ (AckRead s.conn seg → s.conn.AckInert seg) := by
  have hs := synced_of_takesACK hr hst
  generalize s.conn = c at hst hack hs
  have hign := ignores_of_not_validACK hack
  have hsyn : c.ctl.state ≠ .synRcvd := fun h => by rw [h] at hst; cases hst
  have hlast : c.ctl.state ≠ .lastAck := fun h => by rw [h] at hst; cases hst
  by_cases hread : AckRead c seg
  · obtain ⟨v, hv⟩ := updateTSRecent_eq c seg
    have hrest := dispatch_rxOnly { c with wire.tsRecent := v } seg hsyn hlast
    have heq : c.handleSegment seg = ({ c with wire.tsRecent := v } : TCPConn).dispatch seg := by
      rw [handleSegment, hread.1, if_neg (by simp), hread.2.1, if_neg (by simp), hread.2.2.1,
        if_neg (by simp), hv]
    rw [heq]
    constructor
    · intro h _
      refine ackInert_tsRecent.1 ((ackPart_tx_iff (c := { c with wire.tsRecent := v }) hs hread.2.2.2
        fun _ => hign).1 ?_)
      exact hrest.tx.symm.trans h.tx
    · intro h
      obtain ⟨t, n, he⟩ := ackPart_of_inert (c := { c with wire.tsRecent := v }) (fun _ => hign)
        (ackInert_tsRecent.2 (h hread))
      rw [he] at hrest
      exact .of_rxOnly hrest rfl rfl
  · refine ⟨fun _ h => absurd h hread, fun _ => ?_⟩
    rw [handleSegment]
    split_ifs with hpaws hrst hsynf
    · exact .of_rxOnly (.refl c) rfl rfl
    · exact .of_rxOnly (.handleRSTSegment c seg) rfl rfl
    · exact .of_rxOnly (.sendACK c) rfl rfl
    · obtain ⟨v, hv⟩ := updateTSRecent_eq c seg
      have hno : seg.flags.has tcpFlagACK = false := by
        by_contra hyes
        exact hread ⟨by simpa using hpaws, by simpa using hrst, by
          by_contra h
          exact hsynf ⟨by simpa using h, hsyn⟩, by simpa using hyes⟩
      rw [hv]
      have hrest := dispatch_rxOnly { c with wire.tsRecent := v } seg hsyn hlast
      obtain ⟨t, n, he⟩ := ackPart_of_noACK (c := { c with wire.tsRecent := v }) hno
      rw [he] at hrest
      exact .of_rxOnly hrest rfl rfl

/-- Without timestamps, SACK and a zero window, ESTABLISHED takes the window and nothing else. -/
structure Plain (c : TCPConn) (wnd : UInt16) : Prop where
  state : c.ctl.state = .established
  sameWnd : scaledWnd wnd c.env.sndWndScale = c.tx.snd.wnd
  maxWnd : c.tx.snd.wnd ≤ c.tx.snd.maxWnd
  open_ : c.tx.snd.wnd ≠ 0 ∧ c.tx.zeroWindowProbing = false
  noTS : c.env.tsEnabled = false
  noSACK : c.env.sackPermitted = false

theorem Segment.timestamp_of_off (env : Env) (h : env.tsEnabled = false) (seg : Segment) :
    seg.timestamp env = none := by
  rw [Segment.timestamp, h, Bool.false_and, if_neg (by simp)]

theorem Plain.ackInert {c : TCPConn} {seg : Segment} (h : Plain c seg.wnd) : c.AckInert seg := by
  rw [AckInert, h.state]
  refine ⟨h.sameWnd, h.maxWnd, fun ts hts => ?_, fun hs => ?_, fun _ => h.open_.2,
    fun hz => absurd hz h.open_.1⟩
  · rw [Segment.timestamp_of_off c.tick.env h.noTS] at hts
    cases hts
  · exact absurd (h.noSACK.symm.trans hs) (by simp)

instance {c : TCPConn} {wnd : UInt16} : Decidable (Plain c wnd) :=
  decidable_of_iff (c.ctl.state = .established ∧ scaledWnd wnd c.env.sndWndScale = c.tx.snd.wnd ∧
      c.tx.snd.wnd ≤ c.tx.snd.maxWnd ∧ (c.tx.snd.wnd ≠ 0 ∧ c.tx.zeroWindowProbing = false) ∧
      c.env.tsEnabled = false ∧ c.env.sackPermitted = false)
    ⟨fun ⟨h₁, h₂, h₃, h₄, h₅, h₆⟩ => ⟨h₁, h₂, h₃, h₄, h₅, h₆⟩,
      fun ⟨h₁, h₂, h₃, h₄, h₅, h₆⟩ => ⟨h₁, h₂, h₃, h₄, h₅, h₆⟩⟩

/-- An acknowledgment of bytes never sent, which repeats the window already known. -/
theorem invalid_ack_isolated : ∃ s : Sys, s.conn.ctl.state = .established ∧
    Isolated s.conn (s.conn.handleSegment (Sys.sampleSegment tcpFlagACK 101 999 1000 [])) := by
  obtain ⟨s, hr, hplain, hack⟩ := Sys.exists_reach Sys.init_sample (fun _ _ => true)
    (fun s => Plain s.conn 1000 ∧ ¬ValidACK s.conn 999) [Sys.sampleACK] (by decide +kernel)
  exact ⟨s, hplain.state, (invalid_ack_isolated_iff (hr.mono fun _ _ _ => trivial)
    (Sys.sampleSegment tcpFlagACK 101 999 1000 []) (by rw [hplain.state]; rfl) hack).2
      fun _ => hplain.ackInert⟩

/-- The same acknowledgment with another window: `snd.wnd` is overwritten. -/
theorem invalid_ack_sets_window : ∃ s : Sys, Reach Sys.Init Sys.step (fun _ _ => True) s ∧
    s.conn.ctl.state = .established ∧ ¬ValidACK s.conn 999 ∧ s.conn.tx.snd.wnd = 1000 ∧
    (s.conn.handleSegment (Sys.sampleSegment tcpFlagACK 101 999 5 [])).tx.snd.wnd = 5 := by
  obtain ⟨s, hr, hs⟩ := Sys.exists_reach Sys.init_sample (fun _ _ => true)
    (fun s => s.conn.ctl.state = .established ∧
      ¬ValidACK s.conn 999 ∧
      s.conn.tx.snd.wnd = 1000 ∧
      (s.conn.handleSegment (Sys.sampleSegment tcpFlagACK 101 999 5 [])).tx.snd.wnd = 5)
    [Sys.sampleACK] (by decide +kernel)
  exact ⟨s, hr.mono fun _ _ _ => trivial, hs⟩

end Netstack.Tcp
