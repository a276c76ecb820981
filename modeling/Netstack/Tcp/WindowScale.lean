import Netstack.Tcp.SegmentIsolation
import Netstack.Tcp.Mss
import Netstack.Lib.Simulation

/-! Window scaling, as the two ends see it.

    `handleSYN` fixes both shift counts from the peer's SYN and the sizes of the read buffer;
    `sendSYNACK` decides later, by a test of its own, whether the option is echoed. A peer that does
    not see the option in the SYN+ACK does not scale the windows it sends. The two tests agree unless
    the peer offers a shift and the read buffer never needs one: then the option is left out and the
    peer's windows are taken to be larger than they are. -/

namespace Netstack.Tcp
open Netstack.Header Netstack.Trace Netstack.Simulation

/-! ### The shift counts -/

theorem le_windowScaleLoop (b : ℕ) : ∀ fuel scale, scale ≤ windowScaleLoop b fuel scale
  | 0, _ => le_rfl
  | fuel + 1, scale => by
      rw [windowScaleLoop]
      split_ifs
      · exact (Nat.le_succ _).trans (le_windowScaleLoop b fuel (scale + 1))
      · exact le_rfl

theorem calculateWindowScale_le (b : ℤ) : calculateWindowScale b ≤ maxWndScale := by
  rw [calculateWindowScale]
  split_ifs
  · exact Nat.zero_le _
  · exact min_le_right _ _

/-- A shift is needed exactly for a buffer that 16 bits cannot count. -/
theorem calculateWindowScale_pos_iff (b : ℤ) : 0 < calculateWindowScale b ↔ 0xFFFF < b := by
  rw [calculateWindowScale]
  split_ifs with hb
  · exact iff_of_false (by simp) (by omega)
  · have hbit : b.toNat >>> (16 + 0) > 0 := by
      rw [Nat.shiftRight_eq_div_pow]
      exact Nat.div_pos (by norm_num; omega) (by norm_num)
    have hloop : 1 ≤ windowScaleLoop b.toNat 64 0 := by
      rw [windowScaleLoop, if_pos hbit]
      exact le_windowScaleLoop _ _ _
    exact iff_of_true (lt_min hloop (by decide)) (by omega)

/-! ### The option in the SYN+ACK -/

/-- `p` is a SYN+ACK that a connection with these parameters emits. -/
def SynAckOf (env : Env) (p : OutSegment) : Prop :=
  ∃ c : TCPConn, c.env = env ∧ c.sendSYNACK.wire.out = c.wire.out ++ [p]

/-- The option is read back as `rcvWndScale`, and is there only if that is positive. -/
theorem SynAckOf.ws {env : Env} {p : OutSegment} (h : SynAckOf env p)
    (hle : env.rcvWndScale ≤ maxWndScale) : (parseSynOptions p.options).ws =
      if env.rcvWndScale > 0 then (env.rcvWndScale : ℤ) else -1 := by
  obtain ⟨c, rfl, hp⟩ := h
  have hp := List.singleton_injective (List.append_cancel_left hp)
  rw [← hp]
  dsimp only
  have hmss := reads_mss (UInt16.ofInt (c.env.handler.mtu - ipv4MinHeaderSize - tcpMinHeaderSize))
  have hws : Header.Reads synOption
      (if c.env.rcvWndScale > 0 then tcpOptionNOP :: encodeWSOption c.env.rcvWndScale else [])
      fun so => if c.env.rcvWndScale > 0 then { so with ws := c.env.rcvWndScale } else so := by
    split_ifs
    · exact Header.Reads.nop.append (reads_ws hle)
    · exact .nil
  have hsack : Header.Reads synOption (if c.env.sackPermitted then encodeSACKPermittedOption else [])
      fun so => if c.env.sackPermitted then { so with sackPermit := true } else so := by
    split_ifs
    · exact reads_sackPermitted
    · exact .nil
  have hts : ∃ f, Header.Reads synOption c.tsOption f ∧ ∀ so, (f so).ws = so.ws := by
    rw [TCPConn.tsOption]
    split_ifs
    · exact ⟨_, reads_timestamp _ _, fun so => synOption_ws _ _ (by decide)⟩
    · exact ⟨id, .nil, fun _ => rfl⟩
  obtain ⟨f, hts, hf⟩ := hts
  rw [(reads_pad (((hmss.append hws).append hsack).append hts)).parseSynOptions]
  simp only [Function.comp_apply, hf, apply_ite SynOptions.ws, ite_self]
  rw [synOption_ws _ _ (by decide)]

/-- What the two ends hold is the same: no option, no scaling on either side; an option, and each
    side scales by what the other has announced. -/
structure ScalesAgree (env : Env) (offered echoed : SynOptions) : Prop where
  absent : echoed.ws < 0 → env.sndWndScale = 0 ∧ env.rcvWndScale = 0
  present : 0 ≤ echoed.ws → echoed.ws = env.rcvWndScale ∧ offered.ws = env.sndWndScale

/-- The shift the peer applies to the windows it sends: its offer, once that has been answered. -/
def peerShift (offered echoed : SynOptions) : ℕ :=
  if 0 ≤ offered.ws ∧ 0 ≤ echoed.ws then offered.ws.toNat else 0

theorem ScalesAgree.peerShift {env : Env} {offered echoed : SynOptions}
    (h : ScalesAgree env offered echoed) : peerShift offered echoed = env.sndWndScale := by
  rw [Tcp.peerShift]
  rcases lt_or_ge echoed.ws 0 with he | he
  · rw [if_neg (by omega), (h.absent he).1]
  · obtain ⟨-, ho⟩ := h.present he
    rw [if_pos ⟨by omega, he⟩, ho, Int.toNat_natCast]

theorem TCPHandler.rcvWndScale_le (h : TCPHandler) (irs iss : UInt32) (options : List UInt8) :
    (h.synEnv irs iss options).rcvWndScale ≤ maxWndScale := by
  rw [TCPHandler.synEnv]
  dsimp only
  split_ifs
  · exact calculateWindowScale_le _
  · exact Nat.zero_le _

/-- The ends agree unless a shift is offered and the read buffer needs none. -/
theorem scalesAgree_iff (h : TCPHandler) (irs iss : UInt32) (options : List UInt8) {p : OutSegment}
    (hp : SynAckOf (h.synEnv irs iss options) p) :
    ScalesAgree (h.synEnv irs iss options) (parseSynOptions options) (parseSynOptions p.options) ↔
      (parseSynOptions options).ws ≤ 0 ∨
        0xFFFF < max h.cfg.readBufferSize h.cfg.maxReadBufferSize := by
  have hws := hp.ws (h.rcvWndScale_le irs iss options)
  rw [← calculateWindowScale_pos_iff]
  set scale := calculateWindowScale (max h.cfg.readBufferSize h.cfg.maxReadBufferSize) with hscale
  have hsnd : (h.synEnv irs iss options).sndWndScale
      = if (parseSynOptions options).ws ≥ 0 then (parseSynOptions options).ws.toNat else 0 := rfl
  have hrcv : (h.synEnv irs iss options).rcvWndScale
      = if (parseSynOptions options).ws ≥ 0 then scale else 0 := rfl
  rw [hrcv] at hws
  constructor
  · intro ha
    by_contra hno
    rw [not_or, not_le, not_lt, Nat.le_zero] at hno
    have hoff : (parseSynOptions options).ws ≥ 0 := hno.1.le
    rw [if_pos hoff, if_neg (by omega)] at hws
    have hzero := (ha.absent (by omega)).1
    rw [hsnd, if_pos hoff] at hzero
    omega
  · intro hcond
    rcases lt_or_ge (parseSynOptions options).ws 0 with hno | hoff
    · rw [if_neg (not_le.2 hno), if_neg (lt_irrefl 0)] at hws
      refine ⟨fun _ => ⟨?_, ?_⟩, fun hpos => absurd hpos (by omega)⟩
      · rw [hsnd, if_neg (by omega)]
      · rw [hrcv, if_neg (by omega)]
    · rw [if_pos hoff] at hws hrcv hsnd
      refine ⟨fun hneg => ?_, fun hpos => ?_⟩
      · have hnone : ¬scale > 0 := fun hs => by rw [if_pos hs] at hws; omega
        exact ⟨by rw [hsnd]; omega, by rw [hrcv]; omega⟩
      · have hsome : scale > 0 := by
          by_contra hs
          rw [if_neg hs] at hws
          omega
        rw [if_pos hsome] at hws
        exact ⟨by rw [hws, hrcv], by rw [hsnd, Int.toNat_of_nonneg hoff]⟩

/-! ### Where `snd.wnd` comes from -/

namespace TCPConn

variable {c c' : TCPConn} {seg : Segment}

theorem wnd_of_kept (h : c'.kept = c.kept) : c'.tx.snd.wnd = c.tx.snd.wnd :=
  congrArg (fun k => k.1.wnd) h

theorem wnd_of_gate (h : c'.gate = c.gate) : c'.tx.snd.wnd = c.tx.snd.wnd := congrArg Prod.fst h

theorem wnd_of_pacing (h : c'.pacing = c.pacing) : c'.tx.snd.wnd = c.tx.snd.wnd :=
  congrArg Prod.fst h

theorem RxOnly.wnd (h : RxOnly c c') : c'.tx.snd.wnd = c.tx.snd.wnd := by rw [h.tx]

theorem cancelZeroWindowProbe_wnd (c : TCPConn) :
    c.cancelZeroWindowProbe.tx.snd.wnd = c.tx.snd.wnd := by
  rw [cancelZeroWindowProbe]
  split_ifs <;> rfl

theorem checkZeroWindow_wnd (c : TCPConn) : c.checkZeroWindow.tx.snd.wnd = c.tx.snd.wnd := by
  rw [checkZeroWindow]
  split_ifs <;> rfl

theorem manageZeroWindow_wnd (c : TCPConn) : c.manageZeroWindow.tx.snd.wnd = c.tx.snd.wnd := by
  rw [manageZeroWindow]
  split_ifs
  · exact (wnd_of_kept (sendPending_kept _)).trans (cancelZeroWindowProbe_wnd c)
  · exact checkZeroWindow_wnd c
  · rfl

theorem sendOnUpdate_wnd (c : TCPConn) (seg : Segment) (w : UInt32) :
    (c.sendOnUpdate seg w).tx.snd.wnd = c.tx.snd.wnd := by
  rw [sendOnUpdate]
  split_ifs
  · exact wnd_of_kept (sendPending_kept c)
  · rfl

theorem processACK_wnd (c : TCPConn) (seg : Segment) :
    (c.processACK seg).tx.snd.wnd = scaledWnd seg.wnd c.env.sndWndScale := by
  rw [processACK]
  exact (wnd_of_gate (handleACK_gate _ _)).trans ((wnd_of_pacing (handleSACK_pacing _ seg)).trans
    (wnd_of_pacing (measureRTTM_pacing (c.setWnd seg).noteMaxWnd seg)))

/-- A segment sets the window to the scaled value of its window field, or not at all. -/
theorem ackPart_wnd (c : TCPConn) (seg : Segment) : (c.ackPart seg).tx.snd.wnd = c.tx.snd.wnd ∨
    (c.ackPart seg).tx.snd.wnd = scaledWnd seg.wnd c.env.sndWndScale := by
  rw [ackPart.eq_def]
  split
  · rw [establishedACK]
    split_ifs
    · exact .inr ((manageZeroWindow_wnd _).trans ((sendOnUpdate_wnd _ seg _).trans
        (processACK_wnd c.resetKeepalive seg)))
    · exact .inl rfl
  · rw [finWait1ACK]
    split_ifs
    · exact .inr ((wnd_of_gate (handleACK_gate _ _)).trans
        (wnd_of_pacing (measureRTTM_pacing (c.setWnd seg) seg)))
    · exact .inl rfl
  · rw [finWait2ACK]
    split_ifs
    · exact .inr rfl
    · exact .inl rfl
  · rw [handleCloseWait]
    split_ifs
    · exact .inr ((wnd_of_gate (handleACK_gate _ _)).trans
        (wnd_of_pacing (measureRTTM_pacing (c.setWnd seg).noteMaxWnd seg)))
    · exact .inl rfl
  · split_ifs
    · exact .inl ((wnd_of_gate (handleACK_gate _ _)).trans
        (wnd_of_pacing (measureRTTM_pacing c seg)))
    · exact .inl rfl
  · exact .inl rfl

theorem establish_wnd (c : TCPConn) (seg : Segment) :
    (((c.establish seg).resetKeepalive.synPayload seg).handOver).tx.snd.wnd
      = scaledWnd seg.wnd c.env.sndWndScale := by
  obtain ⟨m, hm⟩ := handshakeSender_eq (c.setState .established) seg
  have hest : (c.establish seg).tx.snd.wnd = scaledWnd seg.wnd c.env.sndWndScale :=
    congrArg Sender.wnd hm
  exact (RxOnly.synPayload (c.establish seg).resetKeepalive seg).wnd.trans hest

theorem handleSegment_wnd (c : TCPConn) (seg : Segment) :
    (c.handleSegment seg).tx.snd.wnd = c.tx.snd.wnd ∨
    (c.handleSegment seg).tx.snd.wnd = scaledWnd seg.wnd c.env.sndWndScale := by
  rw [handleSegment]
  split_ifs
  · exact .inl rfl
  · exact .inl (RxOnly.handleRSTSegment c seg).wnd
  · exact .inl (RxOnly.sendACK c).wnd
  · have hts := RxOnly.updateTSRecent c seg
    rw [← hts.wnd, ← hts.env]
    generalize c.updateTSRecent seg = d
    by_cases hsyn : d.ctl.state = .synRcvd
    · rw [dispatch, hsyn]
      rcases handleSynRcvd_cases d seg with h | h
      · exact .inl h.wnd
      · dsimp only
        rw [h]
        exact .inr (establish_wnd d seg)
    by_cases hlast : d.ctl.state = .lastAck
    · rw [dispatch, hlast]
      dsimp only
      rw [handleLastAck]
      split_ifs
      · exact .inl ((RxOnly.closeDone _).wnd.trans (wnd_of_gate (handleACK_gate d seg.ack)))
      · exact .inl rfl
      · exact .inl rfl
    · have hrest := (dispatch_rxOnly d seg hsyn hlast).wnd
      rw [hrest]
      exact ackPart_wnd d seg

theorem finIfDrained_wnd (c : TCPConn) : c.finIfDrained.tx.snd.wnd = c.tx.snd.wnd := by
  rw [finIfDrained]
  split_ifs
  · exact wnd_of_pacing (finalizeFIN_pacing c)
  · rfl

theorem armRTO_wnd (c : TCPConn) : c.armRTO.tx.snd.wnd = c.tx.snd.wnd :=
  wnd_of_pacing (armRTO_pacing c)

/-- Once there is a sender, its window is the old one or comes from the segment. -/
theorem onInbound_wnd (c : TCPConn) (seg : Segment) (hs : (c.onInbound seg).ctl.synced = true) :
    c.ctl.synced = true ∧ (c.onInbound seg).tx.snd.wnd = c.tx.snd.wnd ∨
    (c.onInbound seg).tx.snd.wnd = scaledWnd seg.wnd c.env.sndWndScale := by
  have hrest : (c.onInbound seg).tx.snd.wnd = (c.handleSegment seg).tx.snd.wnd := by
    have hrto := wnd_of_pacing (manageRTO_pacing (c.handleSegment seg))
    rw [onInbound, drainForFIN]
    split_ifs
    · exact (finIfDrained_wnd _).trans ((wnd_of_kept (sendPending_kept _)).trans hrto)
    · exact hrto
  rw [hrest]
  rcases handleSegment_cases c seg with ht | ⟨-, he⟩
  · by_cases hsync : c.ctl.synced = true
    · exact (handleSegment_wnd c seg).imp_left fun h => ⟨hsync, h⟩
    · -- without a sender, the rest of the iteration does nothing
      have hno : (c.handleSegment seg).ctl.synced = false := by
        rw [ht.synced]
        simpa using hsync
      have hmanage : (c.handleSegment seg).manageRTO = c.handleSegment seg := by
        rw [manageRTO, hno]
        rfl
      rw [onInbound, hmanage, drainForFIN, hno, if_neg (by simp), hno] at hs
      cases hs
  · rw [he, ← (RxOnly.updateTSRecent c seg).env]
    exact .inr (establish_wnd (c.updateTSRecent seg) seg)

theorem handleRTO_wnd (c : TCPConn) : c.handleRTO.tx.snd.wnd = c.tx.snd.wnd := by
  have hback : ∀ d : TCPConn, d.backOff.tx.snd.wnd = d.tx.snd.wnd := fun d => by
    rw [backOff]
    exact (wnd_of_kept (retransmitOldest_kept _)).trans rfl
  rw [handleRTO]
  split_ifs
  · rfl
  · exact hback c
  · rw [abort]
    refine (RxOnly.closeDone _).wnd.trans ?_
    split_ifs <;> rfl
  · exact hback c.countRetry

theorem onRTO_wnd (c : TCPConn) : c.onRTO.tx.snd.wnd = c.tx.snd.wnd := by
  rw [onRTO, rearmRTO]
  split_ifs
  · exact (armRTO_wnd _).trans (handleRTO_wnd c.stopRTO)
  · exact handleRTO_wnd c.stopRTO
  · rfl

theorem onZeroWindow_wnd (c : TCPConn) : c.onZeroWindow.tx.snd.wnd = c.tx.snd.wnd := by
  have hprobe : ∀ d : TCPConn, d.sendZeroWindowProbe.tx.snd.wnd = d.tx.snd.wnd := fun d => by
    have hnew := wnd_of_kept (sendNew_kept d 1)
    rw [sendZeroWindowProbe]
    dsimp only
    split_ifs
    · rfl
    · exact hnew
    · exact (cancelZeroWindowProbe_wnd _).trans hnew
  rw [onZeroWindow]
  split_ifs
  · exact hprobe c.stopZeroWindow
  · rfl

theorem onWriteNotifySend_wnd (c : TCPConn) : c.onWriteNotifySend.tx.snd.wnd = c.tx.snd.wnd := by
  rw [onWriteNotifySend]
  refine (armRTO_wnd _).trans ((RxOnly.piggyback _).wnd.trans ((checkZeroWindow_wnd _).trans ?_))
  exact (wnd_of_kept (sendPending_kept { c with app.writeNotify := false })).trans rfl

theorem onWriteNotify_wnd (c : TCPConn) : c.onWriteNotify.tx.snd.wnd = c.tx.snd.wnd := by
  rw [onWriteNotify]
  split_ifs
  · exact (finIfDrained_wnd _).trans (onWriteNotifySend_wnd c)
  · exact onWriteNotifySend_wnd c
  · rfl

theorem onClose_wnd (c : TCPConn) : c.onClose.tx.snd.wnd = c.tx.snd.wnd := by
  have hfin : ∀ d : TCPConn, d.flush.finOrDefer.tx.snd.wnd = d.tx.snd.wnd := fun d => by
    have hflush : d.flush.tx.snd.wnd = d.tx.snd.wnd := by
      rw [flush]
      split_ifs
      · exact wnd_of_kept (sendPending_kept d)
      · rfl
    rw [finOrDefer]
    split_ifs
    · exact hflush
    · exact (wnd_of_pacing (finalizeFIN_pacing _)).trans hflush
  have hclose : ∀ d : TCPConn, d.handleClose.tx.snd.wnd = d.tx.snd.wnd := fun d => by
    rw [handleClose.eq_def]
    split
    · exact hfin d
    · exact hfin d
    · rfl
  rw [onClose]
  dsimp only
  split_ifs
  · exact (armRTO_wnd _).trans (hclose _)
  · exact hclose _

end TCPConn

open TCPConn

/-- A step leaves the window alone, unless it is a segment that sets it. -/
theorem Sys.Step.wnd {s s' : Sys} {e : Event} (h : Sys.Step s e s')
    (hs : s'.conn.ctl.synced = true) :
    s.conn.ctl.synced = true ∧ s'.conn.tx.snd.wnd = s.conn.tx.snd.wnd ∨
    ∃ seg, e = .inbound seg ∧
      s'.conn.tx.snd.wnd = scaledWnd seg.wnd s.conn.env.sndWndScale := by
  have hquiet : Sys.quiet e = true → s.conn.ctl.synced = true := fun hq => by
    rw [← (h.quiet hq).synced]
    exact hs
  by_cases he : Sys.resting e = true
  · refine .inl ⟨?_, congrArg Sender.wnd (h.rests he).1⟩
    by_cases hq : Sys.quiet e = true
    · exact hquiet hq
    cases h
    case inbound => cases he
    case forceCloseCh =>
      dsimp only at hs
      rw [onForceClose] at hs
      split_ifs at hs
      all_goals
        rw [exitRun_ctl, (Ctl.finish_keep _).1] at hs
        exact hs
    case closeRead =>
      dsimp only at hs
      rw [TCPConn.closeRead] at hs
      split_ifs at hs <;> exact hs
    case readCall => exact hs
    all_goals exact absurd rfl hq
  cases h
  case inbound seg _ => exact (onInbound_wnd _ seg hs).imp_right fun hw => ⟨seg, rfl, hw⟩
  case rtoTimer => exact .inl ⟨hquiet rfl, onRTO_wnd _⟩
  case zeroWindowTimer => exact .inl ⟨hquiet rfl, onZeroWindow_wnd _⟩
  case writeNotify => exact .inl ⟨hquiet rfl, onWriteNotify_wnd _⟩
  case closeCh => exact .inl ⟨hquiet rfl, onClose_wnd _⟩
  all_goals exact absurd rfl he

theorem Sys.Step.env {s s' : Sys} {e : Event} (h : Sys.Step s e s') : s'.conn.env = s.conn.env := by
  have hsends := h.sends
  generalize s.conn = c at hsends
  generalize s'.conn = c' at hsends
  induction hsends with
  | refl => rfl
  | transmits _ ht ih => exact ht.env.trans ih
  | silent _ he ih => exact (congrArg Prod.fst he).trans ih
  | opened _ _ ih => exact ((opened_rxOnly _ _).env.trans (RxOnly.updateTSRecent _ _).env).trans ih
  | fin _ _ ih => exact ih
  | copy _ _ ih => exact ih

/-! ### Runs -/

/-- At the end of a run the parameters are the first ones, and the window is the first one or that
    of a segment of the run. -/
theorem run_wnd {s s' : Sys} {es : List Event} (h : Run Sys.step (fun _ _ => True) s es s') :
    s'.conn.env = s.conn.env ∧ (s'.conn.ctl.synced = true →
      s.conn.ctl.synced = true ∧ s'.conn.tx.snd.wnd = s.conn.tx.snd.wnd ∨
      ∃ seg, .inbound seg ∈ es ∧
        s'.conn.tx.snd.wnd = scaledWnd seg.wnd s.conn.env.sndWndScale) := by
  induction h with
  | nil s => exact ⟨rfl, fun hs => .inl ⟨hs, rfl⟩⟩
  | @cons s s₁ s' e es _ hstep _ ih =>
    obtain ⟨henv, hwnd⟩ := ih
    have hs := (Sys.step_inv hstep).2
    have henv₁ := hs.env
    refine ⟨henv.trans henv₁, fun hsync => ?_⟩
    rcases hwnd hsync with ⟨hsync₁, hkeep⟩ | ⟨seg, hmem, hset⟩
    · rcases hs.wnd hsync₁ with ⟨h₀, hkeep₁⟩ | ⟨seg, rfl, hset⟩
      · exact .inl ⟨h₀, hkeep.trans hkeep₁⟩
      · exact .inr ⟨seg, List.mem_cons_self, hkeep.trans hset⟩
    · exact .inr ⟨seg, List.mem_cons_of_mem _ hmem, by rw [hset, henv₁]⟩

/-- The end of a run in which the two ends understand each other: every SYN+ACK says what the
    connection does, and the window it uses is one the peer meant to advertise. -/
structure WindowsMeant (offered : SynOptions) (es : List Event) (s : Sys) : Prop where
  agree : ∀ p, SynAckOf s.conn.env p →
    ScalesAgree s.conn.env offered (parseSynOptions p.options)
  meant : ∀ p, SynAckOf s.conn.env p → s.conn.ctl.synced = true → ∃ seg, .inbound seg ∈ es ∧
    s.conn.tx.snd.wnd.toNat ≤ seg.wnd.toNat <<< peerShift offered (parseSynOptions p.options)

theorem synAckOf_exists (c : TCPConn) : ∃ p, SynAckOf c.env p := ⟨_, c, rfl, rfl⟩

/-- CORRECT, with the condition it needs: throughout every run of a connection the two ends agree on
    window scaling, and no window is taken to be larger than the peer meant, exactly if the peer
    offered no shift or the read buffer can outgrow 65535 bytes. -/
theorem windows_meant_iff {h : TCPHandler} {irs iss : UInt32} {options : List UInt8} {s₀ : Sys}
    (h₀ : AfterSYN h irs iss options s₀) :
    (∀ es s, Run Sys.step (fun _ _ => True) s₀ es s →
      WindowsMeant (parseSynOptions options) es s) ↔
    (parseSynOptions options).ws ≤ 0 ∨
      0xFFFF < max h.cfg.readBufferSize h.cfg.maxReadBufferSize := by
  obtain ⟨henv, hsync⟩ := h₀.env
  constructor
  · intro hall
    obtain ⟨p, hp⟩ := synAckOf_exists s₀.conn
    have hagree := (hall [] s₀ (.nil s₀)).agree p hp
    rw [henv] at hp hagree
    exact (scalesAgree_iff h irs iss options hp).1 hagree
  · intro hcond es s hr
    obtain ⟨henv', hwnd⟩ := run_wnd hr
    have hagree : ∀ p, SynAckOf s.conn.env p →
        ScalesAgree s.conn.env (parseSynOptions options) (parseSynOptions p.options) := by
      rw [henv', henv]
      exact fun p hp => (scalesAgree_iff h irs iss options hp).2 hcond
    refine ⟨hagree, fun p hp hs => ?_⟩
    rcases hwnd hs with ⟨hsync', -⟩ | ⟨seg, hmem, hset⟩
    · rw [hsync] at hsync'
      cases hsync'
    · refine ⟨seg, hmem, ?_⟩
      rw [(hagree p hp).peerShift, hset, henv', scaledWnd, UInt32.toNat_ofNat']
      exact Nat.mod_le _ _

/-- The small handler, with a read buffer that may grow to 4 MiB. -/
def Sys.tunedHandler : TCPHandler :=
  { Sys.sampleHandler 8 4 with
    cfg := { (Sys.sampleHandler 8 4).cfg with maxReadBufferSize := 4 * 1024 * 1024 } }

/-- A peer that offers a shift of 7 gets one of 7 back. -/
theorem windows_meant_tuned : (Sys.tunedHandler.synEnv 100 200 [3, 3, 7]).rcvWndScale = 7 ∧
    ∀ es s, Run Sys.step (fun _ _ => True)
      (Sys.start Sys.tunedHandler 100 200 [3, 3, 7] (by decide) (by decide)) es s →
      WindowsMeant (parseSynOptions [3, 3, 7]) es s := by
  have hinit : (Sys.start Sys.tunedHandler 100 200 [3, 3, 7] (by decide) (by decide)).Init :=
    Sys.init_iff.2 ⟨_, _, _, _, _, _, ⟨Sys.tunedHandler.cfg, rfl⟩, rfl⟩
  have hsyn : AfterSYN Sys.tunedHandler 100 200 [3, 3, 7]
      (Sys.start Sys.tunedHandler 100 200 [3, 3, 7] (by decide) (by decide)) := ⟨hinit, rfl⟩
  exact ⟨by decide, (windows_meant_iff hsyn).2 (.inr (by decide))⟩

/-- With a read buffer of 8 bytes the same offer gets no answer: the SYN+ACK has no option, and the
    window of 1000 bytes in the peer's ACK is taken for one of 128000. -/
theorem unanswered_offer_scales : ∃ s p, AfterSYN (Sys.sampleHandler 8 4) 100 200 [3, 3, 7]
      (Sys.sampleSYN [3, 3, 7]) ∧
    (Sys.sampleSYN [3, 3, 7]).conn.wire.out = [p] ∧ (parseSynOptions p.options).ws = -1 ∧
    Run Sys.step (fun _ _ => True) (Sys.sampleSYN [3, 3, 7]) [Sys.sampleACK] s ∧
    s.conn.env.sndWndScale = 7 ∧ s.conn.tx.snd.wnd = 128000 ∧
    ¬WindowsMeant (parseSynOptions [3, 3, 7]) [Sys.sampleACK] s := by
  have hinit : (Sys.sampleSYN [3, 3, 7]).Init :=
    Sys.init_iff.2 ⟨_, _, _, _, _, _, ⟨(Sys.sampleHandler 8 4).cfg, rfl⟩, rfl⟩
  obtain ⟨s, hr, hscale, hwnd⟩ := exists_run_exec Sys.step (fun _ _ => True)
    (Sys.sampleSYN [3, 3, 7]) [Sys.sampleACK]
    (fun s => s.conn.env.sndWndScale = 7 ∧ s.conn.tx.snd.wnd = 128000) (by decide +kernel)
  refine ⟨s, _, ⟨hinit, rfl⟩, rfl, by decide, hr, hscale, hwnd, fun hm => ?_⟩
  obtain ⟨p, hp⟩ := synAckOf_exists s.conn
  have hws := hp.ws (by rw [(run_wnd hr).1]; decide)
  have hnone : (parseSynOptions p.options).ws = -1 := by
    rw [hws, (run_wnd hr).1]
    decide
  have hzero := ((hm.agree p hp).absent (by omega)).1
  omega

end Netstack.Tcp
