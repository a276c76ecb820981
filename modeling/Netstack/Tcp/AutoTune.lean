import Netstack.Tcp.SackTruth
import Netstack.Tcp.WindowScale

/-! The auto-tuned read buffer and the window field.

    The shift of the window field is fixed when the SYN arrives, from the largest size the read buffer
    is allowed to grow to. The buffer itself starts smaller and is doubled by `autoTuneCheck`, first
    up to `ReadBufferSize`, then up to `MaxReadBufferSize`. What fits together is that nothing grows
    it past the size the shift was computed for. -/

namespace Netstack.Tcp
open Netstack.Header Netstack.Trace Netstack.Simulation

/-- `wndScaleBasis` of `handleSYN`: the most the read buffer is tuned to. -/
def Env.wndScaleBasis (env : Env) : ℤ := max env.cfg.readBufferSize env.cfg.maxReadBufferSize

namespace TCPConn

variable {c c' c'' : TCPConn}

/-- The read buffer, and the sizes it is tuned to, are within what the window scale was computed for. -/
structure Within (c : TCPConn) : Prop where
  cap : (c.rx.readBuf.cap : ℤ) ≤ c.env.wndScaleBasis
  readBufSize : c.rx.rcv.autoTune.readBufSize ≤ c.env.wndScaleBasis
  maxBufSize : c.rx.rcv.autoTune.maxBufSize ≤ c.env.wndScaleBasis

/-- From `c` to `c'` the read buffer has not become smaller, and it stays within its bounds. -/
structure Tunes (c c' : TCPConn) : Prop where
  env : c'.env = c.env
  cap_le : c.rx.readBuf.cap ≤ c'.rx.readBuf.cap
  within : c.Within → c'.Within

namespace Tunes

theorem of_kept (env : c'.env = c.env) (hcap : c'.rx.readBuf.cap = c.rx.readBuf.cap)
    (htune : c'.rx.rcv.autoTune = c.rx.rcv.autoTune) : Tunes c c' := by
  refine ⟨env, hcap.ge, fun h => ⟨?_, ?_, ?_⟩⟩
  · rw [hcap, env]
    exact h.cap
  · rw [htune, env]
    exact h.readBufSize
  · rw [htune, env]
    exact h.maxBufSize

theorem refl (c : TCPConn) : Tunes c c := of_kept rfl rfl rfl

theorem trans (h : Tunes c c') (h' : Tunes c' c'') : Tunes c c'' :=
  ⟨h'.env.trans h.env, h.cap_le.trans h'.cap_le, fun hw => h'.within (h.within hw)⟩

theorem of_clears (h : Clears c c') (env : c'.env = c.env) : Tunes c c' := by
  rcases h with h | h
  · exact of_kept env (by rw [h]) (by rw [h])
  · exact of_kept env (by rw [h]) (by rw [h]; rfl)

theorem of_txOnly (t : TxOnly c c') : Tunes c c' := of_clears (.of_txOnly t) t.env

theorem sendACK (c : TCPConn) : Tunes c c.sendACK := of_clears (.sendACK c) (Quiet.sendACK c).env

theorem closeDone (c : TCPConn) : Tunes c c.closeDone := of_clears (.closeDone c) (Quiet.closeDone c).env

/-! ### Auto-tuning -/

theorem autoTuneCheck (c : TCPConn) : Tunes c c.autoTuneCheck := by
  have hcap : c.autoTuneCheck.rx.readBuf.cap = max c.rx.readBuf.cap c.autoTuneCap.toNat :=
    RingBuffer.cap_grow _ _
  refine ⟨rfl, by omega, fun h => ⟨?_, h.readBufSize, h.maxBufSize⟩⟩
  have hw := h.cap
  have hread := h.readBufSize
  have hmax := h.maxBufSize
  -- the size asked for is capped by that of the phase
  have hask : c.autoTuneCap ≤ c.env.wndScaleBasis := by
    rw [autoTuneCap]
    split_ifs <;> omega
  show (c.autoTuneCheck.rx.readBuf.cap : ℤ) ≤ c.env.wndScaleBasis
  rw [hcap]
  omega

theorem countDelivered (c : TCPConn) (n : ℕ) : Tunes c (c.countDelivered n) :=
  ⟨rfl, le_rfl, fun h => ⟨h.cap, h.readBufSize, h.maxBufSize⟩⟩

theorem autoTuneAccumulate (c : TCPConn) (n : ℕ) : Tunes c (c.autoTuneAccumulate n) := by
  rw [TCPConn.autoTuneAccumulate]
  split_ifs
  · exact refl c
  · exact countDelivered c n
  · exact countDelivered c n
  · exact (countDelivered c n).trans (autoTuneCheck _)

/-! ### The receiver -/

theorem deliver (c : TCPConn) (data : List UInt8) : Tunes c (c.deliver data) := by
  have hwrite : Tunes c (c.writeData data) := of_kept rfl (RingBuffer.cap_writeNoBlock _ _) rfl
  rw [TCPConn.deliver]
  split
  · exact hwrite.trans (autoTuneAccumulate _ _)
  · exact hwrite

theorem closeReadBuf (c : TCPConn) : Tunes c c.closeReadBuf := by
  refine of_kept rfl ?_ rfl
  rw [TCPConn.closeReadBuf]
  dsimp only
  split <;> rfl

/-- What a handler ends with leaves the read buffer its size. -/
theorem concludes (h : Concludes c c') : Tunes c c' := by
  induction h with
  | refl => exact refl c
  | sendACK _ ih => exact ih.trans (sendACK _)
  | closeReadBuf _ ih => exact ih.trans (closeReadBuf _)
  | closeDone _ ih => exact ih.trans (closeDone _)
  | countFIN _ ih | deferFIN _ ih | timers _ ih | setState _ _ ih => exact ih.trans (of_kept rfl rfl rfl)

theorem deferredFIN (c : TCPConn) : Tunes c c.deferredFIN := by
  rw [TCPConn.deferredFIN]
  split
  · exact (of_kept rfl rfl rfl : Tunes c c.clearFIN).trans (concludes Concludes.refl.processFIN)
  · exact refl c

theorem drainOOO : ∀ (l : List OOOSegment) (c : TCPConn), Tunes c (drainOOO l c)
  | [], c => of_kept rfl rfl rfl
  | seg :: rest, c => by
      rw [TCPConn.drainOOO]
      dsimp only
      split_ifs
      · exact of_kept rfl rfl rfl
      · exact drainOOO rest c
      · exact (deliver c _).trans (of_kept rfl rfl rfl)
      · exact (deliver c _).trans (drainOOO rest _)

theorem acceptData (c : TCPConn) (seq : UInt32) (data : List UInt8) : Tunes c (c.acceptData seq data) := by
  rw [TCPConn.acceptData]
  split_ifs
  · exact of_kept rfl rfl rfl
  · exact ((deliver c data).trans (drainOOO _ _)).trans (deferredFIN _)
  · exact deliver c data
  · refine of_kept rfl rfl ?_
    show (c.rx.rcv.insertOOO seq data).autoTune = _
    rw [Receiver.insertOOO]
    split <;> rfl
  · exact refl c

theorem windowData (c : TCPConn) (seq : UInt32) (data : List UInt8) : Tunes c (c.windowData seq data) := by
  rw [TCPConn.windowData]
  split_ifs
  · exact refl c
  · exact refl c
  · exact acceptData c _ _
  · exact acceptData c _ _

theorem handleData (c : TCPConn) (seq : UInt32) (data : List UInt8) : Tunes c (c.handleData seq data) := by
  rw [TCPConn.handleData]
  dsimp only
  split_ifs
  · exact refl c
  · exact of_kept rfl rfl rfl
  · exact windowData c _ _
  · exact windowData c _ _

/-! ### The state machine -/

theorem handled {seg : Segment} (h : Handled seg c c') : Tunes c c' := by
  obtain ⟨c₁, hack, c₂, rfl | ⟨-, rfl⟩, hend⟩ := h
  · exact (of_txOnly hack.txOnly).trans (concludes hend)
  · exact ((of_txOnly hack.txOnly).trans (handleData c₁ _ _)).trans (concludes hend)

theorem establish (c : TCPConn) (seg : Segment) : Tunes c (c.establish seg) := by
  refine ⟨rfl, le_rfl, fun h => ⟨h.cap, ?_, ?_⟩⟩
  · have hcap := h.cap
    have hle : c.env.cfg.readBufferSize ≤ c.env.wndScaleBasis := le_max_left _ _
    show (newReceiver c.env.irs c.rx.readBuf.cap c.env.cfg.readBufferSize
      c.env.cfg.maxReadBufferSize).autoTune.readBufSize ≤ c.env.wndScaleBasis
    rw [newReceiver]
    dsimp only
    split_ifs <;> omega
  · have hcap := h.cap
    have hle : c.env.cfg.maxReadBufferSize ≤ c.env.wndScaleBasis := le_max_right _ _
    show (newReceiver c.env.irs c.rx.readBuf.cap c.env.cfg.readBufferSize
      c.env.cfg.maxReadBufferSize).autoTune.maxBufSize ≤ c.env.wndScaleBasis
    rw [newReceiver]
    dsimp only
    split_ifs <;> omega

theorem handleSynRcvd (c : TCPConn) (seg : Segment) : Tunes c (c.handleSynRcvd seg) := by
  have hopen : Tunes c ((c.establish seg).resetKeepalive.synPayload seg) := by
    refine ((establish c seg).trans (of_txOnly (.resetKeepalive _))).trans ?_
    rw [TCPConn.synPayload]
    split
    · exact refl _
    · exact (handleData _ _ _).trans (sendACK _)
  rw [TCPConn.handleSynRcvd]
  split_ifs
  · exact sendACK c
  · exact of_clears (.closeDone ((c.sendRSTSegment seg.ack).setState .closed)) (Quiet.handleRST _).env
  · exact hopen.trans (of_kept rfl rfl rfl)
  · exact of_kept rfl rfl rfl
  · exact refl c

theorem onInbound (c : TCPConn) (seg : Segment) : Tunes c (c.onInbound seg) := by
  have hts : Tunes c (c.updateTSRecent seg) := of_txOnly (.updateTSRecent c seg)
  have hseg : Tunes c (c.handleSegment seg) := by
    by_cases hs : c.ctl.state = .synRcvd
    · rw [TCPConn.handleSegment]
      split_ifs
      · exact refl c
      · exact concludes (.handleRSTSegment c seg)
      · exact sendACK c
      · rw [TCPConn.dispatch, (TxOnly.updateTSRecent c seg).ctl, hs]
        exact hts.trans (handleSynRcvd _ seg)
    · rcases Handled.handleSegment c seg hs with h | h
      · exact concludes h
      · exact hts.trans (handled h)
  exact hseg.trans (of_clears (.settle c seg) ((Quiet.manageRTO _).trans (.drainForFIN _)).env)

end Tunes
end TCPConn

/-- A step does not make the read buffer smaller, and keeps it within its bounds. -/
theorem Sys.Step.tunes {s s' : Sys} {e : Event} (h : Sys.Step s e s') : TCPConn.Tunes s.conn s'.conn := by
  by_cases hq : Sys.quiet e = true
  · exact .of_clears (h.clears hq) h.env
  · cases h
    case inbound seg _ => exact .onInbound _ seg
    case forceCloseCh =>
      show TCPConn.Tunes s.conn s.conn.onForceClose
      have hexit : ∀ c : TCPConn, TCPConn.Tunes c c.forceCloseBufs.exitRun := by
        intro c
        exact (TCPConn.Tunes.of_kept rfl rfl rfl : TCPConn.Tunes c c.forceCloseBufs).trans
          (.of_clears (.exitRun _) (TCPConn.Quiet.exitRun _).env)
      rw [TCPConn.onForceClose]
      split
      · exact (TCPConn.Tunes.of_kept rfl rfl rfl : TCPConn.Tunes s.conn (s.conn.sendRSTSegment _)).trans
          (hexit _)
      · exact hexit _
    case readCall n _ => exact .of_kept rfl (RingBuffer.cap_readNoBlock _ _) rfl
    case closeRead =>
      show TCPConn.Tunes s.conn s.conn.closeRead
      rw [TCPConn.closeRead]
      split
      · exact .refl _
      · exact .of_kept rfl rfl rfl
    all_goals exact absurd rfl hq

theorem tunes_run {ok : Sys → Event → Prop} {s s' : Sys} {es : List Event}
    (hrun : Run Sys.step ok s es s') : TCPConn.Tunes s.conn s'.conn := by
  induction hrun with
  | nil => exact .refl _
  | cons _ hs _ ih => exact (Sys.step_inv hs).2.tunes.trans ih

/-- `NewTCPHandler` clamps the size that the read buffer starts with. -/
theorem Sys.Init.within {s : Sys} (hs : s.Init) : s.conn.Within := by
  obtain ⟨h, irs, iss, options, hr, hw, ⟨cfg, hcfg⟩, rfl⟩ := Sys.init_iff.1 hs
  have hclamp : h.cfg.initialReadBufferSize ≤ h.cfg.readBufferSize := by
    rw [hcfg]
    exact min_le_right _ _
  have hle : h.cfg.readBufferSize ≤ max h.cfg.readBufferSize h.cfg.maxReadBufferSize := le_max_left _ _
  have hcap : (RingBuffer.new h.cfg.initialReadBufferSize.toNat hr).cap = h.cfg.initialReadBufferSize.toNat :=
    RingBuffer.cap_new _ _
  refine ⟨?_, ?_, ?_⟩
  · show ((RingBuffer.new h.cfg.initialReadBufferSize.toNat hr).cap : ℤ)
      ≤ max h.cfg.readBufferSize h.cfg.maxReadBufferSize
    rw [hcap]
    omega
  · show (0 : ℤ) ≤ max h.cfg.readBufferSize h.cfg.maxReadBufferSize
    omega
  · show (0 : ℤ) ≤ max h.cfg.readBufferSize h.cfg.maxReadBufferSize
    omega

theorem within_reach {s : Sys} (hr : Reach Sys.Init Sys.step (fun _ _ => True) s) : s.conn.Within :=
  hr.invariant (I := fun s => s.conn.Within) (fun _ h => h.within) fun _ _ _ h _ hs =>
    (Sys.step_inv hs).2.tunes.within h

/-! ### The shift -/

/-- The loop stops at the first shift that is large enough. -/
theorem windowScaleLoop_fits {b k : ℕ} (hb : b < 2 ^ (16 + k)) : ∀ {fuel scale : ℕ}, scale ≤ k →
    k ≤ scale + fuel → windowScaleLoop b fuel scale ≤ k ∧ b < 2 ^ (16 + windowScaleLoop b fuel scale)
  | 0, scale, hle, hfuel => by
      obtain rfl : scale = k := by omega
      exact ⟨le_rfl, hb⟩
  | fuel + 1, scale, hle, hfuel => by
      rw [windowScaleLoop]
      split_ifs with hmore
      · refine windowScaleLoop_fits hb (lt_of_le_of_ne hle ?_) (by omega)
        rintro rfl
        rw [Nat.shiftRight_eq_div_pow, Nat.div_eq_of_lt hb] at hmore
        exact absurd hmore (lt_irrefl 0)
      · refine ⟨hle, ?_⟩
        rw [Nat.shiftRight_eq_div_pow] at hmore
        exact (Nat.div_eq_zero_iff_lt (Nat.two_pow_pos _)).1 (Nat.eq_zero_of_not_pos hmore)

/-- A size below 2^30 fits the window field with its shift. -/
theorem calculateWindowScale_fits {b : ℤ} (hb : b < 2 ^ 30) : b < 2 ^ (16 + calculateWindowScale b) := by
  rw [calculateWindowScale]
  split_ifs with hsmall
  · norm_num
    omega
  · have hlt : b.toNat < 2 ^ (16 + maxWndScale) := by
      rw [show 16 + maxWndScale = 30 from rfl]
      omega
    obtain ⟨hle, hfit⟩ : windowScaleLoop b.toNat 64 0 ≤ maxWndScale ∧
        b.toNat < 2 ^ (16 + windowScaleLoop b.toNat 64 0) :=
      windowScaleLoop_fits hlt (by decide) (by decide)
    rw [min_eq_left hle]
    zify at hfit
    omega

/-- The window field is the free space, rounded down to its unit, unless it is zero. -/
theorem TCPConn.wnd_exact {c : TCPConn} (hfree : c.rx.readBuf.free < 2 ^ (16 + c.env.rcvWndScale))
    (hne : c.wnd ≠ 0) : c.rx.readBuf.free < c.wnd.toNat <<< c.env.rcvWndScale + 2 ^ c.env.rcvWndScale ∧
      c.wnd.toNat <<< c.env.rcvWndScale ≤ c.rx.readBuf.free := by
  have hpos := Nat.two_pow_pos c.env.rcvWndScale
  have hsmall : c.rx.readBuf.free >>> c.env.rcvWndScale < 2 ^ 16 := by
    rw [Nat.shiftRight_eq_div_pow, Nat.div_lt_iff_lt_mul hpos, ← pow_add]
    exact hfree
  have hwnd : c.wnd = UInt16.ofNat (c.rx.readBuf.free >>> c.env.rcvWndScale) := by
    rw [TCPConn.wnd] at hne ⊢
    dsimp only at hne ⊢
    split_ifs at hne ⊢
    iterate 2
      · exact absurd rfl hne
      · omega
      · rfl
  rw [hwnd, UInt16.toNat_ofNat', Nat.mod_eq_of_lt hsmall, Nat.shiftLeft_eq, Nat.shiftRight_eq_div_pow]
  have hdiv := Nat.div_add_mod' c.rx.readBuf.free (2 ^ c.env.rcvWndScale)
  have hmod := Nat.mod_lt c.rx.readBuf.free hpos
  omega

/-- SAFE: with buffers below 2^30 bytes and a peer that offers window scaling, the read buffer never
    becomes smaller, never exceeds the larger of the two sizes it is tuned to, and whatever it has
    grown to, a window that is not zero tells the free space to within one unit. -/
theorem tuned_window_exact {h : TCPHandler} {irs iss : UInt32} {options : List UInt8}
    (hread : h.cfg.readBufferSize < 2 ^ 30) (hmax : h.cfg.maxReadBufferSize < 2 ^ 30)
    (hws : 0 ≤ (parseSynOptions options).ws) {s : Sys}
    (hr : Reach (AfterSYN h irs iss options) Sys.step (fun _ _ => True) s) :
    (∀ es s', Run Sys.step (fun _ _ => True) s es s' → s.conn.rx.readBuf.cap ≤ s'.conn.rx.readBuf.cap) ∧
    (s.conn.rx.readBuf.cap : ℤ) ≤ max h.cfg.readBufferSize h.cfg.maxReadBufferSize ∧
    (s.conn.wnd ≠ 0 →
      s.conn.rx.readBuf.free < s.conn.wnd.toNat <<< s.conn.env.rcvWndScale + 2 ^ s.conn.env.rcvWndScale ∧
      s.conn.wnd.toNat <<< s.conn.env.rcvWndScale ≤ s.conn.rx.readBuf.free) := by
  have henv : s.conn.env = h.synEnv irs iss options :=
    hr.invariant (I := fun s => s.conn.env = h.synEnv irs iss options) (fun _ h => h.env.1)
      fun _ _ _ h _ hs => (Sys.step_inv hs).2.env.trans h
  have hcap : (s.conn.rx.readBuf.cap : ℤ) ≤ max h.cfg.readBufferSize h.cfg.maxReadBufferSize := by
    have hw := (within_reach (hr.mono_init fun _ h => h.1)).cap
    rw [henv] at hw
    exact hw
  refine ⟨fun es s' hrun => (tunes_run hrun).cap_le, hcap, TCPConn.wnd_exact ?_⟩
  have hscale : s.conn.env.rcvWndScale
      = calculateWindowScale (max h.cfg.readBufferSize h.cfg.maxReadBufferSize) := by
    rw [henv]
    exact if_pos hws
  have hfit := calculateWindowScale_fits (max_lt hread hmax)
  have hsum := s.conn.rx.readBuf.len_add_free
  rw [hscale]
  zify
  omega

/-- A small read buffer that may double to 16 bytes at first, and to 100000 in the end. -/
def growingHandler : TCPHandler where
  __ := Sys.sampleHandler 8 4
  cfg := { (Sys.sampleHandler 8 4).cfg with readBufferSize := 16, maxReadBufferSize := 100000 }

def growingSample : Sys :=
  Sys.start growingHandler 100 200 [3, 3, 7] Sys.sampleHandler_read_pos Sys.sampleHandler_write_pos

theorem afterSYN_growingSample : AfterSYN growingHandler 100 200 [3, 3, 7] growingSample :=
  ⟨Sys.init_iff.2 ⟨growingHandler, _, _, _, _, _, ⟨growingHandler.cfg, rfl⟩, rfl⟩, rfl⟩

/-- Three bytes and a measured round trip later the buffer has doubled; 13 bytes are free and 6 units of
    two bytes are advertised. -/
theorem tuned_window_exact_grown : ∃ s : Sys,
    Reach (AfterSYN growingHandler 100 200 [3, 3, 7]) Sys.step (fun _ _ => True) s ∧
    s.conn.rx.readBuf.cap = 16 ∧ s.conn.rx.readBuf.free = 13 ∧ s.conn.wnd = 6 ∧
    s.conn.env.rcvWndScale = 1 ∧ (s.conn.rx.readBuf.cap : ℤ) ≤ max 16 100000 ∧
    s.conn.rx.readBuf.free < s.conn.wnd.toNat <<< s.conn.env.rcvWndScale + 2 ^ s.conn.env.rcvWndScale ∧
    s.conn.wnd.toNat <<< s.conn.env.rcvWndScale ≤ s.conn.rx.readBuf.free := by
  obtain ⟨s, hr, hcap, hfree, hwnd, hscale⟩ : ∃ s : Sys,
      Reach (AfterSYN growingHandler 100 200 [3, 3, 7]) Sys.step (fun _ _ => True) s ∧
      s.conn.rx.readBuf.cap = 16 ∧ s.conn.rx.readBuf.free = 13 ∧ s.conn.wnd = 6 ∧
      s.conn.env.rcvWndScale = 1 := exists_reach_exec afterSYN_growingSample
    [Sys.sampleACK, .writeCall 0 [1], .writeCopy 0, .writeCopy 0, .writeReturn 0, .writeNotify,
      .inbound (Sys.sampleSegment tcpFlagACK 101 202 1000 [9]),
      .inbound (Sys.sampleSegment tcpFlagACK 102 202 1000 [9]),
      .inbound (Sys.sampleSegment tcpFlagACK 103 202 1000 [9])]
    (by decide +kernel)
  obtain ⟨-, hle, hexact⟩ := tuned_window_exact (by decide) (by decide) (by decide) hr
  exact ⟨s, hr, hcap, hfree, hwnd, hscale, hle, hexact (by rw [hwnd]; decide)⟩

end Netstack.Tcp
