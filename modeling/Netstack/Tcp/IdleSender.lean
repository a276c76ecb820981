import Netstack.Tcp.Pacing

/-! The idle sender.

    Unsent data needs something that will send it: an outstanding segment, whose acknowledgment
    comes, the zero-window probe, or a pending write notification. Three things break this: a window
    too small to be worth a segment with nothing outstanding, a window that closes in CLOSE_WAIT,
    where no probe is started, and a congestion window that has wrapped around. In every other run
    the sender is never idle. -/

namespace Netstack.Tcp
open Netstack.Header Netstack.Trace

namespace TCPConn

variable {c c' : TCPConn} {f : Bool}

/-- Something will make the sender look at `writeBuf` again. -/
def Busy (c : TCPConn) : Prop :=
  c.hasUnacked = true ∨ c.tx.zeroWindowProbing = true ∧ c.tx.zeroWindowTimer.armed = true ∨
    c.app.writeNotify = true

/-- Nothing is left unsent, or the sender is busy. -/
def Covered (c : TCPConn) : Prop := c.tx.writeBuf.len = 0 ∨ Busy c

theorem Covered.of_gate (h : Covered c) (hg : c'.gate.2 = c.gate.2)
    (hlen : c'.tx.writeBuf.len ≤ c.tx.writeBuf.len)
    (hu : c.hasUnacked = true → c'.hasUnacked = true) : Covered c' := by
  simp only [gate, Prod.mk.injEq] at hg
  obtain ⟨hp, ht, hn⟩ := hg
  rcases h with h0 | hq | hprobe | htoken
  · exact .inl (by omega)
  · exact .inr (.inl (hu hq))
  · exact .inr (.inr (.inl (by rw [hp, ht]; exact hprobe)))
  · exact .inr (.inr (.inr (by rw [hn]; exact htoken)))

theorem Covered.resends (h : Covered c) (hg : c'.gate.2 = c.gate.2) (hr : Resends c c') : Covered c' :=
  h.of_gate hg hr.drained.len_le fun hq => (hasUnacked_resends hr).trans hq

theorem Covered.rxOnly (h : Covered c) (hr : RxOnly c c') : Covered c' :=
  h.resends (congrArg Prod.snd (gate_of_pacing hr.pacing)) (.of_rxOnly hr)

theorem Covered.sendPending (h : Covered c) : Covered c.sendPending :=
  h.of_gate (congrArg Prod.snd (gate_of_pacing (sendPending_pacing c))) (Transmits.sendPending c).drained.len_le
    fun hq => hasUnacked_grows hq (.sendPending c)

/-- The window a segment advertises is closed or worth a segment. -/
def WindowWorth (c : TCPConn) (seg : Segment) : Prop :=
  scaledWnd seg.wnd c.env.sndWndScale = 0 ∨
    min c.tx.snd.mss ((c.tx.snd.maxWnd / 2).toNat : ℤ)
      ≤ (scaledWnd seg.wnd c.env.sndWndScale).toNat

theorem Windows.heard (h : Windows c) {seg : Segment} (hok : WindowWorth c seg) :
    Windows (c.setWnd seg).noteMaxWnd := by
  refine ⟨h.sizes, h.cwnd, h.recovery, hok.imp_right fun hle => ?_⟩
  show min c.tx.snd.mss (((if scaledWnd seg.wnd c.env.sndWndScale > c.tx.snd.maxWnd
    then scaledWnd seg.wnd c.env.sndWndScale else c.tx.snd.maxWnd) / 2).toNat : ℤ) ≤ _
  split
  · rw [UInt32.toNat_div]
    refine (min_le_right _ _).trans ?_
    exact_mod_cast Nat.div_le_self _ _
  · exact hle

/-- `handleACK` with the window of the segment: all is covered after it, unless the window is
    closed. -/
theorem handleACK_covered (hw : Windows c) (hc : c.tx.snd.cwnd.toNat < 2 ^ 31) (hs : SendsAs c f)
    (ack : UInt32) (h : Covered c) : Covered (c.handleACK ack) ∨ (c.handleACK ack).tx.snd.wnd = 0 := by
  have hgate := handleACK_gate c ack
  have hwnd : (c.handleACK ack).tx.snd.wnd = c.tx.snd.wnd := congrArg Prod.fst hgate
  have hlen := (Transmits.handleACK c ack).drained.len_le
  cases hq : c.hasUnacked with
  | true =>
    rcases handleACK_outcome hw hc hs ack hq with hu | hempty | hclosed
    · exact .inl (.inr (.inl hu))
    · exact .inl (.inl hempty)
    · exact .inr (hwnd.trans hclosed)
  | false => exact .inl (h.of_gate (congrArg Prod.snd hgate) hlen fun hu => absurd (hq.symm.trans hu) (by simp))

theorem Windows.manageZeroWindow (h : Windows c) : Windows c.manageZeroWindow := by
  rw [TCPConn.manageZeroWindow]
  split_ifs
  · refine Windows.of_pacing ?_ (sendPending_pacing _)
    rw [cancelZeroWindowProbe]
    split
    · exact h.of_snd rfl
    · exact h
  · rw [checkZeroWindow]
    split_ifs
    · exact h
    · exact h.of_snd rfl
    · exact h
  · exact h

theorem manageZeroWindow_covered (hw : Windows c) (hs : SendsAs c f) (hp : c.Probed)
    (hsync : c.ctl.synced = true) (h : Covered c ∨ c.tx.snd.wnd = 0) :
    Covered c.manageZeroWindow := by
  rw [manageZeroWindow]
  split_ifs with hopen hclosed
  · have hcancel : c.cancelZeroWindowProbe
        = { c with tx.zeroWindowProbing := false, tx.zeroWindowTimer := Timer.stopped } := by
      rw [cancelZeroWindowProbe, if_pos hopen.2]
    have hw' : Windows c.cancelZeroWindowProbe := by
      rw [hcancel]
      exact hw.of_snd rfl
    have hs' : SendsAs c.cancelZeroWindowProbe f :=
      hs.transmits hw.sizes (.of_resends (.cancelZeroWindowProbe c))
    rcases sendPending_outcome hw' hs' with hq | ⟨he, hempty | h0⟩
    · exact .inr (.inl hq)
    · rw [he]
      exact .inl hempty
    · rw [hcancel] at h0
      exact absurd (show c.tx.snd.wnd = 0 from h0) (by have := hopen.1; intro h; rw [h] at this; cases this)
  · rw [checkZeroWindow, if_neg (by simp [hsync, hclosed.2.2]), if_pos ⟨hclosed.1, hclosed.2.1⟩]
    exact .inr (.inr (.inl ⟨rfl, rfl⟩))
  · rcases h with h | h0
    · exact h
    · by_cases hlen : c.tx.writeBuf.len = 0
      · exact .inl hlen
      · have hprobing : c.tx.zeroWindowProbing = true := by
          by_contra hno
          exact hclosed ⟨h0, by omega, hno⟩
        exact .inr (.inr (.inl ⟨hprobing, hp hprobing⟩))

theorem checkZeroWindow_covered (hp : c.Probed) (hsync : c.ctl.synced = true)
    (h : Covered c ∨ c.tx.snd.wnd = 0) : Covered c.checkZeroWindow := by
  rw [checkZeroWindow]
  split_ifs with hprobing hclosed
  · have hprobing : c.tx.zeroWindowProbing = true := by simpa [hsync] using hprobing
    exact .inr (.inr (.inl ⟨hprobing, hp hprobing⟩))
  · exact .inr (.inr (.inl ⟨rfl, rfl⟩))
  · rcases h with h | h0
    · exact h
    · refine .inl ?_
      by_contra hne
      exact hclosed ⟨h0, by omega⟩

/-! ### A segment -/

/-- What a segment must not do to the sender of `c`: advertise a window not worth a segment, or, in
    CLOSE_WAIT, close the window on unsent data that is not being probed. -/
def SegmentFair (c : TCPConn) (seg : Segment) : Prop :=
  seg.flags.has tcpFlagACK = true → WindowWorth c seg ∧
    (c.ctl.state = .closeWait → scaledWnd seg.wnd c.env.sndWndScale = 0 →
      c.tx.zeroWindowProbing = true ∨ c.tx.writeBuf.len = 0)

/-- An open connection with its windows in order. -/
structure Fit (c : TCPConn) : Prop where
  state : c.ctl.state = .established ∨ c.ctl.state = .closeWait
  windows : Windows c
  probed : c.Probed

/-- With what `SendInv` knows about it. -/
structure Active (c : TCPConn) : Prop extends Fit c where
  synced : c.ctl.synced = true
  sends : ∃ f, SendsAs c f
  closing : c.ctl.finPending = true ∨ c.app.closeCh = true → c.tx.writeBuf.closed = true
  done : c.ctl.DoneClosed

theorem Active.rxOnly (h : Active c) (hr : RxOnly c c') (hctl : c'.ctl = c.ctl) : Active c' := by
  obtain ⟨f, hs⟩ := h.sends
  refine ⟨⟨by rw [hctl]; exact h.state, h.windows.of_pacing hr.pacing, ?_⟩, by rw [hctl]; exact h.synced,
    ⟨f, hs.transmits h.windows.sizes (.of_rxOnly hr)⟩, ?_, by rw [hctl]; exact h.done⟩
  · rw [Probed, hr.tx]
    exact h.probed
  · rw [hctl, hr.app, hr.tx]
    exact h.closing

theorem SegmentFair.rxOnly {seg : Segment} (h : SegmentFair c seg) (hr : RxOnly c c')
    (hctl : c'.ctl = c.ctl) : SegmentFair c' seg := by
  rw [SegmentFair, WindowWorth, hr.env, hr.tx, hctl]
  exact h

/-- The acknowledgment of a segment, once its window has been noted: what holds after `handleACK`. -/
theorem Active.heard (h : Active c) (hc : c.tx.snd.cwnd.toNat < 2 ^ 31) {seg : Segment}
    (hok : WindowWorth c seg) {c₁ : TCPConn} (hr : Resends c c₁)
    (hpace : c₁.pacing = (c.setWnd seg).noteMaxWnd.pacing) :
    Windows (c₁.handleACK seg.ack) ∧ (∃ f, SendsAs (c₁.handleACK seg.ack) f) ∧
    (c₁.handleACK seg.ack).gate = (scaledWnd seg.wnd c.env.sndWndScale, c.gate.2) ∧
    (Covered c → Covered (c₁.handleACK seg.ack) ∨ (c₁.handleACK seg.ack).tx.snd.wnd = 0) := by
  obtain ⟨f, hs⟩ := h.sends
  have hw : Windows c₁ := (h.windows.heard hok).of_pacing hpace
  have hs₁ : SendsAs c₁ f := hs.transmits h.windows.sizes (.of_resends hr)
  have hgate : c₁.gate = (scaledWnd seg.wnd c.env.sndWndScale, c.gate.2) := gate_of_pacing hpace
  have hcwnd : c₁.tx.snd.cwnd = c.tx.snd.cwnd := congrArg (fun p => p.2.2.1) hpace
  rw [← hcwnd] at hc
  refine ⟨hw.handleACK hc seg.ack, ⟨f, hs₁.transmits hw.sizes (.handleACK _ _)⟩,
    (handleACK_gate _ _).trans hgate, fun hcov => ?_⟩
  have hgate₂ : c₁.gate.2 = c.gate.2 := by rw [hgate]
  exact handleACK_covered hw hc hs₁ seg.ack (hcov.resends hgate₂ hr)

theorem Active.establishedACK (h : Active c) (hc : c.tx.snd.cwnd.toNat < 2 ^ 31) {seg : Segment}
    (hok : SegmentFair c seg) :
    Windows (c.establishedACK seg) ∧ (Covered c → Covered (c.establishedACK seg)) := by
  rw [TCPConn.establishedACK]
  split
  · rename_i hack
    have hr : Resends c (((c.setWnd seg).noteMaxWnd.measureRTTM seg).handleSACK seg) :=
      (((Resends.setWnd c seg).trans (.noteMaxWnd _)).trans (.measureRTTM _ seg)).trans
        (.handleSACK _ seg)
    have hpace : (((c.setWnd seg).noteMaxWnd.measureRTTM seg).handleSACK seg).pacing
        = (c.setWnd seg).noteMaxWnd.pacing :=
      (handleSACK_pacing _ seg).trans (measureRTTM_pacing _ seg)
    obtain ⟨hw, ⟨f, hs⟩, -, hcov⟩ := h.heard hc (hok hack.1).1 hr hpace
    have hupdate : Windows ((c.processACK seg).sendOnUpdate seg c.tx.snd.wnd) ∧
        SendsAs ((c.processACK seg).sendOnUpdate seg c.tx.snd.wnd) f ∧
        (Covered c → Covered ((c.processACK seg).sendOnUpdate seg c.tx.snd.wnd) ∨
          ((c.processACK seg).sendOnUpdate seg c.tx.snd.wnd).tx.snd.wnd = 0) := by
      rw [sendOnUpdate]
      split
      · have hpace' := sendPending_pacing (c.processACK seg)
        refine ⟨hw.of_pacing hpace', hs.transmits hw.sizes (.sendPending _), fun h => ?_⟩
        exact (hcov h).imp (fun h => h.sendPending) fun h0 => (congrArg Prod.fst hpace').trans h0
      · exact ⟨hw, hs, hcov⟩
    have t : TxOnly c ((c.processACK seg).sendOnUpdate seg c.tx.snd.wnd) :=
      (TxOnly.processACK c seg).trans (.sendOnUpdate _ seg _)
    exact ⟨hupdate.1.manageZeroWindow, fun h' => manageZeroWindow_covered hupdate.1 hupdate.2.1
      (t.probed h.probed) (by rw [t.ctl]; exact h.synced) (hupdate.2.2 h')⟩
  · exact ⟨h.windows, id⟩

theorem Active.handleCloseWait (h : Active c) (hc : c.tx.snd.cwnd.toNat < 2 ^ 31) {seg : Segment}
    (hst : c.ctl.state = .closeWait) (hok : SegmentFair c seg) :
    Windows (c.handleCloseWait seg) ∧ (Covered c → Covered (c.handleCloseWait seg)) := by
  rw [TCPConn.handleCloseWait]
  split
  · rename_i hack
    have hr : Resends c ((c.setWnd seg).noteMaxWnd.measureRTTM seg) :=
      ((Resends.setWnd c seg).trans (.noteMaxWnd _)).trans (.measureRTTM _ seg)
    obtain ⟨hw, -, hgate, hcov⟩ :=
      h.heard hc (hok hack.1).1 hr (measureRTTM_pacing (c.setWnd seg).noteMaxWnd seg)
    have ht := (Transmits.of_resends hr).trans (.handleACK _ seg.ack)
    simp only [gate, Prod.mk.injEq] at hgate
    obtain ⟨hwnd, hprobing, htimer, -⟩ := hgate
    refine ⟨hw, fun h' => (hcov h').elim id fun h0 => ?_⟩
    -- the window has closed: the probe is already on, or nothing is unsent
    rcases (hok hack.1).2 hst (hwnd.symm.trans h0) with hp | hempty
    · refine .inr (.inr (.inl ?_))
      rw [hprobing, htimer]
      exact ⟨hp, h.probed hp⟩
    · refine .inl ?_
      have hle := ht.drained.len_le
      omega
  · exact ⟨h.windows, id⟩

theorem CtlStep.open {seg : Segment} {k : Ctl} (h : CtlStep c seg k)
    (hst : c.ctl.state = .established ∨ c.ctl.state = .closeWait) :
    k.state = .established ∨ k.state = .closeWait ∨ k.state = .closed := by
  have hno : ∀ {st : TCPState}, c.ctl.state = st → st ≠ .established → st ≠ .closeWait → False := by
    intro st he h1 h2
    rcases hst with hst | hst
    · exact h1 (he.symm.trans hst)
    · exact h2 (he.symm.trans hst)
  cases h with
  | same => exact hst.elim .inl fun h => .inr (.inl h)
  | reset => exact .inr (.inr (Ctl.finish_state fun _ => rfl))
  | fin | finTwice | caught => exact .inr (.inl rfl)
  | opened hs | finWait1 hs _ _ | finWait2 hs _ | closing hs | lastAck hs =>
    exact (hno hs (by simp) (by simp)).elim

theorem RxOnly.probed (h : RxOnly c c') (hp : c.Probed) : c'.Probed := by
  rw [Probed, h.tx]
  exact hp

theorem Active.handleSegment (h : Active c) (hc : c.tx.snd.cwnd.toNat < 2 ^ 31) {seg : Segment}
    (hok : SegmentFair c seg) : Windows (c.handleSegment seg) ∧ (c.handleSegment seg).Probed ∧
      (Covered c → Covered (c.handleSegment seg)) := by
  have hrx : ∀ {c' : TCPConn}, RxOnly c c' → Windows c' ∧ c'.Probed ∧ (Covered c → Covered c') :=
    fun hr => ⟨h.windows.of_pacing hr.pacing, hr.probed h.probed, fun hcov => hcov.rxOnly hr⟩
  rw [TCPConn.handleSegment]
  split_ifs
  · exact hrx (.refl c)
  · exact hrx (.handleRSTSegment c seg)
  · exact hrx (.sendACK c)
  · have hts := RxOnly.updateTSRecent c seg
    have hctl := (TxOnly.updateTSRecent c seg).ctl
    have h' := h.rxOnly hts hctl
    have hok' := hok.rxOnly hts hctl
    have hc' : (c.updateTSRecent seg).tx.snd.cwnd.toNat < 2 ^ 31 := by rw [hts.tx]; exact hc
    rcases h'.state with hst | hst
    · have hk := RxOnly.resetKeepalive (c.updateTSRecent seg)
      obtain ⟨hw, hcov⟩ := (h'.rxOnly hk rfl).establishedACK (by rw [hk.tx]; exact hc')
        (hok'.rxOnly hk rfl)
      have hrest := (RxOnly.takePayload ((c.updateTSRecent seg).resetKeepalive.establishedACK seg)
        seg).trans (.establishedFIN _ seg)
      rw [dispatch, hst]
      exact ⟨hw.of_pacing hrest.pacing,
        hrest.probed ((TxOnly.establishedACK _ seg).probed (hk.probed h'.probed)),
        fun h => (hcov ((h.rxOnly hts).rxOnly hk)).rxOnly hrest⟩
    · obtain ⟨hw, hcov⟩ := h'.handleCloseWait hc' hst hok'
      rw [dispatch, hst]
      exact ⟨hw, (TxOnly.handleCloseWait _ seg).probed h'.probed, fun h => hcov (h.rxOnly hts)⟩

/-! ### Where a step leads -/

/-- Nothing is left to send, and nothing more can be written. -/
def Finished (c : TCPConn) : Prop := c.tx.writeBuf.closed = true ∧ c.tx.writeBuf.len = 0

/-- `c'` has nothing to send any more, is closed, or goes on; `P` then covers what it has not sent. -/
def Goes (P : Prop) (c' : TCPConn) : Prop :=
  Finished c' ∨ c'.ctl.state = .closed ∨ Fit c' ∧ (P → Covered c')

theorem Finished.resends (h : Finished c) (hr : Resends c c') : Finished c' :=
  ⟨hr.drained.closed h.1, Nat.le_zero.1 (hr.drained.len_le.trans h.2.le)⟩

theorem Fit.resends (h : Fit c) (hctl : c'.ctl.state = c.ctl.state) (hp : c'.pacing = c.pacing) :
    Fit c' := by
  have hg := gate_of_pacing hp
  simp only [gate, Prod.mk.injEq] at hg
  refine ⟨by rw [hctl]; exact h.state, h.windows.of_pacing hp, ?_⟩
  rw [Probed, hg.2.1, hg.2.2.1]
  exact h.probed

theorem Goes.resends {P : Prop} (h : Goes P c) (hr : Resends c c')
    (hctl : c'.ctl.state = c.ctl.state) (hp : c'.pacing = c.pacing) : Goes P c' := by
  rcases h with hf | hcl | ⟨hfit, hcov⟩
  · exact .inl (hf.resends hr)
  · exact .inr (.inl (hctl.trans hcl))
  · exact .inr (.inr ⟨hfit.resends hctl hp, fun h =>
      (hcov h).resends (congrArg Prod.snd (gate_of_pacing hp)) hr⟩)

/-- A step that changes neither the windows nor the state. -/
theorem Active.goes_resends (h : Active c) (hr : Resends c c') (hctl : c'.ctl.state = c.ctl.state)
    (hp : c'.pacing = c.pacing) : Goes (Covered c) c' :=
  Goes.resends (.inr (.inr ⟨h.toFit, id⟩)) hr hctl hp

theorem goes_exitRun {P : Prop} (hd : c.ctl.DoneClosed) : Goes P c.exitRun := by
  refine .inr (.inl ?_)
  rw [exitRun_ctl]
  exact Ctl.finish_state hd

theorem Goes.finIfDrained {P : Prop} (h : Goes P c) (hc : c.tx.writeBuf.closed = true) :
    Goes P c.finIfDrained := by
  rw [TCPConn.finIfDrained]
  split
  · rename_i hlen
    refine .inl ?_
    rw [Finished, finalizeFIN_writeBuf]
    exact ⟨hc, hlen⟩
  · exact h

theorem Goes.sendPending {P : Prop} (h : Goes P c) : Goes P c.sendPending := by
  have t := TxOnly.sendPending c
  rcases h with hf | hcl | ⟨hfit, hcov⟩
  · refine .inl ⟨t.closed.trans hf.1, ?_⟩
    have hle := (Transmits.sendPending c).drained.len_le
    have := hf.2
    omega
  · exact .inr (.inl (by rw [t.ctl]; exact hcl))
  · exact .inr (.inr ⟨hfit.resends (by rw [t.ctl]) (sendPending_pacing c), fun h =>
      (hcov h).sendPending⟩)

theorem Active.onInbound (h : Active c) (hc : c.tx.snd.cwnd.toNat < 2 ^ 31) {seg : Segment}
    (hok : SegmentFair c seg) : Goes (Covered c) (c.onInbound seg) := by
  have ht : Transmits c (c.handleSegment seg) := by
    refine (handleSegment_cases c seg).resolve_right fun ho => ?_
    rcases h.state with hst | hst <;> exact absurd (ho.1.symm.trans hst) (by simp)
  have hseg : Goes (Covered c) (c.handleSegment seg) := by
    obtain ⟨hw, hp, hcov⟩ := h.handleSegment hc hok
    rcases (handleSegment_ctl c seg).open h.state with hst | hst | hst
    · exact .inr (.inr ⟨⟨.inl hst, hw, hp⟩, hcov⟩)
    · exact .inr (.inr ⟨⟨.inr hst, hw, hp⟩, hcov⟩)
    · exact .inr (.inl hst)
  have hrto := hseg.resends (.manageRTO _) (by rw [manageRTO_ctl]) (manageRTO_pacing _)
  rw [TCPConn.onInbound, drainForFIN]
  split
  · rename_i hp
    refine hrto.sendPending.finIfDrained ?_
    rw [(TxOnly.sendPending _).closed]
    refine (Resends.manageRTO _).drained.closed (ht.closed (h.closing (.inl ?_)))
    rw [← ht.finPending, ← manageRTO_ctl]
    exact hp.1
  · exact hrto

/-! ### The other cases of the select loop -/

/-- A change that `Fit` does not see. -/
theorem Fit.of_core (h : Fit c) (hst : c'.ctl.state = c.ctl.state) (hsnd : c'.tx.snd = c.tx.snd)
    (hp : c'.Probed) : Fit c' :=
  ⟨by rw [hst]; exact h.state, h.windows.of_snd hsnd, hp⟩

theorem Fit.backOff (h : Fit c) : Fit c.backOff ∧ (Covered c → Covered c.backOff) := by
  have t := TxOnly.backOff c
  refine ⟨⟨by rw [t.ctl]; exact h.state, h.windows.backOff, t.probed h.probed⟩, fun hcov => ?_⟩
  have hgate : c.backOff.gate = c.gate := by
    rw [TCPConn.backOff]
    exact (gate_of_kept (retransmitOldest_kept _)).trans rfl
  exact hcov.resends (congrArg Prod.snd hgate) (.backOff c)

theorem Fit.handleRTO (h : Fit c) (hd : c.ctl.DoneClosed) : Goes (Covered c) c.handleRTO := by
  rw [TCPConn.handleRTO]
  split_ifs
  · exact .inr (.inr ⟨h, id⟩)
  · exact .inr (.inr h.backOff)
  · refine .inr (.inl ?_)
    rw [abort, closeDone_ctl]
    split <;> exact Ctl.finish_state hd
  · have hcount : Fit c.countRetry := ⟨h.state, h.windows.of_pacing rfl, h.probed⟩
    exact .inr (.inr hcount.backOff)

theorem Active.onRTO (h : Active c) : Goes (Covered c) c.onRTO := by
  have hstop : Fit c.stopRTO := h.toFit.of_core rfl rfl h.probed
  have hrto : Goes (Covered c) c.stopRTO.handleRTO := hstop.handleRTO h.done
  rw [TCPConn.onRTO, if_pos h.synced, rearmRTO]
  split
  · exact hrto.resends (.armRTO _) (by rw [armRTO_ctl]) (armRTO_pacing _)
  · exact hrto

theorem Active.onZeroWindow (h : Active c) : Goes (Covered c) c.onZeroWindow := by
  rw [TCPConn.onZeroWindow]
  split
  · have hst : c.stopZeroWindow.sendZeroWindowProbe.nextProbe.ctl.state = c.ctl.state :=
      congrArg Ctl.state (TxOnly.sendZeroWindowProbe c.stopZeroWindow).ctl
    have hw : Windows c.stopZeroWindow := h.windows.of_snd rfl
    refine .inr (.inr ⟨⟨by rw [hst]; exact h.state, ?_, fun _ => rfl⟩, fun _ => ?_⟩)
    · refine Windows.of_snd (c := c.stopZeroWindow.sendZeroWindowProbe) ?_ rfl
      rcases sendZeroWindowProbe_cases (c := c.stopZeroWindow) h.synced with ⟨-, he⟩ | ⟨-, he, -⟩
      · rw [he, cancelZeroWindowProbe]
        split
        · exact hw.of_snd rfl
        · exact hw
      · rw [he]
        exact hw.of_pacing (pacing_of_kept (sendNew_kept _ 1))
    · rcases sendZeroWindowProbe_cases (c := c.stopZeroWindow) h.synced with ⟨h0, he⟩ | ⟨-, -, hq⟩
      · refine .inl ?_
        show c.stopZeroWindow.sendZeroWindowProbe.tx.writeBuf.len = 0
        rw [he, cancelZeroWindowProbe]
        split <;> exact h0
      · exact .inr (.inl hq)
  · rename_i hno
    refine .inr (.inr ⟨h.toFit.of_core rfl rfl fun hp => absurd ⟨h.synced, hp⟩ hno, fun hcov => ?_⟩)
    rcases hcov with h0 | hq | hp | hn
    · exact .inl h0
    · exact .inr (.inl hq)
    · exact absurd ⟨h.synced, hp.1⟩ hno
    · exact .inr (.inr (.inr hn))

theorem Active.onKeepalive (h : Active c) : Goes (Covered c) c.onKeepalive := by
  have hr := Resends.onKeepalive c
  rw [TCPConn.onKeepalive] at hr ⊢
  split_ifs at hr ⊢
  · exact h.goes_resends hr rfl rfl
  · exact goes_exitRun h.done
  · exact h.goes_resends hr rfl rfl
  · exact h.goes_resends hr rfl rfl

theorem Active.onWindowNotify (h : Active c) : Goes (Covered c) c.onWindowNotify := by
  have hr := Resends.onWindowNotify c
  rw [TCPConn.onWindowNotify] at hr ⊢
  split_ifs at hr ⊢
  · exact h.goes_resends hr rfl rfl
  · exact h.goes_resends hr rfl rfl

theorem Active.onClose (h : Active c) (ht : c.app.closeCh = true) : Goes (Covered c) c.onClose := by
  have htoken : Goes (Covered c) { c with app.closeCh := false } :=
    .inr (.inr ⟨h.toFit.of_core rfl rfl h.probed, id⟩)
  have hflush : { c with app.closeCh := false }.flush
      = { c with app.closeCh := false }.sendPending := by
    rw [flush, if_pos h.synced]
  have hfin : Goes (Covered c) { c with app.closeCh := false }.flush.finOrDefer := by
    have hsend := htoken.sendPending
    have hclosed : { c with app.closeCh := false }.sendPending.tx.writeBuf.closed = true :=
      (TxOnly.sendPending _).closed.trans (h.closing (.inr ht))
    rw [hflush, finOrDefer]
    split
    · exact hsend.imp id (.imp id (And.imp_left fun hfit => hfit.of_core rfl rfl hfit.probed))
    · rename_i hlen
      refine .inl ?_
      rw [Finished, finalizeFIN_writeBuf]
      refine ⟨hclosed, ?_⟩
      by_contra hne
      exact hlen ⟨by rw [(TxOnly.sendPending _).ctl]; exact h.synced, by omega⟩
  have hclose : Goes (Covered c) { c with app.closeCh := false }.handleClose := by
    rcases h.state with hst | hst
    · rw [handleClose, hst]; exact hfin
    · rw [handleClose, hst]; exact hfin
  rw [TCPConn.onClose, if_pos h.synced]
  exact hclose.resends (.armRTO _) (by rw [armRTO_ctl]) (armRTO_pacing _)

/-- The write notification leaves everything covered, whatever it found. -/
theorem Active.onWriteNotify (h : Active c) : Goes True c.onWriteNotify := by
  obtain ⟨f, hs⟩ := h.sends
  have htoken : Fit { c with app.writeNotify := false } := h.toFit.of_core rfl rfl h.probed
  have hs' : SendsAs { c with app.writeNotify := false } f :=
    hs.transmits h.windows.sizes (.of_silent rfl)
  have t : TxOnly { c with app.writeNotify := false }
      { c with app.writeNotify := false }.sendPending.resetKeepalive :=
    (TxOnly.sendPending _).trans (.resetKeepalive _)
  have hpace : { c with app.writeNotify := false }.sendPending.resetKeepalive.pacing
      = { c with app.writeNotify := false }.pacing := sendPending_pacing _
  have hcheck : Goes True
      { c with app.writeNotify := false }.sendPending.resetKeepalive.checkZeroWindow := by
    have t' := t.trans (.checkZeroWindow _)
    have hw : Windows { c with app.writeNotify := false }.sendPending.resetKeepalive :=
      htoken.windows.of_pacing hpace
    refine .inr (.inr ⟨⟨by rw [t'.ctl]; exact h.state, ?_, t'.probed h.probed⟩, fun _ => ?_⟩)
    · rw [checkZeroWindow]
      split_ifs
      · exact hw
      · exact hw.of_snd rfl
      · exact hw
    · refine checkZeroWindow_covered (t.probed h.probed) (by rw [t.ctl]; exact h.synced) ?_
      rcases sendPending_outcome htoken.windows hs' with hq | ⟨he, hempty | hclosed⟩
      · exact .inl (.inr (.inl hq))
      · rw [he]
        exact .inl (.inl hempty)
      · rw [he]
        exact .inr hclosed
  have hsent : Goes True c.onWriteNotifySend := by
    rw [onWriteNotifySend]
    refine Goes.resends (Goes.resends hcheck (.of_rxOnly (.piggyback _)) ?_ (RxOnly.piggyback _).pacing)
      (.armRTO _) (by rw [armRTO_ctl]) (armRTO_pacing _)
    rw [piggyback]
    split <;> rfl
  rw [TCPConn.onWriteNotify, if_pos h.synced]
  split
  · rename_i hp
    refine hsent.finIfDrained ?_
    exact (Transmits.onWriteNotifySend c).closed (h.closing (.inl hp))
  · exact hsent

end TCPConn

open TCPConn

/-! ### Runs -/

/-- How many bytes a `Write` call has copied. -/
def Writer.copied : Writer → ℕ
  | .idle => 0
  | .copying _ written => written
  | .waiting _ _ written => written
  | .returning written => written

/-- A `Write` call has copied bytes and not yet notified the run loop. -/
def Sys.MidWrite (s : Sys) : Prop := ∃ g, 0 < (s.writers g).copied

/-- The connection has sent its FIN or is closed, or its windows are in order and unsent data is
    covered, or about to be announced. -/
structure SenderInv (s : Sys) : Prop where
  unprobed : s.conn.ctl.synced = false → s.conn.tx.zeroWindowProbing = false
  place : s.conn.ctl.synced = true → 1 ≤ s.conn.tx.snd.mss →
    Finished s.conn ∨ s.conn.ctl.state = .closed ∨ Fit s.conn ∧ (Covered s.conn ∨ s.MidWrite)

/-- The conditions on an inbound segment of an open connection: the congestion window is not about
    to wrap around, and the segment leaves the peer's window fair. -/
def FairSegment (s : Sys) (seg : Segment) : Prop :=
  s.conn.ctl.state = .established ∨ s.conn.ctl.state = .closeWait →
    s.conn.tx.snd.cwnd.toNat < 2 ^ 31 ∧ SegmentFair s.conn seg

/-- The steps that leave the sender able to go on. -/
def KeepsWindows (s : Sys) (e : Event) : Prop :=
  PositiveMSS s e ∧ ∀ seg, e = .inbound seg → FairSegment s seg

namespace TCPConn

variable {c : TCPConn}

/-! ### The handshake -/

theorem handleSegment_unsynced (hst : c.ctl.state = .synRcvd ∨ c.ctl.state = .closed)
    (seg : Segment) : RxOnly c (c.handleSegment seg) ∨ c.handleSegment seg = c.opened seg := by
  have hts := RxOnly.updateTSRecent c seg
  have hctl := (TxOnly.updateTSRecent c seg).ctl
  rw [TCPConn.handleSegment]
  split_ifs
  · exact .inl (.refl c)
  · exact .inl (.handleRSTSegment c seg)
  · exact .inl (.sendACK c)
  · rcases hst with hst | hst
    · rw [dispatch, hctl, hst]
      exact (handleSynRcvd_cases _ seg).imp (fun hr => hts.trans hr) id
    · rw [dispatch, hctl, hst]
      exact .inl hts

/-- A new sender may send its first segment in full. -/
theorem mss_le_initialWindow {m m' : ℤ} (h1 : 1 ≤ m') (hle : m' ≤ m) (hm : m ≤ 1500) :
    m' ≤ ((min (10 * UInt32.ofInt m) (max (2 * UInt32.ofInt m) 14600)).toNat : ℤ) := by
  have hofInt : (UInt32.ofInt m).toNat = m.toNat := by
    rw [UInt32.ofInt, UInt32.toNat_ofNat']
    omega
  rw [UInt32.toNat_min, UInt32.toNat_max, UInt32.toNat_mul, UInt32.toNat_mul, hofInt,
    show (10 : UInt32).toNat = 10 from rfl, show (2 : UInt32).toNat = 2 from rfl,
    show (14600 : UInt32).toNat = 14600 from rfl, Nat.mod_eq_of_lt (by omega)]
  omega

/-- The windows of a new sender are in order. -/
theorem windows_handshake (c : TCPConn) (seg : Segment) (hpos : 1 ≤ (c.handshakeSender seg).mss)
    {c' : TCPConn} (hc : c'.tx.snd = c.handshakeSender seg) : Windows c' := by
  obtain ⟨m, he⟩ := handshakeSender_eq c seg
  have hcwnd : (c.handshakeSender seg).cwnd = (newSender c.env.iss seg.wnd c.env.sndWndScale
      c.env.handler.mtu c.env.peerMSS c.env.cfg).cwnd := by rw [he]
  refine Windows.mk ?_ ?_ ?_ ?_
  · rw [Sizes, hc]
    exact ⟨hpos, handshakeSender_mss_le c seg⟩
  · rw [hc, hcwnd]
    exact mss_le_initialWindow hpos (handshakeSender_mss_le_new c seg) (newSender_mss_le c seg)
  · rw [hc, he]
    exact fun hr => by cases hr
  · right
    rw [hc, he]
    refine (min_le_right _ _).trans ?_
    show ((scaledWnd seg.wnd c.env.sndWndScale / 2).toNat : ℤ)
      ≤ (scaledWnd seg.wnd c.env.sndWndScale).toNat
    rw [UInt32.toNat_div]
    exact_mod_cast Nat.div_le_self _ _

theorem fit_opened {seg : Segment} (hp : c.tx.zeroWindowProbing = false)
    (hpos : 1 ≤ (c.opened seg).tx.snd.mss) (hst : (c.opened seg).ctl.state = .established) :
    Fit (c.opened seg) := by
  have htx : (c.opened seg).tx = ((c.updateTSRecent seg).establish seg).tx := (opened_rxOnly c seg).tx
  have hsnd : (c.opened seg).tx.snd = (c.updateTSRecent seg).handshakeSender seg := by rw [htx]; rfl
  have hprobing : (c.opened seg).tx.zeroWindowProbing = false := by
    rw [htx]
    show (c.updateTSRecent seg).tx.zeroWindowProbing = false
    rw [(RxOnly.updateTSRecent c seg).tx]
    exact hp
  rw [hsnd] at hpos
  exact ⟨.inl hst, windows_handshake _ seg hpos hsnd, fun h => absurd (hprobing.symm.trans h) (by simp)⟩

end TCPConn

/-- Before the handshake ends no step but a segment touches the probe. -/
theorem Sys.Step.unprobed {s s' : Sys} {e : Event} (h : Sys.Step s e s')
    (hs : s.conn.ctl.synced = false) (hne : ∀ seg, e ≠ .inbound seg)
    (hst : s.conn.ctl.state = .synRcvd ∨ s.conn.ctl.state = .closed) :
    s'.conn.tx.zeroWindowProbing = s.conn.tx.zeroWindowProbing := by
  by_cases he : Sys.resting e = true
  · exact (h.rests he).2
  cases h
  case inbound seg _ => exact absurd rfl (hne seg)
  case rtoTimer => simp [TCPConn.onRTO, hs, stopRTO]
  case zeroWindowTimer => simp [TCPConn.onZeroWindow, hs, stopZeroWindow]
  case writeNotify => simp [TCPConn.onWriteNotify, hs]
  case closeCh =>
    rcases hst with hst | hst <;> simp [TCPConn.onClose, TCPConn.handleClose, hs, hst]
  all_goals exact absurd rfl he

theorem TCPConn.QuietCtl.synced {c : TCPConn} {k : Ctl} (h : QuietCtl c k) :
    k.synced = c.ctl.synced := by
  cases h with
  | same | defer => rfl
  | finish => exact c.ctl.finish_keep.1
  | exit => exact c.ctl.finish_keep.1
  | finalize =>
    rw [Ctl.finalize.eq_def]
    split <;> rfl

theorem closed_step {s s' : Sys} {e : Event} (h : Sys.Step s e s')
    (hc : s.conn.ctl.state = .closed) : s'.conn.ctl.state = .closed := by
  have hfinal : ∀ k : Ctl, k.state = .closed → k.finalize.state = .closed := by
    intro k hk
    rw [Ctl.finalize, hk]
    exact hk
  rcases h.ctl with ⟨seg, k, -, hk, he⟩ | ⟨-, hk⟩
  · have hclosed : k.state = .closed := by
      cases hk with
      | same => exact hc
      | reset => exact Ctl.finish_state fun _ => rfl
      | caught hs => rcases hs with hs | hs <;> exact absurd (hs.symm.trans hc) (by simp)
      | opened hs | fin hs | finTwice hs | finWait1 hs | finWait2 hs | closing hs | lastAck hs =>
        exact absurd (hs.symm.trans hc) (by simp)
    rcases he with he | ⟨-, he⟩
    · rw [he]; exact hclosed
    · rw [he]; exact hfinal k hclosed
  · have hkeep := s.conn.ctl.finish_keep.2
    generalize s'.conn.ctl = k at hk ⊢
    cases hk with
    | same => exact hc
    | finish => exact hkeep.elim (fun h => h.trans hc) id
    | exit => exact hkeep.elim (fun h => h.trans hc) id
    | defer hs => rcases hs with hs | hs <;> exact absurd (hs.symm.trans hc) (by simp)
    | finalize => exact hfinal _ hc

theorem finished_step {s s' : Sys} {e : Event} (h : Sys.Step s e s') (hf : Finished s.conn) :
    Finished s'.conn := by
  rcases h.drained with hd | ⟨hopen, -⟩
  · exact ⟨hd.closed hf.1, Nat.le_zero.1 (hd.len_le.trans hf.2.le)⟩
  · exact absurd (hf.1.symm.trans hopen) (by simp)

/-- What the invariants of the send side add to `Fit`. -/
theorem active_of_fit {s : Sys} (hr : Reach Sys.Init Sys.step PositiveMSS s)
    (hs : s.conn.ctl.synced = true) (hfit : Fit s.conn) : Active s.conn := by
  obtain ⟨f, hsends, hclose⟩ := (sendInv_reach hr).sends hs
  refine ⟨hfit, hs, ⟨f, hsends⟩, fun h => hclose.once ?_, doneClosed_reach hr⟩
  rcases h with h | h
  · exact (hclose.pending h).2.1
  · exact (hclose.token h).2.1

theorem senderInv_opened {s : Sys} {seg : Segment} (h : SenderInv s)
    (hfresh : s.conn.Fresh) (hs : s.conn.ctl.synced = false)
    (hst : s.conn.ctl.state = .synRcvd ∨ s.conn.ctl.state = .closed) :
    SenderInv { s with conn := s.conn.onInbound seg } := by
  rcases handleSegment_unsynced hst seg with hr | he
  · have hsync : (s.conn.handleSegment seg).ctl.synced = false := hr.synced.trans hs
    have hsame : s.conn.onInbound seg = s.conn.handleSegment seg := by
      simp [onInbound, manageRTO, drainForFIN, hsync]
    refine ⟨fun _ => ?_, fun hsync' => ?_⟩
    · show (s.conn.onInbound seg).tx.zeroWindowProbing = false
      rw [hsame, hr.tx]
      exact h.unprobed hs
    · rw [show (s.conn.onInbound seg).ctl.synced = false by rw [hsame]; exact hsync] at hsync'
      cases hsync'
  · have hpend : (s.conn.opened seg).manageRTO.ctl.finPending = false := by
      rw [manageRTO_ctl, opened_finPending]
      exact hfresh.finPending
    have hsame : s.conn.onInbound seg = (s.conn.opened seg).manageRTO := by
      rw [onInbound, he, drainForFIN, if_neg (by simp [hpend])]
    have hctl : (s.conn.opened seg).ctl
        = { (s.conn.updateTSRecent seg).ctl.set .established with synced := true, handedOver := true } :=
      establish_payload_ctl _ seg
    have hempty : (s.conn.onInbound seg).tx.writeBuf.len = 0 := by
      have hle := (onInbound_drained s.conn seg).len_le
      have h0 := (RingBuffer.contents_eq_nil_iff _).1 hfresh.contents
      omega
    refine ⟨fun hsync' => ?_, fun _ hpos => .inr (.inr ⟨?_, .inl (.inl hempty)⟩)⟩
    · have hsync : (s.conn.onInbound seg).ctl.synced = true := by
        rw [hsame, manageRTO_ctl, hctl]
      exact absurd (hsync.symm.trans hsync') (by simp)
    · have hpos' : 1 ≤ (s.conn.onInbound seg).tx.snd.mss := hpos
      show Fit (s.conn.onInbound seg)
      rw [hsame] at hpos' ⊢
      rw [(Resends.manageRTO _).mss] at hpos'
      exact (fit_opened (h.unprobed hs) hpos' (by rw [hctl]; rfl)).resends (by rw [manageRTO_ctl])
        (manageRTO_pacing _)

/-- A step of an active connection, but for what `Write` does. -/
theorem Sys.Step.goes {s s' : Sys} {e : Event} (h : Sys.Step s e s') (ha : Active s.conn)
    (hok : KeepsWindows s e) : Goes (Covered s.conn) s'.conn ∨
      Fit s'.conn ∧ ∃ g, e = .writeCopy g := by
  have hfix : ∀ {c : TCPConn}, c.ctl.state = s.conn.ctl.state → c.tx.snd = s.conn.tx.snd →
      c.gate = s.conn.gate → c.tx.writeBuf.len = s.conn.tx.writeBuf.len →
      Goes (Covered s.conn) c := by
    intro c hst hsnd hgate hlen
    have hg := congrArg Prod.snd hgate
    refine .inr (.inr ⟨ha.toFit.of_core hst hsnd ?_, fun hcov => hcov.of_gate hg hlen.le ?_⟩)
    · simp only [gate, Prod.mk.injEq] at hg
      rw [Probed, hg.1, hg.2.1]
      exact ha.probed
    · rw [hasUnacked, hasUnacked, hsnd]
      exact id
  cases h
  case inbound seg _ =>
    obtain ⟨hc, hfair⟩ := hok.2 seg rfl ha.state
    exact .inl (ha.onInbound hc hfair)
  case rtoTimer => exact .inl ha.onRTO
  case delayedACKTimer => exact .inl (ha.goes_resends (.onDelayedACK _) rfl rfl)
  case zeroWindowTimer => exact .inl ha.onZeroWindow
  case keepaliveTimer => exact .inl ha.onKeepalive
  case writeNotify => exact .inl (ha.onWriteNotify.imp id (.imp id fun h => ⟨h.1, fun _ => h.2 trivial⟩))
  case windowNotify => exact .inl ha.onWindowNotify
  case closeCh _ token => exact .inl (ha.onClose token)
  case forceCloseCh =>
    rw [onForceClose]
    split <;> exact .inl (goes_exitRun ha.done)
  case synRcvdTimer =>
    rw [onSynRcvdTimer]
    split
    · exact .inl (goes_exitRun ha.done)
    · exact .inl (hfix rfl rfl rfl rfl)
  case finWait2Timer =>
    rw [onFinWait2Timer]
    split
    · exact .inl (goes_exitRun ha.done)
    · exact .inl (hfix rfl rfl rfl rfl)
  case timeWaitTimer | done => exact .inl (goes_exitRun ha.done)
  case writeCall =>
    rw [growWriteBuf]
    split
    · exact .inl (hfix rfl rfl rfl (RingBuffer.len_grow ..))
    · exact .inl (hfix rfl rfl rfl rfl)
  case writeCopy => exact .inr ⟨ha.toFit.of_core rfl rfl ha.probed, _, rfl⟩
  case closeWrite =>
    rw [TCPConn.closeWrite]
    split <;> exact .inl (hfix rfl rfl rfl rfl)
  case closeRead =>
    rw [TCPConn.closeRead]
    split <;> exact .inl (hfix rfl rfl rfl rfl)
  case writeReturn =>
    refine .inl (.inr (.inr ⟨ha.toFit.of_core rfl rfl ha.probed, fun hcov => ?_⟩))
    rcases hcov with h0 | hq | hp | hn
    · exact .inl h0
    · exact .inr (.inl hq)
    · exact .inr (.inr (.inl hp))
    · exact .inr (.inr (.inr (by simp [Sys.setWriter, hn])))
  all_goals exact .inl (hfix rfl rfl rfl rfl)

theorem Sys.MidWrite.setWriter {s : Sys} (h : s.MidWrite) {g : ℕ} {w : Writer}
    (hw : (s.writers g).copied ≤ w.copied) : (s.setWriter g w).MidWrite := by
  obtain ⟨g', hg'⟩ := h
  refine ⟨g', ?_⟩
  show 0 < (Function.update s.writers g w g').copied
  by_cases he : g' = g
  · rw [he, Function.update_self]
    rw [he] at hg'
    omega
  · rw [Function.update_of_ne he]
    exact hg'

/-- A `Write` call that has copied bytes is in the middle of it until it has notified the run loop. -/
theorem Sys.Step.midWrite {s s' : Sys} {e : Event} (h : Sys.Step s e s') :
    (s.MidWrite → s'.MidWrite ∨ s'.conn.app.writeNotify = true) ∧
    ((∃ g, e = .writeCopy g) → s'.MidWrite ∨ s'.conn = s.conn) := by
  cases h
  case writeReturn g written hpc =>
    refine ⟨?_, by rintro ⟨_, ⟨⟩⟩⟩
    rintro ⟨g', hg'⟩
    by_cases he : g' = g
    · rw [he, hpc] at hg'
      exact .inr (by simp [Sys.setWriter, show written > 0 from hg'])
    · refine .inl ⟨g', ?_⟩
      show 0 < (Function.update s.writers g _ g').copied
      rw [Function.update_of_ne he]
      exact hg'
  case writeCall g b _ hpc _ =>
    exact ⟨fun hm => .inl (hm.setWriter (s := { s with conn := _ }) (by rw [hpc]; exact le_rfl)),
      by rintro ⟨_, ⟨⟩⟩⟩
  case writeCopied hpc _ =>
    exact ⟨fun hm => .inl (hm.setWriter (by rw [hpc]; exact le_rfl)), fun _ => .inr rfl⟩
  case writeBlocked hpc _ _ _ =>
    exact ⟨fun hm => .inl (hm.setWriter (by rw [hpc]; exact le_rfl)), fun _ => .inr rfl⟩
  case writeCopy =>
    rename_i g rest written hho hpc hmore hopen hroom
    have hn : 0 < (s.conn.tx.writeBuf.writeNoBlock rest).2 := by
      rw [RingBuffer.writeNoBlock_snd, if_neg (by simp [hopen])]
      have := List.length_pos_iff.2 hmore
      omega
    have hmid : Sys.MidWrite ({ s with conn := s.conn.copyChunk rest }.setWriter g
        (.copying (rest.drop (s.conn.tx.writeBuf.writeNoBlock rest).2)
          (written + (s.conn.tx.writeBuf.writeNoBlock rest).2))) := by
      refine ⟨g, ?_⟩
      show 0 < (Function.update s.writers g _ g).copied
      rw [Function.update_self]
      show 0 < written + _
      omega
    exact ⟨fun _ => .inl hmid, fun _ => .inl hmid⟩
  case writeWake hpc _ =>
    exact ⟨fun hm => .inl (hm.setWriter (by rw [hpc]; exact le_rfl)), by rintro ⟨_, ⟨⟩⟩⟩
  case writeAbort hpc _ =>
    exact ⟨fun hm => .inl (hm.setWriter (by rw [hpc]; exact le_rfl)), by rintro ⟨_, ⟨⟩⟩⟩
  all_goals exact ⟨.inl, by rintro ⟨_, ⟨⟩⟩⟩

theorem senderInv_step {s s' : Sys} {e : Event} (hr : Reach Sys.Init Sys.step KeepsWindows s)
    (h : SenderInv s) (hok : KeepsWindows s e) (hstep : Sys.Step s e s') : SenderInv s' := by
  have hsame := hstep.sends.mss (unsynced_reach hr)
  cases hs : s.conn.ctl.synced with
  | false =>
    have hst : s.conn.ctl.state = .synRcvd ∨ s.conn.ctl.state = .closed :=
      (syncedInside_reach hr).resolve_left (by simp [hs])
    by_cases hin : ∃ seg, e = .inbound seg
    · obtain ⟨seg, rfl⟩ := hin
      cases hstep
      exact senderInv_opened h (fresh_reach hr hs) hs hst
    · have hne : ∀ seg, e ≠ .inbound seg := fun seg he => hin ⟨seg, he⟩
      refine ⟨fun _ => (hstep.unprobed hs hne hst).trans (h.unprobed hs), fun hs' => ?_⟩
      rcases hstep.ctl with ⟨seg, -, he, -⟩ | ⟨-, hk⟩
      · exact absurd he (hne seg)
      · exact absurd (hk.synced.symm.trans hs') (by simp [hs])
  | true =>
    refine ⟨fun hs' => absurd ((hsame.2 hs).1.symm.trans hs') (by simp), fun hs' hpos => ?_⟩
    rcases h.place hs (hok.1 hs) with hf | hcl | ⟨hfit, hcov⟩
    · exact .inl (finished_step hstep hf)
    · exact .inr (.inl (closed_step hstep hcl))
    · have ha := active_of_fit (hr.mono fun _ _ h => h.1) hs hfit
      have hmid := hstep.midWrite
      rcases hstep.goes ha hok with (hf | hcl | ⟨hfit', hcov'⟩) | ⟨hfit', hcopy⟩
      · exact .inl hf
      · exact .inr (.inl hcl)
      · refine .inr (.inr ⟨hfit', ?_⟩)
        rcases hcov with hcov | hm
        · exact .inl (hcov' hcov)
        · exact (hmid.1 hm).elim .inr fun hn => .inl (.inr (.inr (.inr hn)))
      · refine .inr (.inr ⟨hfit', ?_⟩)
        rcases hmid.2 hcopy with hm | he
        · exact .inr hm
        · rcases hcov with hcov | hm
          · exact .inl (by rw [he]; exact hcov)
          · exact (hmid.1 hm).elim .inr fun hn => .inl (.inr (.inr (.inr hn)))

theorem senderInv_reach {s : Sys} (hr : Reach Sys.Init Sys.step KeepsWindows s) : SenderInv s := by
  induction hr with
  | start h =>
    obtain ⟨h, irs, iss, options, hr, hw, -, rfl⟩ := Sys.init_iff.1 h
    exact ⟨fun _ => rfl, fun hs => by cases hs⟩
  | next hr hok he ih => exact senderInv_step hr ih hok (Sys.step_inv he).2

/-- What keeps the sender from idling: the windows stay in order, and a segment finds no `Write`
    between its copying and its notification, unless unsent data is covered. -/
def KeepsSending (s : Sys) (e : Event) : Prop :=
  KeepsWindows s e ∧ ∀ seg, e = .inbound seg → Covered s.conn ∨ ¬s.MidWrite

/-- SAFE: in every run whose steps keep to `KeepsSending`, after an inbound segment or a write
    notification of an open connection unsent data has something outstanding before it, is probed
    for, or has a notification pending. -/
theorem no_idle_sender {s s' : Sys} {e : Event} (hr : Reach Sys.Init Sys.step KeepsSending s)
    (hok : KeepsSending s e) (hstep : s.step e = some s')
    (he : e = .writeNotify ∨ ∃ seg, e = .inbound seg)
    (hst : s.conn.ctl.state = .established ∨ s.conn.ctl.state = .closeWait)
    (hopen : s'.conn.ctl.state ≠ .closed) (hlen : s'.conn.tx.writeBuf.len ≠ 0) :
    s'.conn.tx.snd.unacked ≠ [] ∨
      (s'.conn.tx.zeroWindowProbing = true ∧ s'.conn.tx.zeroWindowTimer.armed = true) ∨
      s'.conn.app.writeNotify = true := by
  have hr' := hr.mono fun _ _ h => h.1
  have hsync : s.conn.ctl.synced = true := by
    refine (syncedInside_reach hr).resolve_right ?_
    rcases hst with hst | hst <;> (rw [hst]; simp)
  have hinv := (Sys.step_inv hstep).2
  have hgoes : Goes True s'.conn := by
    rcases (senderInv_reach hr').place hsync (hok.1.1 hsync) with hf | hcl | ⟨hfit, hcov⟩
    · exact .inl (finished_step hinv hf)
    · exact .inr (.inl (closed_step hinv hcl))
    · have ha := active_of_fit (hr'.mono fun _ _ h => h.1) hsync hfit
      rcases he with rfl | ⟨seg, rfl⟩
      · cases hinv
        exact ha.onWriteNotify
      · have hcov : Covered s.conn := (hok.2 seg rfl).elim id fun hno => hcov.resolve_right hno
        rcases hinv.goes ha hok.1 with hg | ⟨-, g, he⟩
        · exact hg.imp id (.imp id fun h => ⟨h.1, fun _ => h.2 hcov⟩)
        · cases he
  rcases hgoes with hf | hcl | ⟨-, hcov⟩
  · exact absurd hf.2 hlen
  · exact absurd hcl hopen
  · rcases (hcov trivial).resolve_left hlen with hq | hp | hn
    · refine .inl fun hnil => ?_
      rw [hasUnacked, hnil] at hq
      cases hq
    · exact .inr (.inl hp)
    · exact .inr (.inr hn)

/-- An executable check for `KeepsSending`. -/
def keepsSending (s : Sys) (e : Event) : Bool :=
  (!s.conn.ctl.synced || decide (1 ≤ s.conn.tx.snd.mss)) &&
  match e with
  | .inbound seg =>
    decide (s.conn.tx.snd.cwnd.toNat < 2 ^ 31) &&
    decide (scaledWnd seg.wnd s.conn.env.sndWndScale ≠ 0) &&
    decide (min s.conn.tx.snd.mss ((s.conn.tx.snd.maxWnd / 2).toNat : ℤ)
      ≤ (scaledWnd seg.wnd s.conn.env.sndWndScale).toNat) &&
    (decide (s.conn.tx.writeBuf.len = 0) || s.conn.hasUnacked)
  | _ => true

theorem keepsSending_sound {s : Sys} {e : Event} (h : keepsSending s e = true) :
    KeepsSending s e := by
  rw [keepsSending.eq_def, Bool.and_eq_true] at h
  obtain ⟨hmss, h⟩ := h
  have hpos : PositiveMSS s e := by
    intro hs
    simpa [hs] using hmss
  by_cases hin : ∃ seg, e = .inbound seg
  · obtain ⟨seg, rfl⟩ := hin
    simp only [Bool.and_eq_true, decide_eq_true_eq, Bool.or_eq_true] at h
    obtain ⟨⟨⟨hcwnd, hwnd⟩, hworth⟩, hcov⟩ := h
    refine ⟨⟨hpos, ?_⟩, ?_⟩
    · rintro seg ⟨⟩ _
      exact ⟨hcwnd, fun _ => ⟨.inr hworth, fun _ h0 => absurd h0 hwnd⟩⟩
    · rintro seg ⟨⟩
      exact .inl (hcov.imp id .inl)
  · have hne : ∀ seg, e ≠ .inbound seg := fun seg he => hin ⟨seg, he⟩
    exact ⟨⟨hpos, fun seg he => absurd he (hne seg)⟩, fun seg he => absurd he (hne seg)⟩

/-- Two bytes are outstanding, Nagle holds a third one, and a segment acknowledges the first. -/
theorem no_idle_sender_nagle : ∃ s s' : Sys, ∃ seg : Segment,
    Reach Sys.Init Sys.step KeepsSending s ∧ KeepsSending s (.inbound seg) ∧
    s.step (.inbound seg) = some s' ∧ s.conn.ctl.state = .established ∧
    s'.conn.ctl.state ≠ .closed ∧ s'.conn.tx.writeBuf.len ≠ 0 ∧
    (s'.conn.tx.snd.unacked ≠ [] ∨
      (s'.conn.tx.zeroWindowProbing = true ∧ s'.conn.tx.zeroWindowTimer.armed = true) ∨
      s'.conn.app.writeNotify = true) := by
  obtain ⟨s, s', hr, hok, hstep, hst, hopen, hlen⟩ := Sys.exists_step Sys.init_sample keepsSending
    (fun s s' => s.conn.ctl.state = .established ∧ s'.conn.ctl.state ≠ .closed ∧
      s'.conn.tx.writeBuf.len ≠ 0)
    [Sys.sampleACK, .writeCall 0 [1, 2], .writeCopy 0, .writeCopy 0, .writeReturn 0, .writeNotify,
      .writeCall 0 [3], .writeCopy 0, .writeCopy 0, .writeReturn 0, .writeNotify]
    (.inbound (Sys.sampleSegment tcpFlagACK 101 202 1000 [])) (by decide +kernel)
  have hr' := hr.mono fun s e hok => keepsSending_sound hok
  have hok' := keepsSending_sound hok
  exact ⟨s, s', _, hr', hok', hstep, hst, hopen, hlen,
    no_idle_sender hr' hok' hstep (.inr ⟨_, rfl⟩) (.inl hst) hopen hlen⟩

/-- In CLOSE_WAIT the peer acknowledges all that is outstanding and closes its window: a byte that
    Nagle has held is left with nothing to send it. -/
theorem idle_sender_closeWait : ∃ s s' : Sys, ∃ seg : Segment,
    Reach Sys.Init Sys.step (fun _ _ => True) s ∧ s.step (.inbound seg) = some s' ∧
    s.conn.ctl.state = .closeWait ∧ s'.conn.ctl.state = .closeWait ∧
    s'.conn.tx.writeBuf.len ≠ 0 ∧ s'.conn.tx.snd.unacked = [] ∧
    s'.conn.tx.zeroWindowProbing = false ∧ s'.conn.app.writeNotify = false := by
  obtain ⟨s, s', hr, -, hstep, hs⟩ := Sys.exists_step Sys.init_sample (fun _ _ => true)
    (fun s s' => s.conn.ctl.state = .closeWait ∧ s'.conn.ctl.state = .closeWait ∧
      s'.conn.tx.writeBuf.len ≠ 0 ∧ s'.conn.tx.snd.unacked = [] ∧
      s'.conn.tx.zeroWindowProbing = false ∧ s'.conn.app.writeNotify = false)
    [Sys.sampleACK, .inbound (Sys.sampleSegment (tcpFlagFIN ||| tcpFlagACK) 101 201 1000 []),
      .writeCall 0 [1, 2], .writeCopy 0, .writeCopy 0, .writeReturn 0, .writeNotify,
      .writeCall 0 [3], .writeCopy 0, .writeCopy 0, .writeReturn 0, .writeNotify]
    (.inbound (Sys.sampleSegment tcpFlagACK 102 203 0 [])) (by decide +kernel)
  exact ⟨s, s', _, hr.mono fun _ _ _ => trivial, hstep, hs⟩

end Netstack.Tcp
