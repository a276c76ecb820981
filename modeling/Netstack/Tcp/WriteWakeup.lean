import Netstack.Tcp.IdleSender

/-! The wake-up of a blocked `Write`.

    `Write` copies chunk by chunk and waits inside `ringBuffer.Write` when the buffer is full; the
    run loop hears of the bytes only when `ringBuffer.Write` has returned. A `Write` longer than the
    space left therefore waits for a sender that nobody has told. A `Write` that waits while the
    sender is busy, or before it has copied anything, is woken. -/

namespace Netstack.Tcp
open Netstack.Header Netstack.Trace TCPConn

/-- A `Write` call waits for space in a full buffer, and nothing is under way that would make any:
    the run loop has not been notified, nothing is outstanding although the peer's window is open,
    and neither the retransmission nor the zero-window timer runs. -/
def Sys.LostWakeup (s : Sys) : Prop :=
  s.conn.ctl.state = .established ∧
  (∃ g rest written, s.writers g = .waiting s.conn.tx.writeBuf.notFull rest written) ∧
  s.conn.tx.writeBuf.free = 0 ∧ s.conn.app.writeNotify = false ∧ s.conn.tx.snd.unacked = [] ∧
  0 < s.conn.tx.snd.effectiveWindow ∧ s.conn.tx.rtoTimer.armed = false ∧
  s.conn.tx.zeroWindowTimer.armed = false

/-- A `Write` that has to wait finds unsent data covered, or no `Write` call has copied anything
    without having notified the run loop. -/
def KeepsWakeups (s : Sys) (e : Event) : Prop :=
  KeepsWindows s e ∧ ∀ g rest written, e = .writeCopy g → s.writers g = .copying rest written →
    rest ≠ [] → s.conn.tx.writeBuf.free = 0 → Covered s.conn ∨ ¬s.MidWrite

/-- A `Write` call that waits after a step was waiting before it, or begins to wait now. -/
theorem Sys.Step.waiting {s s' : Sys} {e : Event} (h : Sys.Step s e s') {g epoch written : ℕ}
    {rest : List UInt8} (hw : s'.writers g = .waiting epoch rest written) :
    s.writers g = .waiting epoch rest written ∨
    e = .writeCopy g ∧ s.writers g = .copying rest written ∧ rest ≠ [] ∧ s'.conn = s.conn ∧
      s.conn.tx.writeBuf.free = 0 ∧ epoch = s.conn.tx.writeBuf.notFull := by
  have hset : ∀ {c : TCPConn} {g' : ℕ} {w : Writer},
      (({ s with conn := c } : Sys).setWriter g' w).writers g = .waiting epoch rest written →
      g ≠ g' ∧ s.writers g = .waiting epoch rest written ∨
        g = g' ∧ w = .waiting epoch rest written := by
    intro c g' w hw
    change Function.update s.writers g' w g = _ at hw
    by_cases he : g = g'
    · rw [he, Function.update_self] at hw
      exact .inr ⟨he, hw⟩
    · rw [Function.update_of_ne he] at hw
      exact .inl ⟨he, hw⟩
  cases h
  case writeBlocked g' rest' written' hpc hmore _ hfull =>
    rcases hset (c := s.conn) hw with ⟨-, h⟩ | ⟨rfl, h⟩
    · exact .inl h
    · cases h
      exact .inr ⟨rfl, hpc, hmore, rfl, hfull, rfl⟩
  case writeCall | writeCopy | writeReturn =>
    rcases hset hw with ⟨-, h⟩ | ⟨-, h⟩
    · exact .inl h
    · cases h
  case writeCopied | writeWake | writeAbort =>
    rcases hset (c := s.conn) hw with ⟨-, h⟩ | ⟨-, h⟩
    · exact .inl h
    · cases h
  all_goals exact .inl hw

/-- The epoch a `Write` waits for has begun; one that still waits for the present one finds the
    buffer full and the sender covered. -/
structure WaitInv (s : Sys) : Prop where
  epoch : ∀ g n rest written, s.writers g = .waiting n rest written → n ≤ s.conn.tx.writeBuf.notFull
  full : ∀ g rest written, s.writers g = .waiting s.conn.tx.writeBuf.notFull rest written →
    s.conn.tx.writeBuf.free = 0 ∧ (Fit s.conn → Covered s.conn)

theorem RingBuffer.len_ne_zero {rb : RingBuffer} (h : rb.free = 0) : rb.len ≠ 0 := by
  have hcap := rb.cap_pos
  have hadd := rb.len_add_free
  rw [RingBuffer.cap] at hadd
  omega

theorem Sys.Step.notFull_le {s s' : Sys} {e : Event} (h : Sys.Step s e s') :
    s.conn.tx.writeBuf.notFull ≤ s'.conn.tx.writeBuf.notFull := by
  rcases h.drained with hd | ⟨-, -, he⟩
  · rcases hd.woken with hlt | ⟨he, -⟩
    · exact hlt.le
    · exact he.ge
  · exact he.ge

theorem synced_of_full {ok : Sys → Event → Prop} {s : Sys} (hr : Reach Sys.Init Sys.step ok s)
    (hfull : s.conn.tx.writeBuf.free = 0) : s.conn.ctl.synced = true := by
  by_contra hs
  have hfresh := fresh_reach hr (by simpa using hs)
  exact RingBuffer.len_ne_zero hfull ((RingBuffer.contents_eq_nil_iff _).1 hfresh.contents)

/-- While the buffer is full and no one has been woken, unsent data stays covered. -/
theorem covered_step {s s' : Sys} {e : Event} (hr : Reach Sys.Init Sys.step KeepsWindows s)
    (hok : KeepsWindows s e) (hstep : Sys.Step s e s') (hfull : s.conn.tx.writeBuf.free = 0)
    (hcov : Fit s.conn → Covered s.conn) (hfit : Fit s'.conn) : Covered s'.conn := by
  have hlen := RingBuffer.len_ne_zero hfull
  have hs := synced_of_full hr hfull
  rcases (senderInv_reach hr).place hs (hok.1 hs) with hf | hcl | ⟨hfit₀, -⟩
  · exact absurd hf.2 hlen
  · have hcl' := closed_step hstep hcl
    rcases hfit.state with hst | hst <;> exact absurd (hcl'.symm.trans hst) (by simp)
  · have ha := active_of_fit (hr.mono fun _ _ h => h.1) hs hfit₀
    rcases hstep.goes ha hok with (hf | hcl | ⟨-, hgo⟩) | ⟨-, hcopy⟩
    · exact .inl hf.2
    · rcases hfit.state with hst | hst <;> exact absurd (hcl.symm.trans hst) (by simp)
    · exact hgo (hcov hfit₀)
    · obtain ⟨g, rfl⟩ := hcopy
      cases hstep
      case writeCopy => exact absurd hfull (by assumption)
      all_goals exact hcov hfit₀

theorem waitInv_step {s s' : Sys} {e : Event} (hr : Reach Sys.Init Sys.step KeepsWakeups s)
    (h : WaitInv s) (hok : KeepsWakeups s e) (hstep : Sys.Step s e s') : WaitInv s' := by
  have hr' := hr.mono fun _ _ h => h.1
  refine ⟨fun g n rest written hw => ?_, fun g rest written hw => ?_⟩
  · rcases hstep.waiting hw with hold | ⟨-, -, -, hsame, -, rfl⟩
    · exact (h.epoch g n rest written hold).trans hstep.notFull_le
    · rw [hsame]
  · rcases hstep.waiting hw with hold | ⟨rfl, hpc, hmore, hsame, hfull, -⟩
    · -- it has not been woken, so it was waiting for the present epoch already
      have hle := h.epoch g _ rest written hold
      have heq : s'.conn.tx.writeBuf.notFull = s.conn.tx.writeBuf.notFull :=
        le_antisymm hle hstep.notFull_le
      rw [heq] at hold
      obtain ⟨hfull, hcov⟩ := h.full g rest written hold
      refine ⟨?_, covered_step hr' hok.1 hstep hfull hcov⟩
      rcases hstep.drained with hd | ⟨-, hroom, -⟩
      · rcases hd.woken with hlt | ⟨-, hfree⟩
        · omega
        · exact hfree.trans hfull
      · exact absurd hfull hroom
    · rw [hsame]
      refine ⟨hfull, fun hfit => ?_⟩
      have hlen := RingBuffer.len_ne_zero hfull
      have hs := synced_of_full hr hfull
      rcases (senderInv_reach hr').place hs (hok.1.1 hs) with hf | hcl | ⟨-, hcov⟩
      · exact absurd hf.2 hlen
      · rcases hfit.state with hst | hst <;> exact absurd (hcl.symm.trans hst) (by simp)
      · exact (hok.2 g rest written rfl hpc hmore hfull).elim id fun hno => hcov.resolve_right hno

theorem waitInv_reach {s : Sys} (hr : Reach Sys.Init Sys.step KeepsWakeups s) : WaitInv s := by
  induction hr with
  | start h =>
    obtain ⟨h, irs, iss, options, hr, hw, -, rfl⟩ := Sys.init_iff.1 h
    exact ⟨(fun _ _ _ _ he => by cases he), (fun _ _ _ he => by cases he)⟩
  | next hr hok he ih => exact waitInv_step hr ih hok (Sys.step_inv he).2

/-- A connection that has come through a step after its handshake has a segment size. -/
theorem positiveMSS_of_full {s : Sys} (hr : Reach Sys.Init Sys.step PositiveMSS s)
    (hfull : s.conn.tx.writeBuf.free = 0) : 1 ≤ s.conn.tx.snd.mss := by
  have hs := synced_of_full hr hfull
  cases hr with
  | start h =>
    obtain ⟨h, irs, iss, options, hr, hw, -, rfl⟩ := Sys.init_iff.1 h
    cases hs
  | @next s₀ _ e hr₀ hok he =>
    have hstep := (Sys.step_inv he).2
    cases hs₀ : s₀.conn.ctl.synced with
    | true =>
      rw [((hstep.sends.mss (unsynced_reach hr₀)).2 hs₀).2]
      exact hok hs₀
    | false =>
      -- the step was the end of the handshake, and nothing has been written yet
      rcases hstep.ctl with ⟨seg, k, rfl, -⟩ | ⟨-, hk⟩
      · cases hstep
        have hle := (onInbound_drained s₀.conn seg).len_le
        have h0 := (RingBuffer.contents_eq_nil_iff _).1 (fresh_reach hr₀ hs₀).contents
        exact absurd (Nat.le_zero.1 (hle.trans h0.le)) (RingBuffer.len_ne_zero hfull)
      · exact absurd (hk.synced.symm.trans hs) (by simp [hs₀])

/-- SAFE: in every run whose steps keep to `KeepsWakeups` no `Write` waits for a sender that has
    nothing to do. -/
theorem no_lost_wakeup {s : Sys} (hr : Reach Sys.Init Sys.step KeepsWakeups s) : ¬s.LostWakeup := by
  rintro ⟨hst, ⟨g, rest, written, hw⟩, hfull, hn, hu, -, -, hzw⟩
  have hr' := hr.mono fun _ _ h => h.1
  obtain ⟨-, hcov⟩ := (waitInv_reach hr).full g rest written hw
  have hlen := RingBuffer.len_ne_zero hfull
  have hpos := positiveMSS_of_full (hr'.mono fun _ _ h => h.1) hfull
  rcases (senderInv_reach hr').place (synced_of_full hr hfull) hpos with hf | hcl | ⟨hfit, -⟩
  · exact hlen hf.2
  · exact absurd (hcl.symm.trans hst) (by simp)
  · rcases (hcov hfit).resolve_left hlen with hq | hp | htoken
    · rw [hasUnacked, hu] at hq
      cases hq
    · exact absurd (hp.2.symm.trans hzw) (by simp)
    · exact absurd (htoken.symm.trans hn) (by simp)

/-- An executable check for `KeepsWakeups`. -/
def keepsWakeups (s : Sys) (e : Event) : Bool :=
  keepsSending s e &&
  match e with
  | .writeCopy g =>
    decide (s.conn.tx.writeBuf.free ≠ 0) || s.conn.hasUnacked ||
      match s.writers g with
      | .copying [] _ => true
      | _ => false
  | _ => true

theorem keepsWakeups_sound {s : Sys} {e : Event} (h : keepsWakeups s e = true) :
    KeepsWakeups s e := by
  rw [keepsWakeups.eq_def, Bool.and_eq_true] at h
  refine ⟨(keepsSending_sound h.1).1, ?_⟩
  rintro g rest written rfl hpc hmore hfull
  have h2 := h.2
  cases rest with
  | nil => exact absurd rfl hmore
  | cons b rest =>
    simp only [hfull, hpc, ne_eq, not_true_eq_false, decide_false, Bool.false_or, Bool.or_false] at h2
    exact .inl (.inr (.inl h2))

/-- A second `Write` waits in a buffer that a first one has filled again, while the first four bytes
    are outstanding. -/
theorem no_lost_wakeup_waiting : ∃ s : Sys, Reach Sys.Init Sys.step KeepsWakeups s ∧
    s.conn.ctl.state = .established ∧ s.conn.tx.writeBuf.free = 0 ∧
    s.writers 0 = .waiting s.conn.tx.writeBuf.notFull [9] 4 ∧ ¬s.LostWakeup := by
  obtain ⟨s, hr, hst, hfull, hw⟩ := Sys.exists_reach Sys.init_sample keepsWakeups
    (fun s => s.conn.ctl.state = .established ∧ s.conn.tx.writeBuf.free = 0 ∧
      s.writers 0 = .waiting s.conn.tx.writeBuf.notFull [9] 4)
    [Sys.sampleACK, .writeCall 0 [1, 2, 3, 4], .writeCopy 0, .writeCopy 0, .writeReturn 0,
      .writeNotify, .writeCall 0 [5, 6, 7, 8, 9], .writeCopy 0, .writeCopy 0] (by decide +kernel)
  have hr' := hr.mono fun s e hok => keepsWakeups_sound hok
  exact ⟨s, hr', hst, hfull, hw, no_lost_wakeup hr'⟩

/-- Five bytes are written into a buffer of four: `Write` waits for the sender, and the sender for
    `Write`. -/
theorem write_wakeup_lost : ∃ s : Sys, Reach Sys.Init Sys.step (fun _ _ => True) s ∧
    s.LostWakeup := by
  obtain ⟨s, hr, hst, hw, hs⟩ := Sys.exists_reach Sys.init_sample (fun _ _ => true)
    (fun s => s.conn.ctl.state = .established ∧
      s.writers 0 = .waiting s.conn.tx.writeBuf.notFull [5] 4 ∧
      s.conn.tx.writeBuf.free = 0 ∧ s.conn.app.writeNotify = false ∧ s.conn.tx.snd.unacked = [] ∧
      0 < s.conn.tx.snd.effectiveWindow ∧ s.conn.tx.rtoTimer.armed = false ∧
      s.conn.tx.zeroWindowTimer.armed = false)
    [Sys.sampleACK, .writeCall 0 [1, 2, 3, 4, 5], .writeCopy 0, .writeCopy 0] (by decide +kernel)
  exact ⟨s, hr.mono fun _ _ _ => trivial, hst, ⟨0, _, _, hw⟩, hs⟩

end Netstack.Tcp
