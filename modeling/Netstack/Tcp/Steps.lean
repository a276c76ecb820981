import Netstack.Tcp.Frame

/-! The steps of the system as a relation, one constructor for each way an event can go, with the
    guard under which it happens. Every invariant of the system is proved by cases on it. -/

namespace Netstack.Tcp
open Netstack.Header Netstack.Trace

namespace Sys

/-- `s` after event `e`. -/
inductive Step (s : Sys) : Event → Sys → Prop
  | inbound (seg : Segment) (run : s.conn.ctl.running = true) :
      Step s (.inbound seg) { s with conn := s.conn.onInbound seg }
  | rtoTimer (run : s.conn.ctl.running = true) (armed : s.conn.tx.rtoTimer.armed = true) :
      Step s .rtoTimer { s with conn := s.conn.onRTO }
  | delayedACKTimer (run : s.conn.ctl.running = true) :
      Step s .delayedACKTimer { s with conn := s.conn.onDelayedACK }
  | zeroWindowTimer (run : s.conn.ctl.running = true)
      (armed : s.conn.tx.zeroWindowTimer.armed = true) :
      Step s .zeroWindowTimer { s with conn := s.conn.onZeroWindow }
  | keepaliveTimer (run : s.conn.ctl.running = true) :
      Step s .keepaliveTimer { s with conn := s.conn.onKeepalive }
  | writeNotify (run : s.conn.ctl.running = true) (token : s.conn.app.writeNotify = true) :
      Step s .writeNotify { s with conn := s.conn.onWriteNotify }
  | windowNotify (run : s.conn.ctl.running = true) :
      Step s .windowNotify { s with conn := s.conn.onWindowNotify }
  | closeCh (run : s.conn.ctl.running = true) (token : s.conn.app.closeCh = true) :
      Step s .closeCh { s with conn := s.conn.onClose }
  | forceCloseCh (run : s.conn.ctl.running = true) (token : s.conn.app.forceCloseCh = true) :
      Step s .forceCloseCh { s with conn := s.conn.onForceClose }
  | synRcvdTimer (run : s.conn.ctl.running = true) :
      Step s .synRcvdTimer { s with conn := s.conn.onSynRcvdTimer }
  | finWait2Timer (run : s.conn.ctl.running = true) :
      Step s .finWait2Timer { s with conn := s.conn.onFinWait2Timer }
  | timeWaitTimer (run : s.conn.ctl.running = true)
      (armed : s.conn.timers.timeWaitTimer.armed = true) :
      Step s .timeWaitTimer { s with conn := s.conn.exitRun }
  | done (run : s.conn.ctl.running = true) (closed : s.conn.ctl.done = true) :
      Step s .done { s with conn := s.conn.exitRun }
  | writeRefused (g : ℕ) (b : List UInt8) (pc : s.writers g = .idle)
      (shut : s.conn.app.writeShutdown = true) :
      Step s (.writeCall g b) s
  | writeCall (g : ℕ) (b : List UInt8) (handed : s.conn.ctl.handedOver = true)
      (pc : s.writers g = .idle) (shut : s.conn.app.writeShutdown = false) :
      Step s (.writeCall g b) ({ s with conn := s.conn.growWriteBuf }.setWriter g (.copying b 0))
  | writeCopied (g : ℕ) {rest : List UInt8} {written : ℕ} (pc : s.writers g = .copying rest written)
      (ending : rest = [] ∨ s.conn.tx.writeBuf.closed = true) :
      Step s (.writeCopy g) (s.setWriter g (.returning written))
  | writeBlocked (g : ℕ) {rest : List UInt8} {written : ℕ} (pc : s.writers g = .copying rest written)
      (more : rest ≠ []) (isOpen : s.conn.tx.writeBuf.closed = false)
      (full : s.conn.tx.writeBuf.free = 0) :
      Step s (.writeCopy g) (s.setWriter g (.waiting s.conn.tx.writeBuf.notFull rest written))
  | writeCopy (g : ℕ) {rest : List UInt8} {written : ℕ} (handed : s.conn.ctl.handedOver = true)
      (pc : s.writers g = .copying rest written)
      (more : rest ≠ []) (isOpen : s.conn.tx.writeBuf.closed = false)
      (room : s.conn.tx.writeBuf.free ≠ 0) :
      Step s (.writeCopy g) ({ s with conn := s.conn.copyChunk rest }.setWriter g
        (.copying (rest.drop (s.conn.tx.writeBuf.writeNoBlock rest).2)
          (written + (s.conn.tx.writeBuf.writeNoBlock rest).2)))
  | writeWake (g : ℕ) {epoch : ℕ} {rest : List UInt8} {written : ℕ}
      (pc : s.writers g = .waiting epoch rest written)
      (woken : epoch ≠ s.conn.tx.writeBuf.notFull) :
      Step s (.writeWake g) (s.setWriter g (.copying rest written))
  | writeAbort (g : ℕ) {epoch : ℕ} {rest : List UInt8} {written : ℕ}
      (pc : s.writers g = .waiting epoch rest written) (closed : s.conn.ctl.done = true) :
      Step s (.writeAbort g) (s.setWriter g (.returning written))
  | writeReturn (g : ℕ) {written : ℕ} (pc : s.writers g = .returning written) :
      Step s (.writeReturn g) ({ s with
        conn.app.writeNotify := s.conn.app.writeNotify || decide (written > 0) }.setWriter g .idle)
  | readCall (n : ℕ) (avail : s.conn.rx.readBuf.len > 0) :
      Step s (.readCall n) { s with
        conn.rx.readBuf := (s.conn.rx.readBuf.readNoBlock n).1
        readers := if n > 0 then s.readers + 1 else s.readers }
  | readReturn :
      Step s .readReturn { s with conn.app.windowNotify := true, readers := s.readers - 1 }
  | closeWrite (handed : s.conn.ctl.handedOver = true) :
      Step s .closeWrite { s with conn := s.conn.closeWrite }
  | closeRead : Step s .closeRead { s with conn := s.conn.closeRead }
  | forceClose : Step s .forceClose { s with conn.app.forceCloseCh := true }
  | setNoDelay (b : Bool) : Step s (.setNoDelay b) { s with conn.app.noDelay := b }

variable {s s' : Sys} {e : Event}

theorem onLoop_eq_some {enabled : Bool} {c : TCPConn} :
    s.onLoop enabled c = some s' ↔
      s.conn.ctl.running = true ∧ enabled = true ∧ s' = { s with conn := c } := by
  rw [onLoop]
  split
  · rename_i h
    rw [Option.some.injEq, eq_comm]
    exact ⟨fun he => ⟨h.1, h.2, he⟩, fun he => he.2.2⟩
  · rename_i h
    exact ⟨(fun he => by cases he), fun he => absurd ⟨he.1, he.2.1⟩ h⟩

theorem loopStep_step (h : s.loopStep e = some s') : Step s e s' := by
  cases e <;> simp only [loopStep, onLoop_eq_some, reduceCtorEq] at h <;>
    obtain ⟨hr, he, rfl⟩ := h
  case inbound seg => exact .inbound seg hr
  case rtoTimer => exact .rtoTimer hr he
  case delayedACKTimer => exact .delayedACKTimer hr
  case zeroWindowTimer => exact .zeroWindowTimer hr he
  case keepaliveTimer => exact .keepaliveTimer hr
  case writeNotify => exact .writeNotify hr he
  case windowNotify => exact .windowNotify hr
  case closeCh => exact .closeCh hr he
  case forceCloseCh => exact .forceCloseCh hr he
  case synRcvdTimer => exact .synRcvdTimer hr
  case finWait2Timer => exact .finWait2Timer hr
  case timeWaitTimer => exact .timeWaitTimer hr he
  case done => exact .done hr he

theorem copyStep_step {g : ℕ} {rest : List UInt8} {written : ℕ}
    (hover : s.conn.ctl.handedOver = true) (hpc : s.writers g = .copying rest written) :
    Step s (.writeCopy g) (s.copyStep g rest written) := by
  rw [copyStep]
  dsimp only
  split_ifs with hend hfull
  · exact .writeCopied g hpc hend
  · exact .writeBlocked g hpc (fun h => hend (.inl h)) (by simpa using fun h => hend (.inr h)) hfull
  · exact .writeCopy g hover hpc (fun h => hend (.inl h)) (by simpa using fun h => hend (.inr h))
      hfull

theorem writeStep_step (hover : s.conn.ctl.handedOver = true) (h : s.writeStep e = some s') :
    Step s e s' := by
  cases e <;> simp only [writeStep, reduceCtorEq] at h
  case writeCall g b =>
    split_ifs at h with hidle hshut
    · rw [← Option.some.inj h]; exact .writeRefused g b hidle hshut
    · rw [← Option.some.inj h]; exact .writeCall g b hover hidle (by simpa using hshut)
  case writeCopy g =>
    split at h
    · rename_i rest written hpc
      rw [← Option.some.inj h]; exact copyStep_step hover hpc
    · cases h
  case writeWake g =>
    split at h
    · rename_i epoch rest written hpc
      split_ifs at h with hwoken
      rw [← Option.some.inj h]; exact .writeWake g hpc hwoken
    · cases h
  case writeAbort g =>
    split at h
    · rename_i epoch rest written hpc
      split_ifs at h with hdone
      rw [← Option.some.inj h]; exact .writeAbort g hpc hdone
    · cases h
  case writeReturn g =>
    split at h
    · rename_i written hpc
      rw [← Option.some.inj h]; exact .writeReturn g hpc
    · cases h

theorem appStep_step (hover : s.conn.ctl.handedOver = true) (h : s.appStep e = some s') :
    Step s e s' := by
  cases e <;> simp only [appStep, reduceCtorEq] at h
  case readCall n =>
    split at h
    · rename_i hlen
      rw [← Option.some.inj h]; exact .readCall n hlen
    · cases h
  case readReturn =>
    split_ifs at h
    rw [← Option.some.inj h]; exact .readReturn
  case closeWrite => rw [← Option.some.inj h]; exact .closeWrite hover
  case closeRead => rw [← Option.some.inj h]; exact .closeRead
  case setNoDelay b => rw [← Option.some.inj h]; exact .setNoDelay b

/-- Inversion: a step happens only without a fault, and is one of the listed ones. -/
theorem step_inv (h : s.step e = some s') : s.conn.fault = none ∧ Step s e s' := by
  by_cases hfault : s.conn.fault.isSome
  · simp [step, hfault] at h
  refine ⟨by simpa using hfault, ?_⟩
  cases e <;> simp only [step, if_neg hfault] at h
  case forceClose => rw [← Option.some.inj h]; exact .forceClose
  case writeCall | writeCopy | writeWake | writeAbort | writeReturn =>
    split_ifs at h with hover
    exact writeStep_step hover h
  case readCall | readReturn | closeWrite | closeRead | setNoDelay =>
    split_ifs at h with hover
    exact appStep_step hover h
  all_goals exact loopStep_step h

theorem step_inbound {seg : Segment} (hfault : s.conn.fault = none)
    (hrun : s.conn.ctl.running = true) :
    s.step (.inbound seg) = some { s with conn := s.conn.onInbound seg } := by
  simp [step, loopStep, onLoop, hfault, hrun]

/-- Events that leave the receive side alone: all but segments, reads and the calls that close
    `readBuf`. -/
def quiet : Event → Bool
  | .inbound _ | .readCall _ | .closeRead | .forceCloseCh => false
  | _ => true

theorem Step.quiet (h : Step s e s') (he : Sys.quiet e = true) :
    TCPConn.Quiet s.conn s'.conn := by
  cases h
  case inbound | forceCloseCh | readCall | closeRead => cases he
  case rtoTimer => exact .onRTO _
  case delayedACKTimer => exact .onDelayedACK _
  case zeroWindowTimer => exact .onZeroWindow _
  case keepaliveTimer => exact .onKeepalive _
  case writeNotify => exact .onWriteNotify _
  case windowNotify => exact .onWindowNotify _
  case closeCh => exact .onClose _
  case synRcvdTimer => exact .onSynRcvdTimer _
  case finWait2Timer => exact .onFinWait2Timer _
  case timeWaitTimer | done => exact .exitRun _
  case writeCall => exact .growWriteBuf _
  case closeWrite => exact .closeWrite _
  all_goals exact .of_silent rfl rfl rfl rfl rfl rfl

/-- Before the handshake ends, the run loop sends nothing but acknowledgments of the SYN, unless a
    segment comes in. -/
theorem Step.unsynced (h : Step s e s') (he : Sys.quiet e = true) (hs : s.conn.ctl.synced = false)
    (hst : s.conn.ctl.state = .synRcvd ∨ s.conn.ctl.state = .closed) :
    (∀ p ∈ s'.conn.wire.out, p ∈ s.conn.wire.out ∨ p.ack = s.conn.env.irs + 1) ∧
    (s'.conn.ctl.state = .synRcvd ∨ s'.conn.ctl.state = .closed) := by
  have hsame : ∀ {c : TCPConn}, c.wire = s.conn.wire → c.ctl = s.conn.ctl →
      (∀ p ∈ c.wire.out, p ∈ s.conn.wire.out ∨ p.ack = s.conn.env.irs + 1) ∧
      (c.ctl.state = .synRcvd ∨ c.ctl.state = .closed) := by
    intro c hw hc
    rw [hw, hc]
    exact ⟨fun p hp => .inl hp, hst⟩
  have hexit : ∀ {c : TCPConn}, c.wire = s.conn.wire → c.ctl = s.conn.ctl →
      (∀ p ∈ c.exitRun.wire.out, p ∈ s.conn.wire.out ∨ p.ack = s.conn.env.irs + 1) ∧
      (c.exitRun.ctl.state = .synRcvd ∨ c.exitRun.ctl.state = .closed) := by
    intro c hw hc
    have hdone : c.closeDone.wire = s.conn.wire ∧
        (c.closeDone.ctl.state = .synRcvd ∨ c.closeDone.ctl.state = .closed) := by
      rw [TCPConn.closeDone]
      split
      · exact ⟨hw, by rw [hc]; exact hst⟩
      · exact ⟨hw, .inr rfl⟩
    exact ⟨fun p hp => .inl (by rw [← hdone.1]; exact hp), hdone.2⟩
  have hne : s.conn.ctl.state ≠ .established := by
    rcases hst with h | h <;> rw [h] <;> simp
  cases h
  case inbound | forceCloseCh | readCall | closeRead => cases he
  case rtoTimer => exact hsame (by simp [TCPConn.onRTO, hs]; rfl) (by simp [TCPConn.onRTO, hs]; rfl)
  case delayedACKTimer =>
    refine ⟨fun p hp => ?_, hst⟩
    rcases List.mem_append.1 hp with hp | hp
    · exact .inl hp
    · rw [List.mem_singleton.1 hp]
      exact .inr (by simp [TCPConn.ackNum, TCPConn.cancelDelayedACK, hs])
  case zeroWindowTimer =>
    exact hsame (by simp [TCPConn.onZeroWindow, hs]; rfl) (by simp [TCPConn.onZeroWindow, hs]; rfl)
  case keepaliveTimer =>
    exact hsame (by simp [TCPConn.onKeepalive, hs]; rfl) (by simp [TCPConn.onKeepalive, hs]; rfl)
  case writeNotify => exact hsame (by simp [TCPConn.onWriteNotify, hs]) (by simp [TCPConn.onWriteNotify, hs])
  case windowNotify => exact hsame (by simp [TCPConn.onWindowNotify, hs]) (by simp [TCPConn.onWindowNotify, hs])
  case closeCh =>
    have hclose : s.conn.onClose = { s.conn with app.closeCh := false } := by
      rcases hst with h | h <;> simp [TCPConn.onClose, TCPConn.handleClose, hs, h]
    exact hsame (by rw [hclose]) (by rw [hclose])
  case synRcvdTimer =>
    rw [TCPConn.onSynRcvdTimer]
    split
    · exact hexit rfl rfl
    · exact hsame rfl rfl
  case finWait2Timer =>
    rw [TCPConn.onFinWait2Timer]
    split
    · exact hexit rfl rfl
    · exact hsame rfl rfl
  case timeWaitTimer | done => exact hexit rfl rfl
  case writeCall =>
    rw [TCPConn.growWriteBuf]
    split <;> exact hsame rfl rfl
  case closeWrite =>
    rw [TCPConn.closeWrite]
    split <;> exact hsame rfl rfl
  all_goals exact hsame rfl rfl

/-! ### Where a run starts -/

/-- The system after a SYN has created the connection. -/
def start (h : TCPHandler) (irs iss : UInt32) (options : List UInt8)
    (hr : 0 < h.cfg.initialReadBufferSize.toNat) (hw : 0 < h.cfg.initialWriteBufferSize.toNat) :
    Sys where
  conn := h.synConn irs iss options (RingBuffer.new _ hr) (RingBuffer.new _ hw)
  writers := fun _ => .idle
  readers := 0

/-- The initial states are the ones `start` gives, on a configuration that has been clamped. -/
theorem init_iff : Init s ↔ ∃ (h : TCPHandler) (irs iss : UInt32) (options : List UInt8)
    (hr : 0 < h.cfg.initialReadBufferSize.toNat) (hw : 0 < h.cfg.initialWriteBufferSize.toNat),
    (∃ cfg : Config, h.cfg = cfg.clamp) ∧ s = start h irs iss options hr hw := by
  constructor
  · rintro ⟨⟨h, cfg, irs, iss, options, hcfg, hsyn⟩, hw, hr⟩
    rw [TCPHandler.handleSYN] at hsyn
    split_ifs at hsyn with hr' hw'
    refine ⟨h, irs, iss, options, hr', hw', ⟨cfg, hcfg⟩, ?_⟩
    obtain ⟨conn, writers, readers⟩ := s
    rw [start, Option.some.inj hsyn]
    exact congrArg₂ _ hw hr
  · rintro ⟨h, irs, iss, options, hr, hw, ⟨cfg, hcfg⟩, rfl⟩
    refine ⟨⟨h, cfg, irs, iss, options, hcfg, ?_⟩, rfl, rfl⟩
    rw [TCPHandler.handleSYN, dif_pos hr, dif_pos hw]; rfl

/-- A small handler: `defaultConfig` but for the buffers, no GSO, a clock that counts its readings. -/
def sampleHandler (readSize writeSize : ℕ) : TCPHandler where
  cfg := { defaultConfig with
    readBufferSize := readSize
    maxReadBufferSize := readSize
    initialReadBufferSize := readSize
    writeBufferSize := writeSize
    initialWriteBufferSize := writeSize }
  mtu := 1500
  gsoMaxSize := none
  tsOffset := 0
  tsEpoch := 0
  clock := fun n => n
  mtu_le := TCPHandler.mtu_le_max
  gso_pos := TCPHandler.gso_pos_none

theorem sampleHandler_read_pos : 0 < (sampleHandler 8 4).cfg.initialReadBufferSize.toNat := by decide

theorem sampleHandler_write_pos : 0 < (sampleHandler 8 4).cfg.initialWriteBufferSize.toNat := by decide

/-- The system after a SYN of sequence number 100 without options, answered with 200, with buffers
    of 8 and 4 bytes. -/
def sample : Sys :=
  start (sampleHandler 8 4) 100 200 [] sampleHandler_read_pos sampleHandler_write_pos

theorem init_sample : Init sample :=
  init_iff.2 ⟨_, _, _, _, _, _, ⟨(sampleHandler 8 4).cfg, rfl⟩, rfl⟩

/-- A state found by running a list of events, each of which passes the check `ok`. -/
theorem exists_reach {s₀ : Sys} (h₀ : Init s₀) (ok : Sys → Event → Bool) (P : Sys → Prop)
    [DecidablePred P] (es : List Event)
    (h : (exec step (fun s e => ok s e = true) s₀ es).any (fun s => P s) = true) :
    ∃ s, Reach Init step (fun s e => ok s e = true) s ∧ P s :=
  exists_reach_exec h₀ es h

/-- A step found by running a list of events, and then `e`. -/
theorem exists_step {s₀ : Sys} (h₀ : Init s₀) (ok : Sys → Event → Bool) (P : Sys → Sys → Prop)
    [∀ s s', Decidable (P s s')] (es : List Event) (e : Event)
    (h : (exec step (fun s e => ok s e = true) s₀ es).any (fun s =>
      ok s e = true ∧ (step s e).any (fun s' => P s s') = true) = true) :
    ∃ s s', Reach Init step (fun s e => ok s e = true) s ∧ ok s e = true ∧ step s e = some s' ∧
      P s s' :=
  exists_step_exec h₀ es e h

theorem length_nil_lt : ([] : List UInt8).length < 2 ^ 16 := by decide

/-- A segment without options. -/
def sampleSegment (flags : TCPFlags) (seq ack : UInt32) (wnd : UInt16) (payload : List UInt8)
    (h : payload.length < 2 ^ 16 := by decide) : Segment :=
  ⟨flags, seq, ack, wnd, [], payload, h⟩

/-- The ACK that completes the handshake of `sample`. -/
def sampleACK : Event := .inbound (sampleSegment tcpFlagACK 101 201 1000 [] length_nil_lt)

end Sys
end Netstack.Tcp
