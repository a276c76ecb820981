import Netstack.Tcp.Control

/-! Shutting a handler down (`TCPHandler.Close`, `ForceClose`, `TCPListener`, the end of
    `handleSynRcvd`).

    Three parties wait for each other: `Close` for the `done` of one connection after the other, a
    run loop that has completed a handshake for room in the accept queue, and the callers of
    `Accept` for a connection. A run loop that offers its connection does not look at
    `forceCloseCh`: `Close` waits for it in vain once the queue is full and nobody accepts. -/

namespace Netstack.Tcp
open Netstack.Header Netstack.Trace

namespace TCPConn

/-! ### The hand-over -/

/-- `seg` brings `handleSynRcvd` to its `select`. -/
def completes (c : TCPConn) (seg : Segment) : Bool :=
  !c.pawsDrop seg && !seg.flags.has tcpFlagRST && decide (c.ctl.state = .synRcvd)
    && seg.flags.has tcpFlagACK
    && decide (seg.seq - (c.env.irs + 1) < c.env.cfg.receiveWindowSize.toUInt32)
    && decide (seg.ack = c.env.iss + 1)

/-- `handleSegment` up to that `select`. -/
def offer (c : TCPConn) (seg : Segment) : TCPConn :=
  ((c.updateTSRecent seg).establish seg).resetKeepalive.synPayload seg

/-- What the run loop does after the `select`. -/
def afterOffer (c : TCPConn) : TCPConn := c.manageRTO.drainForFIN

/-- The two halves make up the case of the run loop. -/
theorem onInbound_completes {c : TCPConn} {seg : Segment} (h : c.completes seg = true) :
    c.onInbound seg = (c.offer seg).handOver.afterOffer := by
  simp only [completes, Bool.and_eq_true, Bool.not_eq_true', decide_eq_true_eq] at h
  obtain ⟨⟨⟨⟨⟨hpaws, hrst⟩, hs⟩, hack⟩, hseq⟩, hiss⟩ := h
  have ht := TxOnly.updateTSRecent c seg
  have hs' : (c.updateTSRecent seg).ctl.state = .synRcvd := by rw [ht.ctl, hs]
  have henv := ht.env
  have hdispatch : (c.updateTSRecent seg).dispatch seg = (c.offer seg).handOver := by
    rw [dispatch, hs', handleSynRcvd, if_pos hack, henv, if_neg (UInt32.not_le.2 hseq), if_neg (by simpa using hiss)]
    rfl
  rw [onInbound, handleSegment, if_neg (by simp [hpaws]), if_neg (by simp [hrst]),
    if_neg (by simp [hs]), hdispatch]
  rfl

end TCPConn

/-! ### The handler, its connections and its listener -/

/-- Where a run loop waits: in the `select` of `run`, or in that of `handleSynRcvd`. -/
inductive Phase where
  | select
  | offering
  deriving DecidableEq

/-- A connection with its run loop and its queue of inbound segments. -/
structure Connection where
  sys : Sys
  inbound : List Segment
  phase : Phase

/-- Where `Close` stands: not called; the listener closed; going through the connections still to
    close; in the `ForceClose` of one of them; returned. -/
inductive Closer where
  | idle
  | listenerClosed
  | forcing (rest : List ℕ)
  | waiting (id : ℕ) (rest : List ℕ)
  | returned
  deriving DecidableEq

/-- A handler. Connections are numbered in the order of their SYNs; `registered` are those in its
    map, `accepting` is the number of `Accept` calls in their `select`. -/
structure Server where
  handler : TCPHandler
  acceptQueueSize : ℕ
  inboundQueueSize : ℕ
  acceptCh : List ℕ
  accepting : ℕ
  listenerDone : Bool
  closed : Bool
  conns : List Connection
  registered : List ℕ
  closer : Closer

/-- What happens: packets, steps of a connection, the hand-over, the steps of `Accept` and `Close`. -/
inductive ServerEvent where
  | syn (irs iss : UInt32) (options : List UInt8)
  | packet (id : ℕ) (seg : Segment)
  | conn (id : ℕ) (e : Event)
  | send (id : ℕ)
  | sendDone (id : ℕ)
  | cleanup (id : ℕ)
  | acceptCall
  | accept
  | acceptDone
  | closeListener
  | collect (order : List ℕ)
  | forceClose
  | sawDone
  | join

namespace Connection

/-- `done` is closed. -/
def done (c : Connection) : Bool := c.sys.conn.ctl.done

/-- The run loop waits in the `select` of `handleSynRcvd`. -/
def offered (c : Connection) : Bool := decide (c.phase = .offering)

/-- The connection with a new state of its system. -/
def put (c : Connection) (sys : Sys) : Connection := { c with sys := sys }

/-- A segment is taken from the queue and handled: up to the hand-over, or entirely. -/
def receive (c : Connection) (seg : Segment) (rest : List Segment) : Option Connection :=
  if c.sys.conn.ctl.running ∧ c.sys.conn.completes seg then
    some { sys := { c.sys with conn := c.sys.conn.offer seg }, inbound := rest, phase := .offering }
  else (c.sys.step (.inbound seg)).map fun sys => { sys := sys, inbound := rest, phase := .select }

/-- A step of the connection's run loop in its `select`, or of the application. While the connection
    is being offered there is neither. -/
def step (c : Connection) (e : Event) : Option Connection :=
  match c.phase, e with
  | .offering, _ => none
  | .select, .inbound seg =>
    match c.inbound with
    | [] => none
    | next :: rest => if next = seg then c.receive seg rest else none
  | .select, .forceClose => if c.sys.conn.ctl.handedOver then (c.sys.step .forceClose).map c.put else none
  | .select, e => (c.sys.step e).map c.put

/-- The `select` of `handleSynRcvd` has sent the connection, or seen it `done`. -/
def resume (c : Connection) (handed : Bool) : Option Connection :=
  if c.phase = .offering ∧ (handed ∨ c.done) then
    let conn := if handed then c.sys.conn.handOver else c.sys.conn
    some { c with sys := { c.sys with conn := conn.afterOffer }, phase := .select }
  else none

/-- `close(c.forceCloseCh)`, the first time. -/
def forceClose (c : Connection) : Connection := { c with sys := { c.sys with conn.app.forceCloseCh := true } }

end Connection

namespace Server

/-- Connection `id` is now `c`. -/
def put (s : Server) (id : ℕ) (c : Connection) : Server := { s with conns := s.conns.set id c }

/-- A change of one connection. -/
def onConn (s : Server) (id : ℕ) (f : Connection → Option Connection) : Option Server :=
  (s.conns[id]?.bind f).map (s.put id)

/-- `acceptCh <- c`: to a waiting `Accept`, or into the queue if there is room. -/
def acceptSend (s : Server) (id : ℕ) : Option Server :=
  if s.acceptCh = [] ∧ 0 < s.accepting then some { s with accepting := s.accepting - 1 }
  else if s.acceptCh.length < s.acceptQueueSize then some { s with acceptCh := s.acceptCh ++ [id] }
  else none

/-- A connection has panicked, and the program with it. -/
def panicked (s : Server) : Bool := s.conns.any fun c => c.sys.conn.fault.isSome

/-- `HandlePacket` for a known flow; a full queue drops the packet. -/
def deliver (s : Server) (id : ℕ) (seg : Segment) : Option Server :=
  if s.closed ∨ id ∉ s.registered then none
  else s.onConn id fun c =>
    some (if c.inbound.length < s.inboundQueueSize then { c with inbound := c.inbound ++ [seg] } else c)

/-- `handleSYN`. -/
def handleSYN (s : Server) (irs iss : UInt32) (options : List UInt8) : Option Server :=
  if s.closed then none
  else (s.handler.handleSYN irs iss options).map fun c =>
    { s with
      conns := s.conns ++ [⟨⟨c, fun _ => .idle, 0⟩, [], .select⟩]
      registered := s.registered ++ [s.conns.length] }

/-- `cleanup`, once the run loop has returned. -/
def cleanup (s : Server) (id : ℕ) : Option Server :=
  if id ∈ s.registered then
    (s.onConn id fun c => if c.sys.conn.ctl.running then none else some { c with inbound := [] }).map fun s =>
      { s with registered := s.registered.erase id }
  else none

/-- The steps of `Accept`. -/
def acceptStep (s : Server) : ServerEvent → Option Server
  | .acceptCall => some { s with accepting := s.accepting + 1 }
  | .accept =>
    match s.acceptCh with
    | [] => none
    | _ :: rest => if 0 < s.accepting then some { s with acceptCh := rest, accepting := s.accepting - 1 } else none
  | .acceptDone =>
    if s.listenerDone ∧ 0 < s.accepting then some { s with accepting := s.accepting - 1 } else none
  | _ => none

/-- The steps of `Close`. The order in which it finds the connections is that of a map. -/
def closeStep (s : Server) : ServerEvent → Option Server
  | .closeListener =>
    if s.closer = .idle then some { s with listenerDone := true, closer := .listenerClosed } else none
  | .collect order =>
    if s.closer = .listenerClosed ∧ s.registered.isPerm order then
      some { s with closed := true, closer := .forcing order }
    else none
  | .forceClose =>
    match s.closer with
    | .forcing (id :: rest) =>
      ({ s with closer := .waiting id rest } : Server).onConn id fun c => some c.forceClose
    | _ => none
  | .sawDone =>
    match s.closer with
    | .waiting id rest => if s.conns[id]?.any Connection.done then some { s with closer := .forcing rest } else none
    | _ => none
  | .join =>
    if s.closer = .forcing [] ∧ s.registered = [] ∧ s.conns.all (fun c => !c.sys.conn.ctl.running) then
      some { s with closer := .returned }
    else none
  | _ => none

/-- One step. -/
def step (s : Server) (e : ServerEvent) : Option Server :=
  if s.panicked then none
  else
    match e with
    | .syn irs iss options => s.handleSYN irs iss options
    | .packet id seg => s.deliver id seg
    | .conn id e => s.onConn id fun c => c.step e
    | .send id => (s.acceptSend id).bind fun s => s.onConn id fun c => c.resume true
    | .sendDone id => s.onConn id fun c => c.resume false
    | .cleanup id => s.cleanup id
    | .acceptCall | .accept | .acceptDone => s.acceptStep e
    | .closeListener | .collect _ | .forceClose | .sawDone | .join => s.closeStep e

/-- A new handler without connections. -/
def Init (s : Server) : Prop :=
  (∃ cfg : Config, s.handler.cfg = cfg.clamp) ∧ s.acceptCh = [] ∧ s.accepting = 0 ∧ s.listenerDone = false ∧
    s.closed = false ∧ s.conns = [] ∧ s.registered = [] ∧ s.closer = .idle

end Server

/-! ### Who waits in vain -/

/-- Cases of a run loop's `select`. -/
def Event.loop : Event → Bool
  | .writeCall _ _ | .writeCopy _ | .writeWake _ | .writeAbort _ | .writeReturn _ => false
  | .readCall _ | .readReturn | .closeWrite | .closeRead | .forceClose | .setNoDelay _ => false
  | _ => true

/-- A step of the run loop of connection `id`. -/
def ServerEvent.Runs (id : ℕ) : ServerEvent → Prop
  | .conn i e => i = id ∧ e.loop = true
  | .send i | .sendDone i => i = id
  | _ => False

/-- How many steps a run loop that looks at `forceCloseCh` first is away from closing `done`. -/
def Connection.away (c : Connection) : ℕ :=
  if c.done then 0 else
    match c.phase with
    | .select => 1
    | .offering => 2

namespace Server

/-- The run loop of connection `id` has a step that brings it closer to closing `done`. -/
def Progresses (s : Server) (id : ℕ) : Prop :=
  ∃ e s' c c', ServerEvent.Runs id e ∧ s.step e = some s' ∧ s.conns[id]? = some c ∧ s'.conns[id]? = some c' ∧
    c'.away < c.away

/-- If `Close` waits for a connection, it is done or its run loop gets there. -/
def Answered (s : Server) : Prop :=
  ∀ id rest, s.closer = .waiting id rest → (∃ c, s.conns[id]? = some c ∧ c.done = true) ∨ s.Progresses id

/-- How many connections are being offered. -/
def offering (s : Server) : ℕ := s.conns.countP Connection.offered

/-- `ForceClose` is called only if the accept queue has room for all connections that are being
    offered; and while `Close` waits, a handshake is completed only if there is room for one more. -/
def Roomy (s : Server) : ServerEvent → Prop
  | .forceClose => s.acceptCh.length + s.offering ≤ s.acceptQueueSize
  | .conn id (.inbound seg) => ∀ i rest, s.closer = .waiting i rest →
      (∃ c, s.conns[id]? = some c ∧ c.sys.conn.completes seg = true) →
      s.acceptCh.length + s.offering < s.acceptQueueSize
  | _ => True

end Server

/-! ### What a step keeps of a connection -/

namespace TCPConn

theorem CtlStep.running {c : TCPConn} {seg : Segment} {k : Ctl} (h : CtlStep c seg k) :
    k.running = c.ctl.running := by
  have hset : ∀ (k : Ctl) (s : TCPState), (k.set s).running = k.running := fun _ _ => rfl
  have hfinish : ∀ k : Ctl, k.finish.running = k.running := fun k => by
    rw [Ctl.finish]
    split <;> rfl
  have hcaught : ∀ {k : Ctl}, Caught c seg k → k.running = c.ctl.running := by
    rintro _ (rfl | ⟨-, -, rfl⟩) <;> rfl
  cases h with
  | reset => rw [hfinish, hset]
  | lastAck => rw [hfinish]
  | finWait1 _ hk => rw [hset, hcaught hk]
  | finWait2 _ hk => rw [hset, hcaught hk]
  | same | opened | fin | finTwice | caught | closing => rfl

theorem handleSynRcvd_app (c : TCPConn) (seg : Segment) : (c.handleSynRcvd seg).app = c.app := by
  rw [handleSynRcvd]
  split_ifs
  · exact (RxOnly.sendACK c).app
  · exact ((RxOnly.sendRSTSegment c _).trans (.handleRST _)).app
  · show (TCPConn.synPayload _ seg).app = c.app
    rw [synPayload]
    split
    · rfl
    · exact ((RxOnly.handleData _ _ _).trans (.sendACK _)).app
  · exact (RxOnly.sendSYNACK c).app
  · rfl

theorem finalizeFIN_app (c : TCPConn) : c.finalizeFIN.app = c.app := by
  rw [finalizeFIN]
  split
  · exact (TxOnly.sendFIN c.clearPending).app
  · exact (TxOnly.sendFIN c.clearPending).app
  · rfl

theorem afterOffer_app (c : TCPConn) : c.afterOffer.app = c.app := by
  have hrto : c.manageRTO.app = c.app := by
    rw [manageRTO, armRTO]
    split_ifs <;> rfl
  rw [afterOffer, drainForFIN, finIfDrained]
  split_ifs
  · exact (finalizeFIN_app _).trans ((TxOnly.sendPending _).app.trans hrto)
  · exact (TxOnly.sendPending _).app.trans hrto
  · exact hrto

/-- A segment changes nothing of what the application asked for. -/
theorem onInbound_app (c : TCPConn) (seg : Segment) : (c.onInbound seg).app = c.app := by
  refine (afterOffer_app (c.handleSegment seg)).trans ?_
  have hts := (TxOnly.updateTSRecent c seg).app
  by_cases hs : c.ctl.state = .synRcvd
  · rw [handleSegment]
    split_ifs
    · rfl
    · exact (RxOnly.handleRSTSegment c seg).app
    · exact (RxOnly.sendACK c).app
    · rw [dispatch, (TxOnly.updateTSRecent c seg).ctl, hs]
      exact (handleSynRcvd_app _ seg).trans hts
  · rcases Handled.handleSegment c seg hs with h | ⟨c₁, hack, hfin⟩
    · exact h.rxOnly.app
    · exact hfin.rxOnly.app.trans (hack.txOnly.app.trans hts)

theorem armRTO_app (c : TCPConn) : c.armRTO.app = c.app := by
  rw [armRTO]
  split <;> rfl

theorem finIfDrained_app (c : TCPConn) : c.finIfDrained.app = c.app := by
  rw [finIfDrained]
  split
  · exact finalizeFIN_app c
  · rfl

theorem exitRun_app (c : TCPConn) : c.exitRun.app = c.app := (RxOnly.closeDone c).app

theorem onRTO_app (c : TCPConn) : c.onRTO.app = c.app := by
  have hrto : c.stopRTO.handleRTO.app = c.app := by
    rw [handleRTO]
    split_ifs
    · rfl
    · exact (TxOnly.backOff c.stopRTO).app
    · rw [abort]
      split
      · exact ((RxOnly.sendRSTSegment _ _).trans (.closeDone _)).app
      · exact (RxOnly.closeDone _).app
    · exact (TxOnly.backOff _).app
  rw [onRTO, rearmRTO]
  split_ifs
  · exact (armRTO_app _).trans hrto
  · exact hrto
  · rfl

theorem onKeepalive_app (c : TCPConn) : c.onKeepalive.app = c.app := by
  rw [onKeepalive]
  split_ifs
  · rfl
  · exact (exitRun_app _).trans (RxOnly.sendRSTSegment _ _).app
  · exact (RxOnly.sendKeepaliveProbe _).app
  · rfl

theorem onWriteNotifySend_forced (c : TCPConn) :
    c.onWriteNotifySend.app.forceCloseCh = c.app.forceCloseCh := by
  have happ : c.onWriteNotifySend.app = { c with app.writeNotify := false }.sendPending.app :=
    (armRTO_app _).trans ((RxOnly.piggyback _).app.trans (TxOnly.checkZeroWindow _).app)
  rw [happ, (TxOnly.sendPending _).app]

theorem onWriteNotify_forced (c : TCPConn) : c.onWriteNotify.app.forceCloseCh = c.app.forceCloseCh := by
  rw [onWriteNotify]
  split_ifs
  · rw [finIfDrained_app, onWriteNotifySend_forced]
  · exact onWriteNotifySend_forced c
  · rfl

theorem onClose_forced (c : TCPConn) : c.onClose.app.forceCloseCh = c.app.forceCloseCh := by
  have hfin : ∀ c₁ : TCPConn, c₁.flush.finOrDefer.app = c₁.app := by
    intro c₁
    rw [finOrDefer]
    split
    · exact (TxOnly.flush c₁).app
    · exact (finalizeFIN_app _).trans (TxOnly.flush c₁).app
  have hclose : { c with app.closeCh := false }.handleClose.app.forceCloseCh = c.app.forceCloseCh := by
    rw [handleClose.eq_def]
    split
    · rw [hfin]
    · rw [hfin]
    · rfl
  rw [onClose]
  dsimp only
  split
  · rw [armRTO_app, hclose]
  · exact hclose

theorem onForceClose_app (c : TCPConn) : c.onForceClose.app = c.app := by
  rw [onForceClose]
  split <;> exact exitRun_app _

end TCPConn

/-- A run loop that has returned has closed `done`. -/
def Ctl.Exited (k : Ctl) : Prop := k.running = false → k.done = true

theorem Ctl.finish_done (k : Ctl) : k.finish.done = true := by
  rw [Ctl.finish]
  split
  · assumption
  · rfl

theorem Sys.Step.exited {s s' : Sys} {e : Event} (h : Sys.Step s e s') (hx : s.conn.ctl.Exited) :
    s'.conn.ctl.Exited := by
  have hfin : ∀ k : Ctl, k.finalize.running = k.running ∧ k.finalize.done = k.done := fun k => by
    rw [Ctl.finalize.eq_def]
    split <;> exact ⟨rfl, rfl⟩
  have hrun : ∀ {seg}, Sys.Step s (.inbound seg) s' → s.conn.ctl.running = true := by
    intro seg h
    cases h
    assumption
  rcases h.ctl with ⟨seg, k, rfl, hk, hend⟩ | ⟨-, hq⟩
  · intro hstop
    have hk' := hk.running.trans (hrun h)
    rcases hend with he | ⟨-, he⟩
    · rw [he, hk'] at hstop
      cases hstop
    · rw [he, (hfin k).1, hk'] at hstop
      cases hstop
  · generalize s'.conn.ctl = k at hq ⊢
    cases hq with
    | same => exact hx
    | finish => exact fun _ => Ctl.finish_done _
    | exit => exact fun _ => Ctl.finish_done _
    | defer => exact hx
    | finalize =>
      intro hstop
      rw [(hfin _).1] at hstop
      rw [(hfin _).2]
      exact hx hstop

/-- `forceCloseCh` stays closed. -/
theorem Sys.Step.forced {s s' : Sys} {e : Event} (h : Sys.Step s e s')
    (hf : s.conn.app.forceCloseCh = true) : s'.conn.app.forceCloseCh = true := by
  cases h
  case inbound seg _ =>
    rw [← hf]
    exact congrArg _ (TCPConn.onInbound_app s.conn seg)
  case rtoTimer => rw [← hf]; exact congrArg _ (TCPConn.onRTO_app _)
  case delayedACKTimer =>
    rw [← hf]
    exact congrArg _ (TCPConn.RxOnly.sendACK s.conn.cancelDelayedACK).app
  case zeroWindowTimer =>
    show s.conn.onZeroWindow.app.forceCloseCh = true
    rw [← hf, TCPConn.onZeroWindow]
    split
    · exact congrArg _ (TCPConn.TxOnly.sendZeroWindowProbe s.conn.stopZeroWindow).app
    · rfl
  case keepaliveTimer => rw [← hf]; exact congrArg _ (TCPConn.onKeepalive_app _)
  case writeNotify => rw [← hf]; exact TCPConn.onWriteNotify_forced _
  case windowNotify =>
    show s.conn.onWindowNotify.app.forceCloseCh = true
    rw [← hf, TCPConn.onWindowNotify]
    dsimp only
    split <;> rfl
  case closeCh => rw [← hf]; exact TCPConn.onClose_forced _
  case forceCloseCh => rw [← hf]; exact congrArg _ (TCPConn.onForceClose_app _)
  case synRcvdTimer =>
    show s.conn.onSynRcvdTimer.app.forceCloseCh = true
    rw [← hf, TCPConn.onSynRcvdTimer]
    dsimp only
    split
    · exact congrArg _ (TCPConn.exitRun_app _)
    · rfl
  case finWait2Timer =>
    show s.conn.onFinWait2Timer.app.forceCloseCh = true
    rw [← hf, TCPConn.onFinWait2Timer]
    dsimp only
    split
    · exact congrArg _ (TCPConn.exitRun_app _)
    · rfl
  case timeWaitTimer | done => rw [← hf]; exact congrArg _ (TCPConn.exitRun_app _)
  case writeCall =>
    show s.conn.growWriteBuf.app.forceCloseCh = true
    rw [← hf, TCPConn.growWriteBuf]
    split <;> rfl
  case closeWrite =>
    show s.conn.closeWrite.app.forceCloseCh = true
    rw [← hf, TCPConn.closeWrite]
    split <;> rfl
  case closeRead =>
    show s.conn.closeRead.app.forceCloseCh = true
    rw [← hf, TCPConn.closeRead]
    split <;> rfl
  case forceClose => rfl
  all_goals exact hf

/-- What a change of a connection leaves in place. -/
structure Connection.Kept (c c' : Connection) : Prop where
  exited : c.sys.conn.ctl.Exited → c'.sys.conn.ctl.Exited
  forced : c.sys.conn.app.forceCloseCh = true → c'.sys.conn.app.forceCloseCh = true

namespace Connection

variable {c c' : Connection}

theorem Kept.of_step {e : Event} {sys : Sys} (h : c.sys.step e = some sys) (hsys : c'.sys = sys) : Kept c c' := by
  obtain ⟨-, hstep⟩ := Sys.step_inv h
  exact ⟨by rw [hsys]; exact hstep.exited, by rw [hsys]; exact hstep.forced⟩

theorem offer_kept {seg : Segment} (hrun : c.sys.conn.ctl.running = true)
    (hsys : c'.sys = { c.sys with conn := c.sys.conn.offer seg }) : Kept c c' := by
  have happ : (c.sys.conn.offer seg).app = c.sys.conn.app := by
    rw [TCPConn.offer, TCPConn.synPayload]
    split
    · exact (TCPConn.TxOnly.updateTSRecent c.sys.conn seg).app
    · exact ((TCPConn.RxOnly.handleData _ _ _).trans (.sendACK _)).app.trans
        (TCPConn.TxOnly.updateTSRecent c.sys.conn seg).app
  have hctl : (c.sys.conn.offer seg).ctl.running = true := by
    have hrun' := congrArg Ctl.running (TCPConn.establish_payload_ctl (c.sys.conn.updateTSRecent seg) seg)
    rw [(TCPConn.TxOnly.updateTSRecent c.sys.conn seg).ctl] at hrun'
    exact hrun'.trans hrun
  refine ⟨fun _ hstop => ?_, fun hf => ?_⟩
  · rw [hsys] at hstop
    exact absurd (hctl.symm.trans hstop) (by simp)
  · rw [hsys]
    exact (congrArg _ happ).trans hf

/-- A step of a connection; it comes to be offered only by a segment that completes the handshake. -/
theorem step_kept {e : Event} (h : c.step e = some c') : Kept c c' ∧ c.phase = .select ∧
    (c'.phase = .offering → ∃ seg, e = .inbound seg ∧ c.sys.conn.completes seg = true) := by
  rw [step.eq_def] at h
  split at h
  · cases h
  · rename_i seg hphase
    split at h
    · cases h
    · split_ifs at h
      rw [receive] at h
      split_ifs at h with hc
      · obtain rfl := Option.some.inj h
        exact ⟨offer_kept hc.1 rfl, hphase, fun _ => ⟨seg, rfl, hc.2⟩⟩
      · obtain ⟨sys, hsys, rfl⟩ := Option.map_eq_some_iff.1 h
        exact ⟨.of_step hsys rfl, hphase, fun hp => by cases hp⟩
  · rename_i hphase
    split_ifs at h
    obtain ⟨sys, hsys, rfl⟩ := Option.map_eq_some_iff.1 h
    exact ⟨.of_step hsys rfl, hphase, fun hp => absurd (hphase.symm.trans hp) (by simp)⟩
  · rename_i hphase _ _
    obtain ⟨sys, hsys, rfl⟩ := Option.map_eq_some_iff.1 h
    exact ⟨.of_step hsys rfl, hphase, fun hp => absurd (hphase.symm.trans hp) (by simp)⟩

theorem resume_kept {handed : Bool} (h : c.resume handed = some c') :
    Kept c c' ∧ c.phase = .offering ∧ c'.phase = .select := by
  have hctl : ∀ c₁ : TCPConn, c₁.ctl.Exited → c₁.afterOffer.ctl.Exited := by
    intro c₁ hx
    rw [TCPConn.afterOffer]
    rcases TCPConn.drainForFIN_ctl c₁.manageRTO with he | ⟨-, he⟩ <;> rw [he, TCPConn.manageRTO_ctl]
    · exact hx
    · rw [Ctl.finalize.eq_def]
      split <;> exact hx
  have hkept : ∀ c₁ : TCPConn, c₁.app = c.sys.conn.app → (c.sys.conn.ctl.Exited → c₁.ctl.Exited) →
      Kept c { c with sys := { c.sys with conn := c₁.afterOffer }, phase := .select } := by
    intro c₁ happ hx
    exact ⟨fun h => hctl _ (hx h),
      fun hf => (congrArg App.forceCloseCh ((TCPConn.afterOffer_app c₁).trans happ)).trans hf⟩
  rw [resume] at h
  split_ifs at h with hp
  · obtain rfl := Option.some.inj h
    exact ⟨hkept _ rfl id, hp.1, rfl⟩
  · obtain rfl := Option.some.inj h
    exact ⟨hkept _ rfl id, hp.1, rfl⟩

end Connection

/-! ### The invariant -/

namespace Server

variable {s s' : Server} {id : ℕ}

@[simp] theorem conns_put (c : Connection) : (s.put id c).conns = s.conns.set id c := rfl

theorem onConn_eq_some {f : Connection → Option Connection} (h : s.onConn id f = some s') :
    ∃ c c', s.conns[id]? = some c ∧ f c = some c' ∧ s' = s.put id c' := by
  obtain ⟨c', hc', rfl⟩ := Option.map_eq_some_iff.1 h
  obtain ⟨c, hc, hf⟩ := Option.bind_eq_some_iff.1 hc'
  exact ⟨c, c', hc, hf, rfl⟩

theorem getElem?_put {c : Connection} (hc : s.conns[id]? = some c) (c' : Connection) (i : ℕ) :
    (s.put id c').conns[i]? = if id = i then some c' else s.conns[i]? := by
  rw [conns_put, List.getElem?_set, if_pos (List.getElem?_eq_some_iff.1 hc).1]

/-- How the number of offered connections changes with one of them. -/
theorem offering_put {c : Connection} (hc : s.conns[id]? = some c) (c' : Connection) :
    (s.put id c').offering + (if c.offered then 1 else 0) = s.offering + if c'.offered then 1 else 0 := by
  obtain ⟨hid, rfl⟩ := List.getElem?_eq_some_iff.1 hc
  have hcount := @List.countP_set _ Connection.offered s.conns id c' hid
  have hpos : (if s.conns[id].offered then 1 else 0) ≤ s.offering := by
    split_ifs with hp
    · exact List.one_le_countP_iff.2 ⟨_, List.getElem_mem hid, hp⟩
    · exact Nat.zero_le _
  rw [offering] at hpos ⊢
  rw [offering, conns_put]
  omega

/-- Every run loop that has returned has closed `done`, and the one `Close` waits for can see that. -/
structure Sound (s : Server) : Prop where
  exited : ∀ c ∈ s.conns, c.sys.conn.ctl.Exited
  forced : ∀ {id rest}, s.closer = .waiting id rest →
    ∃ c, s.conns[id]? = some c ∧ c.sys.conn.app.forceCloseCh = true

/-- While `Close` waits, the queue has room for all but `n` of the connections that are offered. -/
def Short (n : ℕ) (s : Server) : Prop :=
  ∀ {id rest}, s.closer = .waiting id rest → s.acceptCh.length + s.offering ≤ s.acceptQueueSize + n

/-- What holds while the queue has room. -/
structure Inv (s : Server) : Prop where
  sound : s.Sound
  room : s.Short 0

theorem inv_init (h : Init s) : Inv s := by
  obtain ⟨-, -, -, -, -, hconns, -, hcloser⟩ := h
  have hnot : ∀ {id rest}, s.closer ≠ .waiting id rest := by
    rw [hcloser]
    exact fun h => by cases h
  refine ⟨⟨fun c hc => ?_, fun hw => absurd hw hnot⟩, fun hw => absurd hw hnot⟩
  rw [hconns] at hc
  cases hc

/-- A change of one connection. -/
theorem Sound.put {c c' : Connection} (h : Sound s) (hc : s.conns[id]? = some c) (hk : c.Kept c') :
    Sound (s.put id c') := by
  refine ⟨fun d hd => ?_, fun {i rest} hw => ?_⟩
  · rcases List.mem_or_eq_of_mem_set hd with hd | rfl
    · exact h.exited d hd
    · exact hk.exited (h.exited c (List.mem_of_getElem? hc))
  · obtain ⟨d, hd, hf⟩ := h.forced hw
    by_cases hi : id = i
    · subst hi
      obtain rfl := Option.some.inj (hc.symm.trans hd)
      exact ⟨c', by rw [getElem?_put hc, if_pos rfl], hk.forced hf⟩
    · exact ⟨d, by rw [getElem?_put hc, if_neg hi, hd], hf⟩

/-- Nothing happens to the connections. -/
theorem Sound.around (h : Sound s) (hconns : s'.conns = s.conns) (hcloser : s'.closer = s.closer) : Sound s' := by
  refine ⟨by rw [hconns]; exact h.exited, fun hw => ?_⟩
  rw [hconns]
  exact h.forced (hcloser ▸ hw)

/-- The queue gets no fuller. -/
theorem Inv.around (h : Inv s) (hconns : s'.conns = s.conns) (hcloser : s'.closer = s.closer)
    (hsize : s'.acceptQueueSize = s.acceptQueueSize) (hle : s'.acceptCh.length ≤ s.acceptCh.length) : Inv s' := by
  refine ⟨h.sound.around hconns hcloser, fun hw => ?_⟩
  have hroom := h.room (hcloser ▸ hw)
  have hoff : s'.offering = s.offering := by rw [offering, offering, hconns]
  omega

/-- `Close` goes on to a place where it does not wait. -/
theorem Inv.moves (h : Inv s) (hconns : s'.conns = s.conns) (hnot : ∀ id rest, s'.closer ≠ .waiting id rest) :
    Inv s' :=
  ⟨⟨by rw [hconns]; exact h.sound.exited, fun hw => absurd hw (hnot _ _)⟩, fun hw => absurd hw (hnot _ _)⟩

/-- A connection changes, and is offered as before. -/
theorem Inv.put {c c' : Connection} (h : Inv s) (hc : s.conns[id]? = some c) (hk : c.Kept c')
    (hp : c'.phase = c.phase) : Inv (s.put id c') := by
  refine ⟨h.sound.put hc hk, fun hw => ?_⟩
  have hroom := h.room hw
  have hcount := offering_put hc c'
  rw [Connection.offered, Connection.offered, hp] at hcount
  show s.acceptCh.length + _ ≤ s.acceptQueueSize + 0
  omega

theorem Inv.step_conn (h : Inv s) {e : Event} (hok : s.Roomy (.conn id e))
    (hs : (s.onConn id fun c => c.step e) = some s') : Inv s' := by
  obtain ⟨c, c', hc, hstep, rfl⟩ := onConn_eq_some hs
  obtain ⟨hk, hphase, hoffer⟩ := Connection.step_kept hstep
  cases hp : c'.phase with
  | select => exact h.put hc hk (hp.trans hphase.symm)
  | offering =>
    obtain ⟨seg, rfl, hcomp⟩ := hoffer hp
    refine ⟨h.sound.put hc hk, fun {i rest} hw => ?_⟩
    have hlt := hok i rest hw ⟨c, hc, hcomp⟩
    have hcount := offering_put hc c'
    simp only [Connection.offered, hphase, hp, decide_true, reduceCtorEq, decide_false, if_true,
      Bool.false_eq_true, if_false] at hcount
    show s.acceptCh.length + _ ≤ s.acceptQueueSize + 0
    omega

/-- A connection is no longer offered. -/
theorem Sound.resume (h : Sound s) (hroom : s.Short 1) {handed : Bool}
    (hs : (s.onConn id fun c => c.resume handed) = some s') : Inv s' := by
  obtain ⟨c, c', hc, hres, rfl⟩ := onConn_eq_some hs
  obtain ⟨hk, hp, hp'⟩ := Connection.resume_kept hres
  refine ⟨h.put hc hk, fun hw => ?_⟩
  have hle := hroom hw
  have hcount := offering_put hc c'
  simp only [Connection.offered, hp, hp', decide_true, reduceCtorEq, decide_false, if_true,
    Bool.false_eq_true, if_false] at hcount
  show s.acceptCh.length + _ ≤ s.acceptQueueSize + 0
  omega

/-- What the send on `acceptCh` leaves alone. -/
theorem acceptSend_eq_some (h : s.acceptSend id = some s') : s'.conns = s.conns ∧ s'.closer = s.closer ∧
    s'.acceptQueueSize = s.acceptQueueSize ∧ s'.acceptCh.length ≤ s.acceptCh.length + 1 := by
  rw [acceptSend] at h
  split_ifs at h
  · obtain rfl := Option.some.inj h
    exact ⟨rfl, rfl, rfl, Nat.le_succ _⟩
  · obtain rfl := Option.some.inj h
    exact ⟨rfl, rfl, rfl, by simp⟩

/-- The hand-over takes as much room in the queue as it sets free. -/
theorem Inv.send (h : Inv s) (hs : ((s.acceptSend id).bind fun s => s.onConn id fun c => c.resume true) = some s') :
    Inv s' := by
  obtain ⟨s₁, hs₁, hs'⟩ := Option.bind_eq_some_iff.1 hs
  obtain ⟨hconns, hcloser, hsize, hlen⟩ := acceptSend_eq_some hs₁
  refine (h.sound.around hconns hcloser).resume (fun hw => ?_) hs'
  have hroom := h.room (hcloser ▸ hw)
  have hoff : s₁.offering = s.offering := by rw [offering, offering, hconns]
  omega

/-- `ForceClose` is called. -/
theorem Inv.forceClose (h : Inv s) (hok : s.Roomy .forceClose) (hs : s.closeStep .forceClose = some s') : Inv s' := by
  rw [closeStep] at hs
  split at hs
  · rename_i id rest _
    obtain ⟨c, c', hc, hf, rfl⟩ := onConn_eq_some hs
    obtain rfl := Option.some.inj hf
    have hcount : (Server.put _ id c.forceClose).offering + (if c.offered then 1 else 0)
        = s.offering + if c.offered then 1 else 0 := offering_put hc c.forceClose
    have hroom : s.acceptCh.length + s.offering ≤ s.acceptQueueSize := hok
    refine ⟨⟨fun d hd => ?_, fun {i rest'} hw => ?_⟩, fun _ => ?_⟩
    · rcases List.mem_or_eq_of_mem_set hd with hd | rfl
      · exact h.sound.exited d hd
      · exact h.sound.exited c (List.mem_of_getElem? hc)
    · cases hw
      exact ⟨_, by rw [getElem?_put hc, if_pos rfl], rfl⟩
    · show s.acceptCh.length + _ ≤ s.acceptQueueSize + 0
      omega
  · cases hs

/-- The other steps of `Close` do not make it wait. -/
theorem Inv.closeStep (h : Inv s) {e : ServerEvent} (hok : s.Roomy e) (hs : s.closeStep e = some s') : Inv s' := by
  cases e
  case forceClose => exact h.forceClose hok hs
  case closeListener | collect | join =>
    simp only [Server.closeStep] at hs
    split_ifs at hs
    obtain rfl := Option.some.inj hs
    exact h.moves rfl fun _ _ hw => by cases hw
  case sawDone =>
    simp only [Server.closeStep] at hs
    split at hs
    · split_ifs at hs
      obtain rfl := Option.some.inj hs
      exact h.moves rfl fun _ _ hw => by cases hw
    · cases hs
  all_goals cases hs

theorem Inv.acceptStep (h : Inv s) {e : ServerEvent} (hs : s.acceptStep e = some s') : Inv s' := by
  cases e
  case acceptCall =>
    obtain rfl := Option.some.inj hs
    exact h.around rfl rfl rfl le_rfl
  case accept =>
    simp only [Server.acceptStep] at hs
    split at hs
    · cases hs
    · rename_i hq
      split_ifs at hs
      obtain rfl := Option.some.inj hs
      exact h.around rfl rfl rfl (by rw [hq]; exact Nat.le_succ _)
  case acceptDone =>
    simp only [Server.acceptStep] at hs
    split_ifs at hs
    obtain rfl := Option.some.inj hs
    exact h.around rfl rfl rfl le_rfl
  all_goals cases hs

theorem synConn_exited (hd : TCPHandler) {irs iss : UInt32} {options : List UInt8} {c : TCPConn}
    (h : hd.handleSYN irs iss options = some c) : c.ctl.Exited := by
  rw [TCPHandler.handleSYN] at h
  split_ifs at h
  obtain rfl := Option.some.inj h
  exact fun hstop => by cases hstop

/-- A new connection is not being offered. -/
theorem Inv.handleSYN (h : Inv s) {irs iss : UInt32} {options : List UInt8}
    (hs : s.handleSYN irs iss options = some s') : Inv s' := by
  rw [Server.handleSYN] at hs
  split_ifs at hs
  obtain ⟨c, hc, rfl⟩ := Option.map_eq_some_iff.1 hs
  refine ⟨⟨fun d hd => ?_, fun {i rest} hw => ?_⟩, fun hw => ?_⟩
  · rcases List.mem_append.1 hd with hd | hd
    · exact h.sound.exited d hd
    · rw [List.mem_singleton.1 hd]
      exact synConn_exited _ hc
  · obtain ⟨d, hd, hf⟩ := h.sound.forced hw
    exact ⟨d, by rw [List.getElem?_append_left (List.getElem?_eq_some_iff.1 hd).1, hd], hf⟩
  · have hroom := h.room hw
    show s.acceptCh.length + List.countP _ (s.conns ++ _) ≤ s.acceptQueueSize + 0
    rw [List.countP_append]
    exact hroom

theorem Inv.deliver (h : Inv s) {seg : Segment} (hs : s.deliver id seg = some s') : Inv s' := by
  rw [Server.deliver] at hs
  split_ifs at hs
  obtain ⟨c, c', hc, hf, rfl⟩ := onConn_eq_some hs
  obtain rfl := Option.some.inj hf
  split_ifs
  · exact h.put hc ⟨fun hx => hx, fun hf => hf⟩ rfl
  · exact h.put hc ⟨fun hx => hx, fun hf => hf⟩ rfl

theorem Inv.cleanup (h : Inv s) (hs : s.cleanup id = some s') : Inv s' := by
  rw [Server.cleanup] at hs
  split_ifs at hs
  obtain ⟨s₁, hs₁, rfl⟩ := Option.map_eq_some_iff.1 hs
  obtain ⟨c, c', hc, hf, rfl⟩ := onConn_eq_some hs₁
  split_ifs at hf
  obtain rfl := Option.some.inj hf
  have hput : Inv (s.put id { c with inbound := [] }) := h.put hc ⟨fun hx => hx, fun hf => hf⟩ rfl
  exact hput.around rfl rfl rfl le_rfl

theorem inv_step (h : Inv s) {e : ServerEvent} (hok : s.Roomy e) (hs : s.step e = some s') : Inv s' := by
  rw [step.eq_def] at hs
  split_ifs at hs
  split at hs
  · exact h.handleSYN hs
  · exact h.deliver hs
  · exact h.step_conn hok hs
  · exact h.send hs
  · exact h.sound.resume (fun hw => (h.room hw).trans (Nat.le_succ _)) hs
  · exact h.cleanup hs
  · exact h.acceptStep hs
  · exact h.acceptStep hs
  · exact h.acceptStep hs
  · exact h.closeStep hok hs
  · exact h.closeStep hok hs
  · exact h.closeStep hok hs
  · exact h.closeStep hok hs
  · exact h.closeStep hok hs

/-! ### Progress -/

/-- In its `select` a run loop takes the closed `forceCloseCh`. -/
theorem progresses_select {c : Connection} (hlive : s.panicked = false) (hc : s.conns[id]? = some c)
    (hp : c.phase = .select) (hrun : c.sys.conn.ctl.running = true) (hdone : c.done = false)
    (hf : c.sys.conn.app.forceCloseCh = true) : s.Progresses id := by
  have hfault : c.sys.conn.fault = none := by
    have hall := List.any_eq_false.1 hlive c (List.mem_of_getElem? hc)
    simpa using hall
  have hstep : c.step .forceCloseCh = some (c.put { c.sys with conn := c.sys.conn.onForceClose }) := by
    rw [Connection.step.eq_def, hp]
    simp [Sys.step, Sys.loopStep, Sys.onLoop, hfault, hrun, hf]
  have hclosed : (c.put { c.sys with conn := c.sys.conn.onForceClose }).done = true := by
    show c.sys.conn.onForceClose.ctl.done = true
    rw [TCPConn.onForceClose]
    split <;> (rw [TCPConn.exitRun_ctl]; exact Ctl.finish_done _)
  refine ⟨.conn id .forceCloseCh, s.put id (c.put { c.sys with conn := c.sys.conn.onForceClose }), c, _,
    ⟨rfl, rfl⟩, ?_, hc, by rw [getElem?_put hc, if_pos rfl], ?_⟩
  · rw [step, if_neg (by simp [hlive])]
    show (s.conns[id]?.bind fun c => c.step .forceCloseCh).map _ = _
    rw [hc, Option.bind_some, hstep, Option.map_some]
  · rw [Connection.away, if_pos hclosed, Connection.away, if_neg (by simp [hdone]), hp]
    exact Nat.one_pos

/-- With room in the queue the hand-over goes through. -/
theorem progresses_offering {c : Connection} (hlive : s.panicked = false) (hc : s.conns[id]? = some c)
    (hp : c.phase = .offering) (hdone : c.done = false) (hroom : s.acceptCh.length < s.acceptQueueSize) :
    s.Progresses id := by
  obtain ⟨s₁, hs₁⟩ : ∃ s₁, s.acceptSend id = some s₁ := by
    rw [acceptSend]
    split_ifs
    · exact ⟨_, rfl⟩
    · exact ⟨_, rfl⟩
  obtain ⟨hconns, -⟩ := acceptSend_eq_some hs₁
  obtain ⟨c', hc'⟩ : ∃ c', c.resume true = some c' := by
    rw [Connection.resume, if_pos ⟨hp, .inl rfl⟩]
    exact ⟨_, rfl⟩
  obtain ⟨-, -, hp'⟩ := Connection.resume_kept hc'
  have hc₁ : s₁.conns[id]? = some c := by rw [hconns, hc]
  refine ⟨.send id, s₁.put id c', c, c', rfl, ?_, hc, by rw [getElem?_put hc₁, if_pos rfl], ?_⟩
  · rw [step, if_neg (by simp [hlive])]
    show (s.acceptSend id).bind _ = _
    rw [hs₁, Option.bind_some]
    show (s₁.conns[id]?.bind fun c => c.resume true).map _ = _
    rw [hc₁, Option.bind_some, hc', Option.map_some]
  · rw [Connection.away, Connection.away, hp', if_neg (by simp [hdone] : ¬ c.done = true), hp]
    split_ifs <;> decide

/-- SAFE: `Close` is never left waiting, if `ForceClose` is called only while the accept queue has
    room for every connection being offered, and while it waits no handshake is completed without
    room for one more. -/
theorem close_answered (hr : Reach Init step Roomy s) (hlive : s.panicked = false) : s.Answered := by
  have hinv : Inv s := hr.invariant (fun _ => inv_init) fun _ _ _ h hok hs => inv_step h hok hs
  intro id rest hw
  obtain ⟨c, hc, hf⟩ := hinv.sound.forced hw
  by_cases hdone : c.done = true
  · exact .inl ⟨c, hc, hdone⟩
  refine .inr ?_
  have hopen : c.done = false := by simpa using hdone
  cases hp : c.phase with
  | select =>
    have hrun : c.sys.conn.ctl.running = true := by
      by_contra hstop
      exact hdone (hinv.sound.exited c (List.mem_of_getElem? hc) (by simpa using hstop))
    exact progresses_select hlive hc hp hrun hopen hf
  | offering =>
    have hone : 1 ≤ s.offering := List.one_le_countP_iff.2 ⟨c, List.mem_of_getElem? hc, by simp [Connection.offered, hp]⟩
    have hroom := hinv.room hw
    exact progresses_offering hlive hc hp hopen (by omega)

/-- A run loop offers its connection in vain while the queue is full and nobody accepts. -/
theorem no_step_of_full {c : Connection} (hc : s.conns[id]? = some c) (hp : c.phase = .offering)
    (hdone : c.done = false) (hfull : s.acceptQueueSize ≤ s.acceptCh.length) (hidle : s.accepting = 0)
    {e : ServerEvent} (he : ServerEvent.Runs id e) : s.step e = none := by
  have hon : ∀ f : Connection → Option Connection, f c = none → s.onConn id f = none := by
    intro f hf
    rw [onConn, hc, Option.bind_some, hf, Option.map_none]
  rw [step.eq_def]
  split_ifs
  · rfl
  cases e with
  | conn i e =>
    obtain ⟨rfl, -⟩ := he
    refine hon _ ?_
    rw [Connection.step.eq_def, hp]
  | send i =>
    obtain rfl : i = id := he
    have hblock : s.acceptSend i = none := by
      rw [acceptSend, if_neg (by omega), if_neg (by omega)]
    show (s.acceptSend i).bind _ = none
    rw [hblock, Option.bind_none]
  | sendDone i =>
    obtain rfl : i = id := he
    refine hon _ ?_
    rw [Connection.resume, if_neg (by simp [hdone])]
  | _ => exact he.elim

/-- A handler with room for `size` connections in its accept queue. -/
def sample (size : ℕ) : Server where
  handler := Sys.sampleHandler 8 4
  acceptQueueSize := size
  inboundQueueSize := 4
  acceptCh := []
  accepting := 0
  listenerDone := false
  closed := false
  conns := []
  registered := []
  closer := .idle

theorem init_sample (size : ℕ) : Init (sample size) :=
  ⟨⟨(Sys.sampleHandler 8 4).cfg, rfl⟩, rfl, rfl, rfl, rfl, rfl, rfl, rfl⟩

/-- Two handshakes; one connection is in the accept queue and the other is offered when `Close` comes
    to it. -/
def sampleRun : List ServerEvent :=
  let ack := Sys.sampleSegment tcpFlagACK 101 201 1000 [] Sys.length_nil_lt
  [.syn 100 200 [], .packet 0 ack, .conn 0 (.inbound ack), .send 0, .syn 100 200 [], .packet 1 ack,
    .conn 1 (.inbound ack), .closeListener, .collect [1, 0], .forceClose]

/-- A check of `Roomy`. -/
def roomy (s : Server) : ServerEvent → Bool
  | .forceClose => decide (s.acceptCh.length + s.offering ≤ s.acceptQueueSize)
  | .conn _ (.inbound _) =>
    match s.closer with
    | .waiting _ _ => false
    | _ => true
  | _ => true

theorem roomy_sound {e : ServerEvent} (h : s.roomy e = true) : s.Roomy e := by
  rw [roomy.eq_def] at h
  split at h
  · show s.acceptCh.length + s.offering ≤ s.acceptQueueSize
    simpa using h
  · intro i rest hw
    rw [hw] at h
    cases h
  · rename_i hforce hin
    cases e with
    | forceClose => exact absurd rfl hforce
    | conn i e =>
      cases e with
      | inbound seg => exact absurd rfl (hin i seg)
      | _ => trivial
    | _ => trivial

/-- A state found by running a list of events. -/
theorem exists_reach (size : ℕ) (ok : Server → ServerEvent → Bool) (P : Server → Prop) [DecidablePred P]
    (es : List ServerEvent)
    (h : (exec step (fun s e => ok s e = true) (sample size) es).any (fun s => P s) = true) :
    ∃ s, Reach Init step (fun s e => ok s e = true) s ∧ P s :=
  exists_reach_exec (init_sample size) es h

/-- `Close` waits for a connection that is being offered, and the queue has room. -/
theorem close_answered_offering : ∃ s, Reach Init step Roomy s ∧ s.panicked = false ∧
    s.closer = .waiting 1 [0] ∧ s.conns[1]?.any Connection.offered = true ∧ s.Answered := by
  obtain ⟨s, hr, hlive, hw, hoff⟩ := exists_reach 2 roomy
    (fun s => s.panicked = false ∧ s.closer = .waiting 1 [0] ∧ s.conns[1]?.any Connection.offered = true)
    sampleRun (by decide +kernel)
  have hr' := hr.mono fun _ _ h => roomy_sound h
  exact ⟨s, hr', hlive, hw, hoff, close_answered hr' hlive⟩

/-- With room for one connection only, no step of the run loop `Close` waits for is possible. -/
theorem close_waits_forever : ∃ s, Reach Init step (fun _ _ => True) s ∧ s.panicked = false ∧
    s.closer = .waiting 1 [0] ∧ (∀ e, ServerEvent.Runs 1 e → s.step e = none) ∧ ¬ s.Answered := by
  obtain ⟨s, hr, hlive, hw, hoff, hfull, hidle⟩ := exists_reach 1 (fun _ _ => true)
    (fun s => s.panicked = false ∧ s.closer = .waiting 1 [0] ∧
      s.conns[1]?.any (fun c => c.offered && !c.done) = true ∧ s.acceptQueueSize ≤ s.acceptCh.length ∧
      s.accepting = 0) sampleRun (by decide +kernel)
  obtain ⟨c, hc, hboth⟩ := (Option.any_eq_true _ _).1 hoff
  obtain ⟨hp, hdone⟩ : c.phase = .offering ∧ c.done = false := by simpa [Connection.offered] using hboth
  have hstuck : ∀ e, ServerEvent.Runs 1 e → s.step e = none := fun e he =>
    no_step_of_full hc hp hdone hfull hidle he
  refine ⟨s, hr.mono fun _ _ _ => trivial, hlive, hw, hstuck, fun hanswer => ?_⟩
  rcases hanswer 1 [0] hw with ⟨d, hd, hd'⟩ | ⟨e, s', _, _, he, hs, -⟩
  · obtain rfl := Option.some.inj (hc.symm.trans hd)
    exact absurd (hdone.symm.trans hd') (by simp)
  · rw [hstuck e he] at hs
    cases hs

end Server
end Netstack.Tcp
