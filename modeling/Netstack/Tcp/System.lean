import Netstack.Lib.Trace
import Netstack.Tcp.Handler

/-! A connection together with the goroutines that use it: the select loop of `run`, and the
    application's calls of `Write`, `Read`, `CloseWrite`, `CloseRead`, `ForceClose` and
    `SetNoDelay` (`conn.go`, `ringbuf.go`, `handler.go`).

    A step of the system is one completed iteration of the select loop, or one step of an
    application call between two points at which it holds or waits for a lock. A `Write` call is a
    small program: it copies chunk by chunk, waits on `notFull` while the buffer is full, and
    notifies the run loop before it returns. -/

namespace Netstack.Tcp
open Netstack.Header Netstack.Trace

namespace TCPConn

/-! ### The cases of the select loop -/

/-- `rtoTimer.Reset(snd.rto)` if there are unacknowledged segments. -/
def armRTO (c : TCPConn) : TCPConn :=
  if c.hasUnacked then
    { c with tx.rtoTimer := c.after c.tx.snd.rto, ticks := c.ticks + 1 }
  else c

/-- The management of the RTO timer after an inbound segment: reset, or stopped. -/
def manageRTO (c : TCPConn) : TCPConn :=
  if !c.ctl.synced then c
  else if c.hasUnacked then c.armRTO
  else { c with tx.rtoTimer := Timer.stopped }

/-- `if c.writeBuf.Len() == 0 { c.finalizeFIN() }`. -/
def finIfDrained (c : TCPConn) : TCPConn := if c.tx.writeBuf.len = 0 then c.finalizeFIN else c

/-- The deferred FIN after an inbound segment. -/
def drainForFIN (c : TCPConn) : TCPConn :=
  if c.ctl.finPending ∧ c.ctl.synced then c.sendPending.finIfDrained else c

/-- `case pb := <-c.inbound`. -/
def onInbound (c : TCPConn) (seg : Segment) : TCPConn := (c.handleSegment seg).manageRTO.drainForFIN

/-- The RTO timer has fired, or is stopped. -/
def stopRTO (c : TCPConn) : TCPConn := { c with tx.rtoTimer := Timer.stopped }

/-- The end of the RTO case: the timer is set again unless the connection is closed. -/
def rearmRTO (c : TCPConn) : TCPConn := if c.ctl.state ≠ .closed then c.armRTO else c

/-- `case <-rtoTimer.C`. -/
def onRTO (c : TCPConn) : TCPConn :=
  if c.ctl.synced then c.stopRTO.handleRTO.rearmRTO else c.stopRTO

/-- `case <-c.delayedACKTimer.C`. -/
def onDelayedACK (c : TCPConn) : TCPConn := c.cancelDelayedACK.sendACK.clearSegs

/-- The zero-window timer has fired. -/
def stopZeroWindow (c : TCPConn) : TCPConn := { c with tx.zeroWindowTimer := Timer.stopped }

/-- The next probe after twice the interval. -/
def nextProbe (c : TCPConn) : TCPConn :=
  let probeInterval := min (c.tx.probeInterval * 2) c.env.cfg.maxZeroWindowProbeInterval
  { c with
    tx.probeInterval := probeInterval
    tx.zeroWindowTimer := c.after probeInterval
    ticks := c.ticks + 1 }

/-- `case <-c.zeroWindowTimer.C`. The retransmission timer is not touched here. -/
def onZeroWindow (c : TCPConn) : TCPConn :=
  if c.ctl.synced ∧ c.tx.zeroWindowProbing then c.stopZeroWindow.sendZeroWindowProbe.nextProbe
  else c.stopZeroWindow

/-- A return from `run`: the deferred calls stop the timers and close `done`. -/
def exitRun (c : TCPConn) : TCPConn :=
  let c := c.closeDone
  { c with
    ctl.running := false
    timers := { c.timers with
      delayedACKTimer := Timer.stopped
      keepaliveTimer := Timer.stopped
      timeWaitTimer := Timer.stopped
      finWait2Timer := Timer.stopped
      synRcvdTimer := Timer.stopped }
    tx := { c.tx with rtoTimer := Timer.stopped, zeroWindowTimer := Timer.stopped } }

/-- The keepalive timer set to fire after `d`. -/
def setKeepalive (c : TCPConn) (d : ℤ) : TCPConn :=
  { c with timers.keepaliveTimer := c.after d, ticks := c.ticks + 1 }

/-- The keepalive timer has fired, and `probes` probes have gone unanswered. -/
def keepaliveFired (c : TCPConn) (probes : ℤ) : TCPConn :=
  { c with timers := { c.timers with keepaliveTimer := Timer.stopped, keepaliveProbes := probes } }

/-- `case <-c.keepaliveTimer.C`. -/
def onKeepalive (c : TCPConn) : TCPConn :=
  let probes := c.timers.keepaliveProbes
  if c.ctl.state = .established ∧ c.ctl.synced then
    if c.hasUnacked then (c.keepaliveFired probes).setKeepalive c.env.cfg.keepaliveIdle
    else if probes + 1 > c.env.cfg.keepaliveCount then
      ((c.keepaliveFired (probes + 1)).sendRSTSegment c.tx.snd.nxt).exitRun
    else
      (c.keepaliveFired (probes + 1)).sendKeepaliveProbe.setKeepalive c.env.cfg.keepaliveInterval
  else c.keepaliveFired probes

/-- The piggybacking step of the write notification: a delayed ACK is cancelled. -/
def piggyback (c : TCPConn) : TCPConn :=
  if c.timers.unackedSegs > 0 then c.cancelDelayedACK.clearSegs else c

/-- `case <-c.writeNotify` up to the deferred FIN. -/
def onWriteNotifySend (c : TCPConn) : TCPConn :=
  { c with app.writeNotify := false }.sendPending.resetKeepalive.checkZeroWindow.piggyback.armRTO

/-- `case <-c.writeNotify`. -/
def onWriteNotify (c : TCPConn) : TCPConn :=
  if c.ctl.synced then
    if c.ctl.finPending then c.onWriteNotifySend.finIfDrained else c.onWriteNotifySend
  else { c with app.writeNotify := false }

/-- `case <-c.windowNotify`: a window update only if the last window sent was zero. -/
def onWindowNotify (c : TCPConn) : TCPConn :=
  let taken := { c with app.windowNotify := false }
  if c.wire.lastWndZero ∧ c.ctl.synced ∧ c.wnd > 0 then
    { taken with wire.lastWndZero := false }.sendACK.clearSegs
  else taken

/-- `case <-c.closeCh`. -/
def onClose (c : TCPConn) : TCPConn :=
  let closed := { c with app.closeCh := false }.handleClose
  if c.ctl.synced then closed.armRTO else closed

/-- `forceCloseFromRun` before `closeDone`. -/
def forceCloseBufs (c : TCPConn) : TCPConn :=
  { c with tx.writeBuf := c.tx.writeBuf.closeWrite, rx.readBuf := c.rx.readBuf.closeWrite }

/-- `case <-c.forceCloseCh`, with `forceCloseFromRun`. -/
def onForceClose (c : TCPConn) : TCPConn :=
  if c.ctl.state = .established ∧ c.ctl.synced then
    (c.sendRSTSegment c.tx.snd.nxt).forceCloseBufs.exitRun
  else c.forceCloseBufs.exitRun

/-- `case <-c.synRcvdTimer.C`. -/
def onSynRcvdTimer (c : TCPConn) : TCPConn :=
  let fired := { c with timers.synRcvdTimer := Timer.stopped }
  if c.ctl.state = .synRcvd then fired.exitRun else fired

/-- `case <-c.finWait2Timer.C`. -/
def onFinWait2Timer (c : TCPConn) : TCPConn :=
  let fired := { c with timers.finWait2Timer := Timer.stopped }
  if c.ctl.state = .finWait2 then fired.exitRun else fired

/-! ### The application's calls -/

/-- `CloseWrite`; `Close` is the same call. -/
def closeWrite (c : TCPConn) : TCPConn :=
  if c.app.closeOnce then c
  else
    { c with
      app := { c.app with closeOnce := true, writeShutdown := true, closeCh := true }
      tx.writeBuf := c.tx.writeBuf.closeWrite }

/-- `CloseRead`; `readShutdown` is set exactly when `closeReadOnce` has run. -/
def closeRead (c : TCPConn) : TCPConn :=
  if c.app.readShutdown then c
  else { c with app.readShutdown := true, rx.readBuf := c.rx.readBuf.closeWrite }

/-- The lazy growth at the start of `Write`. -/
def growWriteBuf (c : TCPConn) : TCPConn :=
  if c.env.cfg.writeBufferSize > 0 ∧ (c.tx.writeBuf.cap : ℤ) < c.env.cfg.writeBufferSize then
    { c with tx.writeBuf := c.tx.writeBuf.grow c.env.cfg.writeBufferSize.toNat }
  else c

/-- One chunk copied by `ringBuffer.Write`, in a buffer that is open and not full. -/
def copyChunk (c : TCPConn) (b : List UInt8) : TCPConn :=
  { c with
    tx.writeBuf := (c.tx.writeBuf.writeNoBlock b).1
    tx.accepted := c.tx.accepted ++ b.take (c.tx.writeBuf.writeNoBlock b).2 }

end TCPConn

/-- Where a `Write` call stands: not called, about to look at the buffer with `rest` still to copy,
    waiting on the `notFull` channel it saw, or copied and about to notify the run loop. -/
inductive Writer where
  | idle
  | copying (rest : List UInt8) (written : ℕ)
  | waiting (epoch : ℕ) (rest : List UInt8) (written : ℕ)
  | returning (written : ℕ)
  deriving DecidableEq

/-- A connection and the application goroutines in the middle of a call: the `Write` calls by
    goroutine, and how many `Read` calls have taken bytes and not yet notified the run loop. -/
structure Sys where
  conn : TCPConn
  writers : ℕ → Writer
  readers : ℕ

/-- An event: a case of the select loop, or a step of an application call. -/
inductive Event where
  | inbound (seg : Segment)
  | rtoTimer
  | delayedACKTimer
  | zeroWindowTimer
  | keepaliveTimer
  | writeNotify
  | windowNotify
  | closeCh
  | forceCloseCh
  | synRcvdTimer
  | finWait2Timer
  | timeWaitTimer
  | done
  | writeCall (g : ℕ) (b : List UInt8)
  | writeCopy (g : ℕ)
  | writeWake (g : ℕ)
  | writeAbort (g : ℕ)
  | writeReturn (g : ℕ)
  | readCall (n : ℕ)
  | readReturn
  | closeWrite
  | closeRead
  | forceClose
  | setNoDelay (b : Bool)
  deriving DecidableEq

namespace Sys

/-- A select case is enabled while the loop runs. -/
def onLoop (s : Sys) (enabled : Bool) (c : TCPConn) : Option Sys :=
  if s.conn.ctl.running ∧ enabled then some { s with conn := c } else none

/-- The run loop's events. -/
def loopStep (s : Sys) : Event → Option Sys
  | .inbound seg => s.onLoop true (s.conn.onInbound seg)
  | .rtoTimer => s.onLoop s.conn.tx.rtoTimer.armed s.conn.onRTO
  | .delayedACKTimer => s.onLoop s.conn.timers.delayedACKTimer.armed s.conn.onDelayedACK
  | .zeroWindowTimer => s.onLoop s.conn.tx.zeroWindowTimer.armed s.conn.onZeroWindow
  | .keepaliveTimer => s.onLoop s.conn.timers.keepaliveTimer.armed s.conn.onKeepalive
  | .writeNotify => s.onLoop s.conn.app.writeNotify s.conn.onWriteNotify
  | .windowNotify => s.onLoop s.conn.app.windowNotify s.conn.onWindowNotify
  | .closeCh => s.onLoop s.conn.app.closeCh s.conn.onClose
  | .forceCloseCh => s.onLoop s.conn.app.forceCloseCh s.conn.onForceClose
  | .synRcvdTimer => s.onLoop s.conn.timers.synRcvdTimer.armed s.conn.onSynRcvdTimer
  | .finWait2Timer => s.onLoop s.conn.timers.finWait2Timer.armed s.conn.onFinWait2Timer
  | .timeWaitTimer => s.onLoop s.conn.timers.timeWaitTimer.armed s.conn.exitRun
  | .done => s.onLoop s.conn.ctl.done s.conn.exitRun
  | _ => none

/-- The `Write` call of goroutine `g` goes on to `w`. -/
def setWriter (s : Sys) (g : ℕ) (w : Writer) : Sys :=
  { s with writers := Function.update s.writers g w }

/-- One turn of the loop of `ringBuffer.Write`. -/
def copyStep (s : Sys) (g : ℕ) (rest : List UInt8) (written : ℕ) : Sys :=
  let writeBuf := s.conn.tx.writeBuf
  if rest = [] ∨ writeBuf.closed then s.setWriter g (.returning written)
  else if writeBuf.free = 0 then s.setWriter g (.waiting writeBuf.notFull rest written)
  else
    let n := (writeBuf.writeNoBlock rest).2
    { s with conn := s.conn.copyChunk rest }.setWriter g (.copying (rest.drop n) (written + n))

/-- The steps of the `Write` call of goroutine `g`. -/
def writeStep (s : Sys) : Event → Option Sys
  | .writeCall g b =>
    if s.writers g = .idle then
      if s.conn.app.writeShutdown then some s
      else some ({ s with conn := s.conn.growWriteBuf }.setWriter g (.copying b 0))
    else none
  | .writeCopy g =>
    match s.writers g with
    | .copying rest written => some (s.copyStep g rest written)
    | _ => none
  | .writeWake g =>
    match s.writers g with
    | .waiting epoch rest written =>
      if epoch ≠ s.conn.tx.writeBuf.notFull then some (s.setWriter g (.copying rest written))
      else none
    | _ => none
  | .writeAbort g =>
    match s.writers g with
    | .waiting _ _ written =>
      if s.conn.ctl.done then some (s.setWriter g (.returning written)) else none
    | _ => none
  | .writeReturn g =>
    match s.writers g with
    | .returning written =>
      some ({ s with
        conn.app.writeNotify := s.conn.app.writeNotify || decide (written > 0) }.setWriter g .idle)
    | _ => none
  | _ => none

/-- The other application calls. A `Read` that would block, or returns an error, changes nothing. -/
def appStep (s : Sys) : Event → Option Sys
  | .readCall n =>
    if s.conn.rx.readBuf.len > 0 then
      some { s with
        conn.rx.readBuf := (s.conn.rx.readBuf.readNoBlock n).1
        readers := if n > 0 then s.readers + 1 else s.readers }
    else none
  | .readReturn =>
    if s.readers > 0 then some { s with conn.app.windowNotify := true, readers := s.readers - 1 }
    else none
  | .closeWrite => some { s with conn := s.conn.closeWrite }
  | .closeRead => some { s with conn := s.conn.closeRead }
  | .setNoDelay b => some { s with conn.app.noDelay := b }
  | _ => none

/-- One step of the system. The application has the connection only once it has been handed over;
    `ForceClose` is also called by the handler. Nothing happens after a panic. -/
def step (s : Sys) (e : Event) : Option Sys :=
  if s.conn.fault.isSome then none
  else
    match e with
    | .forceClose => some { s with conn.app.forceCloseCh := true }
    | .writeCall _ _ | .writeCopy _ | .writeWake _ | .writeAbort _ | .writeReturn _ =>
      if s.conn.ctl.handedOver then s.writeStep e else none
    | .readCall _ | .readReturn | .closeWrite | .closeRead | .setNoDelay _ =>
      if s.conn.ctl.handedOver then s.appStep e else none
    | _ => s.loopStep e

/-- A connection just created by a SYN, on a handler that `NewTCPHandler` has set up. -/
def Init (s : Sys) : Prop :=
  (∃ (h : TCPHandler) (cfg : Config) (irs iss : UInt32) (options : List UInt8),
    h.cfg = cfg.clamp ∧ h.handleSYN irs iss options = some s.conn)
  ∧ s.writers = (fun _ => .idle) ∧ s.readers = 0

end Sys
end Netstack.Tcp
