import Netstack.Header.Tcp
import Netstack.Lib.Serial
import Netstack.Tcp.RingBuffer

/-! The state of a TCP connection (`conn.go`, `snd.go`, `rcv.go`, `segment.go`, `state.go`).

    A `TCPConn` is grouped by who works on it: `tx` is the send side, `rx` the receive side, `ctl`
    the state machine, `timers` its timers, `app` what the application has asked for, `wire` what has
    been put on the network. Everything fixed when the connection is created is in `env`. A Go duration
    or time is an integer number of nanoseconds; the clock is a sequence of readings, one taken by
    each call that looks at it.

    Some fields only record history, for stating what a run has done: the packets sent, the state
    assignments, the bytes written to `readBuf`, the bytes accepted by `Write` and the positions at
    which a FIN was consumed. -/

namespace Netstack.Tcp
open Netstack.Header Netstack.Serial

/-- `seqGreaterThan`. -/
def seqGreaterThan (a b : UInt32) : Bool := decide ((a - b).toInt32 > 0)

/-- `seqLessThan`. -/
def seqLessThan (a b : UInt32) : Bool := decide ((a - b).toInt32 < 0)

/-- `seqWithinWindow`. -/
def seqWithinWindow (seq start wnd : UInt32) : Bool :=
  !seqLessThan seq start && seqLessThan seq (start + wnd)

/-- Offsets at most `2 ^ 31` apart (strictly, if the first is ahead) compare as their numbers do. -/
theorem seqLessThan_seqAt (base : UInt32) {x y : ℕ} (hxy : x < y + 2 ^ 31) (hyx : y ≤ x + 2 ^ 31) :
    seqLessThan (seqAt base x) (seqAt base y) = decide (x < y) := by
  rw [seqLessThan, decide_eq_decide, toInt32_neg_iff]
  rcases Nat.lt_or_ge x y with h | h
  · rw [toNat_sub_of_lt base h (by omega)]; omega
  · rw [toNat_sub_of_le base h (by omega)]; omega

@[inherit_doc seqLessThan_seqAt]
theorem seqGreaterThan_seqAt (base : UInt32) {x y : ℕ} (hxy : x < y + 2 ^ 31)
    (hyx : y ≤ x + 2 ^ 31) : seqGreaterThan (seqAt base x) (seqAt base y) = decide (y < x) := by
  rw [seqGreaterThan, decide_eq_decide, gt_iff_lt, toInt32_pos_iff]
  rcases Nat.lt_or_ge x y with h | h
  · rw [toNat_sub_of_lt base h (by omega)]; omega
  · rw [toNat_sub_of_le base h (by omega)]; omega

/-- A positive comparison of offsets less than `2 ^ 32` apart, the second never more than `2 ^ 31`
    ahead, is right. -/
theorem lt_of_seqGreaterThan (base : UInt32) {x y : ℕ} (hxy : x < y + 2 ^ 32) (hyx : y ≤ x + 2 ^ 31)
    (h : seqGreaterThan (seqAt base x) (seqAt base y) = true) : y < x ∧ x < y + 2 ^ 31 := by
  rw [seqGreaterThan, decide_eq_true_iff, gt_iff_lt, toInt32_pos_iff] at h
  rcases Nat.lt_or_ge x y with hlt | hle
  · rw [toNat_sub_of_lt base hlt (by omega)] at h; omega
  · rw [toNat_sub_of_le base hle (by omega)] at h; omega

/-- `tcpState`. -/
inductive TCPState where
  | closed | synRcvd | established | finWait1 | finWait2 | closeWait | lastAck | timeWait | closing
  deriving DecidableEq, Repr

/-- The states into which only the handshake and our own FIN lead. -/
def TCPState.early : TCPState → Bool
  | .synRcvd | .established | .finWait1 | .lastAck => true
  | _ => false

/-- A timer: stopped, or armed to fire at a deadline. Since Go 1.23 neither `Reset` nor `Stop`
    leaves a stale tick behind. -/
structure Timer where
  deadline : Option ℤ
  deriving DecidableEq, Repr

def Timer.stopped : Timer := ⟨none⟩

/-- Armed and not yet fired. -/
def Timer.armed (t : Timer) : Bool := t.deadline.isSome

/-- `segment`: an inbound segment as `parseSeg` leaves it. An IPv4 packet bounds the payload. -/
structure Segment where
  flags : TCPFlags
  seq : UInt32
  ack : UInt32
  wnd : UInt16
  options : List UInt8
  payload : List UInt8
  payload_lt : payload.length < 2 ^ 16
  deriving DecidableEq

/-- An outbound segment: the header fields, the option bytes, the payload and, for a GSO packet,
    the segment size handed to the device. -/
structure OutSegment where
  flags : TCPFlags
  seq : UInt32
  ack : UInt32
  wnd : UInt16
  options : List UInt8
  payload : List UInt8
  gsoSize : Option UInt16
  deriving DecidableEq

/-- `Config`: the tunable parameters a connection takes a snapshot of. -/
structure Config where
  readBufferSize : ℤ
  writeBufferSize : ℤ
  initialReadBufferSize : ℤ
  initialWriteBufferSize : ℤ
  keepaliveIdle : ℤ
  keepaliveInterval : ℤ
  keepaliveCount : ℤ
  synRcvdTimeout : ℤ
  finWait2Timeout : ℤ
  timeWaitDuration : ℤ
  delayedACKTimeout : ℤ
  maxZeroWindowProbeInterval : ℤ
  minRTO : ℤ
  maxRTO : ℤ
  initialRTO : ℤ
  maxRetries : ℤ
  initialSSThresh : UInt32
  receiveWindowSize : UInt16
  maxReadBufferSize : ℤ
  deriving DecidableEq

def second : ℤ := 1000000000
def millisecond : ℤ := 1000000

/-- `defaultConfig`. -/
def defaultConfig : Config where
  readBufferSize := 256 * 1024
  writeBufferSize := 256 * 1024
  initialReadBufferSize := 32 * 1024
  initialWriteBufferSize := 32 * 1024
  keepaliveIdle := 7200 * second
  keepaliveInterval := 75 * second
  keepaliveCount := 9
  synRcvdTimeout := 75 * second
  finWait2Timeout := 60 * second
  timeWaitDuration := 120 * second
  delayedACKTimeout := 200 * millisecond
  maxZeroWindowProbeInterval := 60 * second
  minRTO := 200 * millisecond
  maxRTO := 60 * second
  initialRTO := second
  maxRetries := 15
  initialSSThresh := 65535
  receiveWindowSize := 65535
  maxReadBufferSize := 4 * 1024 * 1024

/-- `TCPHandler`, as far as a connection reads it. `gsoMaxSize` is `none` when there is no GSO writer;
    `clock n` is the reading of the n-th look at the clock. `stack.New` panics for an MTU above 1500,
    and a channel's `GSOMaxSize` is 0 only when it does not support GSO. -/
structure TCPHandler where
  cfg : Config
  mtu : ℤ
  gsoMaxSize : Option ℤ
  tsOffset : UInt32
  tsEpoch : ℤ
  clock : ℕ → ℤ
  mtu_le : mtu ≤ 1500
  gso_pos : ∀ k, gsoMaxSize = some k → 0 < k

theorem TCPHandler.mtu_le_max : (1500 : ℤ) ≤ 1500 := le_refl _

theorem TCPHandler.gso_pos_none (k : ℤ) (h : none = some k) : 0 < k := by
  cases h

/-- What is fixed for the life of a connection. The configuration snapshot it takes is the handler's
    own configuration, which does not change either. -/
structure Env where
  handler : TCPHandler
  iss : UInt32
  irs : UInt32
  sndWndScale : ℕ
  rcvWndScale : ℕ
  sackPermitted : Bool
  peerMSS : UInt16
  tsEnabled : Bool

def Env.cfg (env : Env) : Config := env.handler.cfg

/-- `unackedSegment`; `data` is empty for a FIN. -/
structure UnackedSegment where
  seq : UInt32
  data : List UInt8
  fin : Bool
  sentAt : ℤ
  retransmitted : Bool
  sacked : Bool
  deriving DecidableEq

/-- `sender`. -/
structure Sender where
  nxt : UInt32
  una : UInt32
  wnd : UInt32
  mss : ℤ
  rto : ℤ
  srtt : ℤ
  rttvar : ℤ
  unacked : List UnackedSegment
  retries : ℤ
  cwnd : UInt32
  ssthresh : UInt32
  dupACKCount : ℤ
  inRecovery : Bool
  recoveryPoint : UInt32
  dsackSeen : Bool
  maxWnd : UInt32
  deriving DecidableEq

/-- `oooSegment`. -/
structure OOOSegment where
  seq : UInt32
  data : List UInt8
  deriving DecidableEq

/-- The `autoTune` struct of a receiver; `measureStart` is `none` while it is the zero time. -/
structure AutoTune where
  measureStart : Option ℤ
  bytesDelivered : ℕ
  readBufSize : ℤ
  maxBufSize : ℤ
  deriving DecidableEq

/-- `receiver`. -/
structure Receiver where
  nxt : UInt32
  ooo : List OOOSegment
  finReceived : Bool
  finSeq : UInt32
  dsackBlock : SACKBlock
  hasDSACKBlock : Bool
  autoTune : AutoTune
  deriving DecidableEq

/-- The send side. `accepted` records the bytes `Write` has taken. -/
structure Tx where
  snd : Sender
  writeBuf : RingBuffer
  zeroWindowProbing : Bool
  probeInterval : ℤ
  zeroWindowTimer : Timer
  rtoTimer : Timer
  accepted : List UInt8
  deriving DecidableEq

/-- The receive side. `delivered` records the bytes written to `readBuf`, `finAt` the values of
    `rcv.nxt` at which a FIN was counted. -/
structure Rx where
  rcv : Receiver
  readBuf : RingBuffer
  delivered : List UInt8
  finAt : List UInt32
  deriving DecidableEq

/-- The state machine. `synced` says that `snd` and `rcv` are not nil (`handleSynRcvd` sets both),
    `handedOver` that the application has the connection; `running` is cleared when `run` returns.
    `assigns` records the assignments to `state`. -/
structure Ctl where
  state : TCPState
  synced : Bool
  handedOver : Bool
  running : Bool
  done : Bool
  finPending : Bool
  assigns : List (TCPState × TCPState)
  deriving DecidableEq

/-- The timers of the select loop other than those of the send side, and what is counted with
    them. -/
structure Timers where
  unackedSegs : ℕ
  delayedACKTimer : Timer
  keepaliveTimer : Timer
  keepaliveProbes : ℤ
  timeWaitTimer : Timer
  finWait2Timer : Timer
  synRcvdTimer : Timer
  deriving DecidableEq

/-- What the application's calls leave for the run loop: its settings, and the channels that carry a
    token. `closeOnce` is set once `CloseWrite` has run. -/
structure App where
  noDelay : Bool
  writeShutdown : Bool
  readShutdown : Bool
  closeOnce : Bool
  closeCh : Bool
  forceCloseCh : Bool
  writeNotify : Bool
  windowNotify : Bool
  deriving DecidableEq

/-- What has been sent, and what the senders keep about it. -/
structure Wire where
  out : List OutSegment
  tsRecent : UInt32
  tsLastAckSent : UInt32
  lastWndZero : Bool
  deriving DecidableEq

/-- A run-time panic (or a loop that does not end) in the connection's goroutine. -/
inductive Fault where
  | sliceBounds | nilDereference | divideByZero | endlessLoop
  deriving DecidableEq, Repr

/-- `TCPConn`. Once `fault` is set the program has stopped: the rest of the event is not executed
    by it and no further event happens. -/
structure TCPConn where
  env : Env
  app : App
  ctl : Ctl
  timers : Timers
  rx : Rx
  tx : Tx
  wire : Wire
  ticks : ℕ
  fault : Option Fault

namespace TCPConn

/-- The next reading of the clock. -/
def now (c : TCPConn) : ℤ := c.env.handler.clock c.ticks

/-- The clock has been read. -/
def tick (c : TCPConn) : TCPConn := { c with ticks := c.ticks + 1 }

/-- A timer reset to fire after `d`. -/
def after (c : TCPConn) (d : ℤ) : Timer := ⟨some (c.now + d)⟩

/-- The program panics here; the first panic is the one that stops it. -/
def raise (c : TCPConn) (f : Fault) : TCPConn := { c with fault := c.fault <|> some f }

/-- An assignment to `c.state`. -/
def setState (c : TCPConn) (s : TCPState) : TCPConn :=
  { c with ctl.state := s, ctl.assigns := c.ctl.assigns ++ [(c.ctl.state, s)] }

/-- `hasUnacked`. -/
def hasUnacked (c : TCPConn) : Bool := !c.tx.snd.unacked.isEmpty

/-- `closeDone`, guarded by `doneOnce`. -/
def closeDone (c : TCPConn) : TCPConn :=
  if c.ctl.done then c else
    let c := c.setState .closed
    { c with ctl.done := true }

end TCPConn
end Netstack.Tcp
