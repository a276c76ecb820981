import Netstack.Tcp.Conn

/-! How a connection comes about: the handler's configuration and the SYN that creates a connection
    (`handler.go`, `calculateWindowScale` of `conn.go`). -/

namespace Netstack.Tcp
open Netstack.Header

/-- The clamping of the initial buffer sizes in `NewTCPHandler`. -/
def Config.clamp (cfg : Config) : Config :=
  { cfg with
    initialReadBufferSize := min cfg.initialReadBufferSize cfg.readBufferSize
    initialWriteBufferSize := min cfg.initialWriteBufferSize cfg.writeBufferSize }

/-- The loop of `calculateWindowScale`; a Go int has at most 63 bits. -/
def windowScaleLoop (bufSize : ℕ) : ℕ → ℕ → ℕ
  | 0, scale => scale
  | fuel + 1, scale =>
    if bufSize >>> (16 + scale) > 0 then windowScaleLoop bufSize fuel (scale + 1) else scale

/-- `calculateWindowScale`. -/
def calculateWindowScale (bufSize : ℤ) : ℕ :=
  if bufSize ≤ 0xFFFF then 0 else min (windowScaleLoop bufSize.toNat 64 0) maxWndScale

/-- A sender or receiver that is still nil, as `snd` and `rcv` are before the handshake ends. -/
def nilSender : Sender where
  nxt := 0
  una := 0
  wnd := 0
  mss := 0
  rto := 0
  srtt := 0
  rttvar := 0
  unacked := []
  retries := 0
  cwnd := 0
  ssthresh := 0
  dupACKCount := 0
  inRecovery := false
  recoveryPoint := 0
  dsackSeen := false
  maxWnd := 0

@[inherit_doc nilSender]
def nilReceiver : Receiver where
  nxt := 0
  ooo := []
  finReceived := false
  finSeq := 0
  dsackBlock := ⟨0, 0⟩
  hasDSACKBlock := false
  autoTune := { measureStart := none, bytesDelivered := 0, readBufSize := 0, maxBufSize := 0 }

namespace TCPHandler

/-- What `handleSYN` fixes for the connection, from the options of the SYN. Window scaling, SACK and
    timestamps are on only if the peer offered them. -/
def synEnv (h : TCPHandler) (irs iss : UInt32) (options : List UInt8) : Env :=
  let synOpts := parseSynOptions options
  { handler := h
    iss := iss
    irs := irs
    sndWndScale := if synOpts.ws ≥ 0 then synOpts.ws.toNat else 0
    rcvWndScale :=
      if synOpts.ws ≥ 0 then calculateWindowScale (max h.cfg.readBufferSize h.cfg.maxReadBufferSize)
      else 0
    sackPermitted := synOpts.sackPermit
    peerMSS := synOpts.mss
    tsEnabled := synOpts.tsEnabled }

/-- The state machine of a new connection. -/
def synCtl : Ctl where
  state := .synRcvd
  synced := false
  handedOver := false
  running := true
  done := false
  finPending := false
  assigns := []

/-- No timer runs. -/
def synTimers : Timers where
  unackedSegs := 0
  delayedACKTimer := Timer.stopped
  keepaliveTimer := Timer.stopped
  keepaliveProbes := 0
  timeWaitTimer := Timer.stopped
  finWait2Timer := Timer.stopped
  synRcvdTimer := Timer.stopped

/-- Nothing asked for yet. -/
def synApp : App where
  noDelay := false
  writeShutdown := false
  readShutdown := false
  closeOnce := false
  closeCh := false
  forceCloseCh := false
  writeNotify := false
  windowNotify := false

/-- The connection of `handleSYN` with its two buffers, the SYN+ACK sent and the timer of `run`
    started. -/
def synConn (h : TCPHandler) (irs iss : UInt32) (options : List UInt8)
    (readBuf writeBuf : RingBuffer) : TCPConn :=
  let synOpts := parseSynOptions options
  let c : TCPConn :=
    { env := h.synEnv irs iss options
      app := synApp
      ctl := synCtl
      timers := synTimers
      rx := { rcv := nilReceiver, readBuf := readBuf, delivered := [], finAt := [] }
      tx :=
        { snd := nilSender
          writeBuf := writeBuf
          zeroWindowProbing := false
          probeInterval := 0
          zeroWindowTimer := Timer.stopped
          rtoTimer := Timer.stopped
          accepted := [] }
      wire :=
        { out := []
          tsRecent := if synOpts.tsEnabled then synOpts.tsVal else 0
          tsLastAckSent := 0
          lastWndZero := false }
      ticks := 0
      fault := none }
  let c := { c with timers.synRcvdTimer := c.after h.cfg.synRcvdTimeout, ticks := c.ticks + 1 }
  c.sendSYNACK

/-- `handleSYN`; `none` is the panic of a ring buffer without space. -/
def handleSYN (h : TCPHandler) (irs iss : UInt32) (options : List UInt8) : Option TCPConn :=
  if hr : 0 < h.cfg.initialReadBufferSize.toNat then
    if hw : 0 < h.cfg.initialWriteBufferSize.toNat then
      some (h.synConn irs iss options (RingBuffer.new _ hr) (RingBuffer.new _ hw))
    else none
  else none

end TCPHandler
end Netstack.Tcp
