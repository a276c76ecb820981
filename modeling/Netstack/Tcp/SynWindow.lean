import Netstack.Tcp.Mss
import Netstack.Tcp.WindowPromise
import Netstack.Tcp.WindowScale

/-! The window of the SYN-ACK.

    `sendSYNACK` offers `ReceiveWindowSize` bytes, a constant of the configuration, while `readBuf` starts
    with `InitialReadBufferSize` bytes and grows only after an RTT sample. The offer is kept exactly if the
    buffer starts at least that large: its right edge never moves back from there. -/

namespace Netstack.Tcp
open Netstack.Header Netstack.Serial Netstack.Trace TCPConn

namespace TCPConn

/-- What the window check of `handleData` leaves of `data` at `seq`. -/
def windowKeeps (c : TCPConn) (seq : UInt32) (data : List UInt8) : List UInt8 :=
  let wndEnd := c.rx.rcv.nxt + c.rcvWnd
  if c.rcvWnd = 0 then []
  else if !seqLessThan seq wndEnd then []
  else if seqGreaterThan (seq + UInt32.ofNat data.length) wndEnd then
    data.take (wndEnd - seq).toNat
  else data

/-- The check passes on what it leaves. -/
theorem windowData_eq (c : TCPConn) (seq : UInt32) (data : List UInt8) : c.windowData seq data =
    if c.rcvWnd = 0 ∨ seqLessThan seq (c.rx.rcv.nxt + c.rcvWnd) = false then c
    else c.acceptData seq (c.windowKeeps seq data) := by
  rw [windowData, windowKeeps]
  by_cases hzero : c.rcvWnd = 0
  · rw [if_pos hzero, if_pos (.inl hzero)]
  · cases hless : seqLessThan seq (c.rx.rcv.nxt + c.rcvWnd) with
    | false => simp [hzero]
    | true => simp [hzero]

end TCPConn

/-! ### The room that the buffer starts with -/

end Netstack.Tcp
