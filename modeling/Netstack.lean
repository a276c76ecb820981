import Netstack.Lib.Serial
import Netstack.Lib.Copy
import Netstack.Lib.Trace
import Netstack.Lib.Simulation
import Netstack.Lib.Fifo
import Netstack.Tcp.RingBuffer
import Netstack.Tcp.RingQueue
import Netstack.Header.IPv4
import Netstack.Stack.Fragmentation
import Netstack.Header.Tcp
import Netstack.Tcp.State
import Netstack.Lib.Loop
import Netstack.Tcp.Segment
import Netstack.Tcp.Sender
import Netstack.Tcp.Receiver
import Netstack.Tcp.Conn
import Netstack.Tcp.System
import Netstack.Tcp.Frame
import Netstack.Tcp.Reassembly
import Netstack.Tcp.Steps
import Netstack.Tcp.ReceiveStream
import Netstack.Tcp.EofSafety
import Netstack.Tcp.Equivariance
import Netstack.Tcp.SendQueue
import Netstack.Tcp.Transmit
import Netstack.Tcp.SendSteps
import Netstack.Tcp.SendStream
import Netstack.Tcp.Control
import Netstack.Tcp.StateMachine
import Netstack.Tcp.LastAck
import Netstack.Tcp.Mss
import Netstack.Tcp.AckOnce
import Netstack.Tcp.RtoTimer
import Netstack.Tcp.DelayedAck
import Netstack.Tcp.Pacing
import Netstack.Tcp.IdleSender
import Netstack.Tcp.WriteWakeup
import Netstack.Tcp.SegmentIsolation
import Netstack.Tcp.OutOfWindow
import Netstack.Tcp.ReAck
import Netstack.Tcp.WindowScale
import Netstack.Tcp.FinLast
import Netstack.Tcp.WriteAfterClose
import Netstack.Tcp.Congestion
import Netstack.Tcp.CwndBounds
import Netstack.Tcp.WindowFlag
import Netstack.Tcp.WindowPromise
import Netstack.Tcp.SynWindow
import Netstack.Lib.Pieces
import Netstack.Tcp.SendPlan
import Netstack.Tcp.GsoRefines
import Netstack.Stack.Reassembly
import Netstack.Header.Transport
import Netstack.Stack.Split
import Netstack.Stack.Mtu
import Netstack.Header.Checksum
import Netstack.Tcp.Wire
import Netstack.Stack.Assembled
import Netstack.Stack.Accounting
import Netstack.Stack.HeaderChecksums
import Netstack.Tun.Checksum
import Netstack.Stack.RoundTrip
import Netstack.Udp.Handler
import Netstack.Udp.RoundTrip
import Netstack.Tcp.EmptySlice
import Netstack.Tcp.DeferredFin
import Netstack.Tcp.HeaderBytes
import Netstack.Tun.Split
import Netstack.Tcp.GsoSplit
import Netstack.Tcp.Shutdown
import Netstack.Stack.InputFilter
import Netstack.Header.OptionGrammar
import Netstack.Tcp.AckOptions
import Netstack.Lib.SerialRange
import Netstack.Tcp.SackMarking
import Netstack.Tcp.SendLimits
import Netstack.Tcp.ZeroWindowProbe
import Netstack.Tcp.SackReport
import Netstack.Tcp.SackOrder
import Netstack.Tcp.SackTruth
import Netstack.Tcp.SeqShift
import Netstack.Stack.Eviction
import Netstack.Tcp.RtoDeadline
import Netstack.Tcp.LossWindow
import Netstack.Tcp.OutOfOrder
import Netstack.Tcp.SegmentBuffers
import Netstack.Tcp.AutoTune
import Netstack.Tcp.SillyWindow
import Netstack.Tcp.Avoidance
import Netstack.Tcp.Transfer
import Netstack.Tcp.UnknownFlow
