import Netstack.Tcp.AckOptions
import Netstack.Tcp.HeaderBytes

/-! Packets of flows that the handler does not know (`HandlePacket` and `sendRST`).

    They are answered with a RST, unless they open a connection or are a RST themselves. Two handlers
    that know nothing of a flow therefore exchange one RST at most, and a connection whose other end
    has gone is closed by the answer to the next segment it sends. -/

namespace Netstack.Tcp
open Netstack.Copy Netstack.Header TCPConn

/-- What becomes of a packet of an unknown flow. -/
inductive Unknown where
  | release
  | handleSYN
  | reply (rst : List UInt8)
  deriving DecidableEq

namespace TCPHandler

/-- `sendRST`: the segment that answers `data`. -/
def sendRST (ipHdr data : List UInt8) : List UInt8 :=
  let fields : TCP.Fields :=
    { srcPort := TCP.destinationPort data
      dstPort := TCP.sourcePort data
      seqNum := 0
      ackNum := 0
      dataOffset := UInt8.ofNat (tcpMinHeaderSize / 4)
      flags := tcpFlagRST
      windowSize := 0
      checksum := 0
      urgentPointer := 0 }
  let fields :=
    if (TCP.flags data).has tcpFlagACK then { fields with seqNum := TCP.ackNumber data }
    else
      let segLen := UInt32.ofNat data.length - (TCP.dataOffset data).toUInt32
      let segLen := if (TCP.flags data).has tcpFlagSYN then segLen + 1 else segLen
      { fields with
        ackNum := TCP.sequenceNumber data + segLen
        flags := tcpFlagRST ||| tcpFlagACK }
  setTCPChecksum (TCP.encode fields) (IPv4.destinationAddress ipHdr) (IPv4.sourceAddress ipHdr)

/-- `HandlePacket` on a packet of a flow that is not in `conns`, while the handler is open. -/
def handleUnknown (ipHdr data : List UInt8) : Unknown :=
  if !verifies ipHdr data then .release
  else if (TCP.flags data).has tcpFlagSYN && !(TCP.flags data).has tcpFlagACK then .handleSYN
  else if (TCP.flags data).has tcpFlagRST then .release
  else .reply (sendRST ipHdr data)

/-- The checksum does not touch the fields before it. -/
theorem getD_sealed (f : TCP.Fields) (src dst : UInt32) {j : ℕ} (h : j < 16) :
    (setTCPChecksum (TCP.encode f) src dst).getD j 0 = (TCP.encode f).getD j 0 := by
  dsimp only [setTCPChecksum, TCP.setChecksum]
  rw [getD_blit_ne (.inl h), getD_blit_ne (.inl h)]

theorem sequenceNumber_sealed (f : TCP.Fields) (src dst : UInt32) :
    TCP.sequenceNumber (setTCPChecksum (TCP.encode f) src dst) = f.seqNum := by
  rw [TCP.sequenceNumber, uint32At, getD_sealed f src dst (by decide), getD_sealed f src dst (by decide),
    getD_sealed f src dst (by decide), getD_sealed f src dst (by decide)]
  exact uint32At_bytes32 f.seqNum

/-- What the flags and the number of the answer say. -/
theorem sendRST_reads (ipHdr data : List UInt8) :
    (TCP.flags (sendRST ipHdr data)).has tcpFlagRST = true ∧
    (TCP.flags (sendRST ipHdr data)).has tcpFlagSYN = false ∧
    ((TCP.flags data).has tcpFlagACK = true →
      TCP.sequenceNumber (sendRST ipHdr data) = TCP.ackNumber data) := by
  have hbits : ∀ b : Bool, ((if b then tcpFlagRST else tcpFlagRST ||| tcpFlagACK) &&& 0x3f).has tcpFlagRST
      = true ∧ ((if b then tcpFlagRST else tcpFlagRST ||| tcpFlagACK) &&& 0x3f).has tcpFlagSYN = false := by
    decide
  rw [sendRST, TCP.flags]
  dsimp only
  rw [sequenceNumber_sealed, getD_sealed _ _ _ (by decide)]
  split_ifs with hack
  · exact ⟨(hbits true).1, (hbits true).2, fun _ => rfl⟩
  all_goals exact ⟨(hbits false).1, (hbits false).2, fun h => absurd h hack⟩

end TCPHandler

/-- A RST at `rcv.nxt` closes the connection, except in TIME_WAIT. -/
theorem TCPConn.onInbound_reset (c : TCPConn) {seg : Segment} (hst : c.ctl.state ≠ .timeWait)
    (hrst : seg.flags.has tcpFlagRST = true) (hseq : seg.seq = c.ackNum) :
    (c.onInbound seg).ctl.state = .closed := by
  have hpaws : c.pawsDrop seg = false := by
    rw [pawsDrop]
    split
    · simp [hrst]
    · rfl
  have hclosed : (c.handleSegment seg).manageRTO.ctl.state = .closed := by
    rw [manageRTO_ctl, handleSegment, hpaws, if_neg (by simp), if_pos hrst, handleRSTSegment, if_neg hst,
      if_pos hseq, handleRST, closeDone]
    split <;> rfl
  rw [onInbound]
  rcases drainForFIN_ctl (c.handleSegment seg).manageRTO with he | ⟨-, he⟩ <;> rw [he]
  · exact hclosed
  · rw [Ctl.finalize, hclosed]
    exact hclosed

/-- CORRECT: the answer to a packet of an unknown flow, carried back by any IPv4 header with the
    addresses exchanged, passes the checks of the other end; there it is answered by nothing if the
    flow is unknown, and closes the connection that has sent the packet if it is known and the
    acknowledgment number in the packet is still its own. -/
theorem unknown_flow_reset {ipHdr data rst ipHdr' : List UInt8}
    (h : TCPHandler.handleUnknown ipHdr data = .reply rst)
    (hsrc : IPv4.sourceAddress ipHdr' = IPv4.destinationAddress ipHdr)
    (hdst : IPv4.destinationAddress ipHdr' = IPv4.sourceAddress ipHdr)
    (htotal : (IPv4.totalLength ipHdr').toNat = IPv4.headerLength ipHdr' + tcpMinHeaderSize) :
    TCPHandler.handleUnknown ipHdr' rst = .release ∧
    ∃ hlt, TCPHandler.handlePacket ipHdr' rst hlt = some (.inbound (parseSeg rst hlt)) ∧
    ∀ s s' : Sys, (TCP.flags data).has tcpFlagACK = true → TCP.ackNumber data = s.conn.ackNum →
      s.conn.ctl.state ≠ .timeWait → s.step (.inbound (parseSeg rst hlt)) = some s' →
      s'.conn.ctl.state = .closed := by
  obtain rfl : TCPHandler.sendRST ipHdr data = rst := by
    rw [TCPHandler.handleUnknown] at h
    split_ifs at h
    exact Unknown.reply.inj h
  obtain ⟨hflag, hsyn, hnum⟩ := TCPHandler.sendRST_reads ipHdr data
  have hver : TCPHandler.verifies ipHdr' (TCPHandler.sendRST ipHdr data) = true := by
    rw [TCPHandler.sendRST, ← hsrc, ← hdst]
    exact verifies_setTCPChecksum (by rw [length_tcpEncode]) (by rw [length_tcpEncode]; decide) htotal
  have hlt : (TCPHandler.sendRST ipHdr data).length < 2 ^ 16 := by
    rw [TCPHandler.sendRST, length_setTCPChecksum _ _ _ (by rw [length_tcpEncode]), length_tcpEncode]
    decide
  refine ⟨?_, hlt, by rw [TCPHandler.handlePacket, if_pos hver], fun s s' hack hown hst hstep => ?_⟩
  · rw [TCPHandler.handleUnknown, hver, hsyn, hflag]
    rfl
  · obtain ⟨-, st⟩ := Sys.step_inv hstep
    cases st
    exact onInbound_reset _ hst hflag ((hnum hack).trans hown)

/-- A connection that has received the SYN 200 and sends an ACK is answered with a RST at 201. -/
theorem unknown_flow_reset_sample : ∃ rst hlt, ∃ s s' : Sys,
    TCPHandler.handleUnknown (sampleIPv4 40) (sampleTCP 5 []) = .reply rst ∧
    s.step (.inbound (parseSeg rst hlt)) = some s' ∧ s'.conn.ctl.state = .closed := by
  have h : TCPHandler.handleUnknown (sampleIPv4 40) (sampleTCP 5 [])
      = .reply (TCPHandler.sendRST (sampleIPv4 40) (sampleTCP 5 [])) := by decide +kernel
  obtain ⟨-, hlt, -, hreset⟩ := @unknown_flow_reset _ _ _
    [0x45, 0, 0, 40, 0, 0, 0, 0, 64, 6, 0, 0, 10, 0, 0, 1, 10, 0, 0, 2] h rfl rfl rfl
  have hstep : (Sys.start (Sys.sampleHandler 8 4) 200 100 [] Sys.sampleHandler_read_pos
    Sys.sampleHandler_write_pos).step (.inbound (parseSeg _ hlt)) = some _ := rfl
  exact ⟨_, hlt, _, _, h, hstep, hreset _ _ (by decide +kernel) (by decide +kernel) (by decide) hstep⟩

end Netstack.Tcp
