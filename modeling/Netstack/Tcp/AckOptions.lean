import Netstack.Header.OptionGrammar
import Netstack.Tcp.GsoSplit
import Netstack.Tcp.Segment

/-! The options of an ACK, from `sendACK` to the peer's parser (`segment.go`, `rcv.go`,
    `header/tcp.go`, `packet/packet.go`).

    The limits that have to fit together are the block limits of `sackBlocks` and of
    `EncodeSACKBlocks`, the 48-byte option buffer of `sendACK`, the four bits of the data offset and
    the 80 bytes of headroom of a packet. The option area of an ACK is a list of options of the
    grammar, so that what `ParseSegmentOptions` makes of it is their fold. -/

namespace Netstack.Tcp
open Netstack.Copy Netstack.Header

/-- `packet.MaxHeadroom`. -/
def maxHeadroom : ℕ := 80

/-- A packet buffer of the send path, as far as `Prepend` is concerned. -/
structure SendBuffer where
  headroom : ℕ
  consumed : ℕ
  deriving DecidableEq

/-- `NewPacketBuffer`. -/
def newPacketBuffer (headroom : ℕ) : SendBuffer := ⟨headroom, 0⟩

/-- `Prepend`; `none` is the panic of a slice that starts before the buffer. -/
def SendBuffer.prepend (b : SendBuffer) (size : ℕ) : Option SendBuffer :=
  if b.consumed + size ≤ b.headroom then some { b with consumed := b.consumed + size } else none

/-- Two headers in front of each other. -/
theorem isSome_prepend {headroom a b : ℕ} (h : a + b ≤ headroom) :
    (((newPacketBuffer headroom).prepend a).bind (SendBuffer.prepend · b)).isSome := by
  have ha : (newPacketBuffer headroom).prepend a = some ⟨headroom, 0 + a⟩ := if_pos (by
    change 0 + a ≤ headroom
    omega)
  have hb : SendBuffer.prepend ⟨headroom, 0 + a⟩ b = some ⟨headroom, 0 + a + b⟩ := if_pos (by
    change 0 + a + b ≤ headroom
    omega)
  rw [ha, Option.bind_some, hb]
  rfl

/-- The fields `sendACK` encodes. -/
def OutSegment.plainFields (p : OutSegment) (flow : FlowID) : TCP.Fields where
  srcPort := flow.dstPort
  dstPort := flow.srcPort
  seqNum := p.seq
  ackNum := p.ack
  dataOffset := UInt8.ofNat ((tcpMinHeaderSize + p.options.length) / 4)
  flags := p.flags
  windowSize := p.wnd
  checksum := 0
  urgentPointer := 0

/-- The TCP header `sendACK` builds, options included, with its checksum. -/
def OutSegment.plainHeader (p : OutSegment) (flow : FlowID) : List UInt8 :=
  setTCPChecksum (TCP.encode (p.plainFields flow) ++ p.options) flow.dstAddr flow.srcAddr

/-! ### Blocks and their bytes -/

/-- The value of a SACK option. -/
def blockBytes (blocks : List SACKBlock) : List UInt8 :=
  blocks.flatMap fun b => bytes32 b.start ++ bytes32 b.stop

theorem length_blockBytes : ∀ blocks : List SACKBlock, (blockBytes blocks).length = 8 * blocks.length
  | [] => rfl
  | b :: blocks => by
    have ih := length_blockBytes blocks
    rw [blockBytes] at ih ⊢
    rw [List.flatMap_cons, List.length_append, ih, List.length_append, length_bytes32, length_bytes32,
      List.length_cons]
    omega

theorem bigEndian_bytes32 (v : UInt32) : UInt32.ofNat (bigEndian (bytes32 v)) = v := by
  rw [← uint32At_four rfl, uint32At_bytes32]

/-- The blocks are read back from their bytes. -/
theorem blocksOf_blockBytes : ∀ blocks : List SACKBlock, blocksOf (blockBytes blocks) = blocks
  | [] => rfl
  | b :: blocks => by
    have hcons : blocksOf (blockBytes (b :: blocks)) =
        ⟨UInt32.ofNat (bigEndian (bytes32 b.start)), UInt32.ofNat (bigEndian (bytes32 b.stop))⟩
          :: blocksOf (blockBytes blocks) := rfl
    rw [hcons, blocksOf_blockBytes blocks, bigEndian_bytes32, bigEndian_bytes32]

/-- `EncodeSACKBlocks` truncates nothing if there is room for at most four blocks. -/
theorem encodeSACKBlocks_eq {room : ℕ} {blocks : List SACKBlock} (h4 : blocks.length ≤ 4)
    (hroom : 2 + 8 * blocks.length ≤ room) : encodeSACKBlocks room blocks =
      if blocks = [] then [] else
        tcpOptionSACK :: UInt8.ofNat ((blockBytes blocks).length + 2) :: blockBytes blocks := by
  have hfit : sackBlocksThatFit room blocks.length = blocks.length := by
    rw [sackBlocksThatFit, tcpMaxSACKBlocks]
    omega
  dsimp only [encodeSACKBlocks]
  rw [hfit]
  by_cases hnil : blocks = []
  · rw [if_pos (by rw [hnil]; rfl), if_pos hnil]
  · rw [if_neg (by simpa using hnil), if_neg hnil, List.take_length, length_blockBytes,
      show 2 + blocks.length * 8 = 8 * blocks.length + 2 by omega]
    rfl

/-- `sackBlocks` keeps to its own limit, the DSACK block included. -/
theorem length_sackBlocks (r : Receiver) (tsEnabled : Bool) :
    (r.sackBlocks tsEnabled).length ≤ if tsEnabled then 3 else 4 := by
  dsimp only [Receiver.sackBlocks]
  rw [List.length_append, List.length_take]
  split_ifs <;> simp <;> omega

/-! ### The option area of an ACK -/

/-- The blocks an ACK reports. -/
def TCPConn.ackBlocks (c : TCPConn) : List SACKBlock :=
  if c.env.sackPermitted && c.ctl.synced then c.rx.rcv.sackBlocks c.env.tsEnabled else []

theorem length_ackBlocks (c : TCPConn) : c.ackBlocks.length ≤ if c.env.tsEnabled then 3 else 4 := by
  rw [TCPConn.ackBlocks]
  split_ifs with h hts hts
  · exact (length_sackBlocks _ _).trans (by rw [if_pos hts])
  · exact (length_sackBlocks _ _).trans (by rw [if_neg hts])
  · exact Nat.zero_le _
  · exact Nat.zero_le _

/-- The timestamp option, with the two NOPs in front of it. -/
def timestampOptions (v e : UInt32) : List TCPOption :=
  [.nop, .nop, .tlv tcpOptionTS (bytes32 v ++ bytes32 e) (by decide) (by decide) (by simp)]

/-- A SACK option, if there is a block to report. -/
def sackOptions (blocks : List SACKBlock) (h : blocks.length ≤ 4) : List TCPOption :=
  if blocks = [] then []
  else [.tlv tcpOptionSACK (blockBytes blocks) (by decide) (by decide)
    (by rw [length_blockBytes]; omega)]

theorem flatMap_sackOptions (blocks : List SACKBlock) (h : blocks.length ≤ 4) :
    (sackOptions blocks h).flatMap TCPOption.bytes = if blocks = [] then [] else
      tcpOptionSACK :: UInt8.ofNat ((blockBytes blocks).length + 2) :: blockBytes blocks := by
  rw [sackOptions]
  split_ifs
  · rfl
  · rw [List.flatMap_singleton]
    rfl

theorem foldl_sackOptions (blocks : List SACKBlock) (h : blocks.length ≤ 4) {so : SegmentOptions}
    (hso : so.sackBlocks = []) :
    (sackOptions blocks h).foldl TCPOption.onSegment so = { so with sackBlocks := blocks } := by
  rw [sackOptions]
  split_ifs with hnil
  · rw [hnil, ← hso]
    rfl
  · rw [List.foldl_cons, List.foldl_nil, TCPOption.onSegment, if_pos rfl,
      if_pos (by rw [length_blockBytes]; omega), blocksOf_blockBytes, List.take_of_length_le h]

theorem foldl_timestampOptions (v e : UInt32) (so : SegmentOptions) :
    (timestampOptions v e).foldl TCPOption.onSegment so
      = { so with tsEnabled := true, tsVal := v, tsEcr := e } := by
  have hlen : (bytes32 v ++ bytes32 e).length = 8 := rfl
  have htake : (bytes32 v ++ bytes32 e).take 4 = bytes32 v := rfl
  have hdrop : (bytes32 v ++ bytes32 e).drop 4 = bytes32 e := rfl
  rw [timestampOptions, List.foldl_cons, List.foldl_cons, List.foldl_cons, List.foldl_nil,
    TCPOption.onSegment, TCPOption.onSegment, TCPOption.onSegment, if_neg (by decide), if_pos rfl,
    if_pos hlen, htake, hdrop, bigEndian_bytes32, bigEndian_bytes32]

theorem foldl_nops (n : ℕ) (so : SegmentOptions) :
    (List.replicate n TCPOption.nop).foldl TCPOption.onSegment so = so := by
  induction n with
  | zero => rfl
  | succ n ih => rw [List.replicate_succ, List.foldl_cons, TCPOption.onSegment, ih]

theorem flatMap_nops (n : ℕ) :
    (List.replicate n TCPOption.nop).flatMap TCPOption.bytes = List.replicate n tcpOptionNOP := by
  induction n with
  | zero => rfl
  | succ n ih => rw [List.replicate_succ, List.flatMap_cons, ih, List.replicate_succ]; rfl

namespace TCPConn
variable (c : TCPConn)

theorem length_ackBlocks_le : c.ackBlocks.length ≤ 4 :=
  (length_ackBlocks c).trans (by split_ifs <;> omega)

/-- What an ACK says, as options. -/
def ackTCPOptions : List TCPOption :=
  (if c.env.tsEnabled then timestampOptions c.handlerNow c.wire.tsRecent else [])
    ++ sackOptions c.ackBlocks c.length_ackBlocks_le

theorem length_tsOption : c.tsOption.length = if c.env.tsEnabled then 12 else 0 := by
  rw [tsOption]
  split_ifs <;> rfl

/-- The options before padding are the bytes of `ackTCPOptions`. -/
theorem flatMap_ackTCPOptions : c.ackTCPOptions.flatMap TCPOption.bytes = c.tsOption
    ++ (if c.env.sackPermitted && c.ctl.synced then
      encodeSACKBlocks (48 - c.tsOption.length) (c.rx.rcv.sackBlocks c.env.tsEnabled) else []) := by
  have hts : (if c.env.tsEnabled then timestampOptions c.handlerNow c.wire.tsRecent else []).flatMap
      TCPOption.bytes = c.tsOption := by
    rw [tsOption]
    split_ifs <;> rfl
  have hlen := length_ackBlocks c
  rw [ackTCPOptions, List.flatMap_append, hts, flatMap_sackOptions]
  by_cases hsack : (c.env.sackPermitted && c.ctl.synced) = true
  · have hblocks : c.ackBlocks = c.rx.rcv.sackBlocks c.env.tsEnabled := by rw [ackBlocks, if_pos hsack]
    rw [hblocks] at hlen ⊢
    rw [if_pos hsack, encodeSACKBlocks_eq]
    · split_ifs at hlen <;> omega
    · rw [length_tsOption]
      split_ifs at hlen ⊢ <;> omega
  · have hblocks : c.ackBlocks = [] := by rw [ackBlocks, if_neg hsack]
    rw [if_neg hsack, hblocks, if_pos rfl]

/-- The option area of an ACK is a list of options. -/
theorem ackOptions_eq : ∃ n, c.ackOptions
    = (c.ackTCPOptions ++ List.replicate n TCPOption.nop).flatMap TCPOption.bytes := by
  rw [ackOptions, padOptions, ← flatMap_ackTCPOptions]
  exact ⟨_, by rw [List.flatMap_append, flatMap_nops]⟩

/-- The option area fits behind the fixed header, whose length field has four bits. -/
theorem length_ackOptions : c.ackOptions.length ≤ 40 ∧ c.ackOptions.length % 4 = 0 := by
  have hlen := length_ackBlocks c
  have hbytes : (c.ackTCPOptions.flatMap TCPOption.bytes).length ≤ 38 := by
    rw [ackTCPOptions, List.flatMap_append, List.length_append, flatMap_sackOptions]
    have hsack : (if c.ackBlocks = [] then [] else tcpOptionSACK
        :: UInt8.ofNat ((blockBytes c.ackBlocks).length + 2) :: blockBytes c.ackBlocks).length
        ≤ 2 + 8 * c.ackBlocks.length := by
      split_ifs
      · exact Nat.zero_le _
      · rw [List.length_cons, List.length_cons, length_blockBytes]
        omega
    generalize List.length (ite (c.ackBlocks = []) _ _) = k at hsack ⊢
    split_ifs at hlen ⊢
    · change 12 + k ≤ 38
      omega
    · change 0 + k ≤ 38
      omega
  rw [flatMap_ackTCPOptions] at hbytes
  rw [ackOptions, padOptions, List.length_append, List.length_replicate]
  omega

/-- What the peer's parser makes of the option area. -/
theorem parse_ackOptions : parseSegmentOptions c.ackOptions =
    { sackBlocks := c.ackBlocks
      tsEnabled := c.env.tsEnabled
      tsVal := if c.env.tsEnabled then c.handlerNow else 0
      tsEcr := if c.env.tsEnabled then c.wire.tsRecent else 0 } := by
  obtain ⟨n, hopts⟩ := c.ackOptions_eq
  have hparse := parse_area (TCPOption.reads (fun _ => rfl) segmentOption_eq)
    (c.ackTCPOptions ++ List.replicate n .nop) .nothing SegmentOptions.zero
  rw [List.append_nil, ← hopts] at hparse
  rw [show parseSegmentOptions c.ackOptions = _ from hparse, List.foldl_append, foldl_nops,
    ackTCPOptions, List.foldl_append, foldl_sackOptions]
  · by_cases hts : c.env.tsEnabled = true
    · rw [if_pos hts, if_pos hts, if_pos hts, hts, foldl_timestampOptions]
    · rw [if_neg hts, if_neg hts, if_neg hts, Bool.eq_false_iff.2 hts]
      rfl
  · split_ifs
    · rw [foldl_timestampOptions]
      rfl
    · rfl

end TCPConn

/-! ### The header -/

section
variable (p : OutSegment) (flow : FlowID)

theorem length_plainHeader : (p.plainHeader flow).length = tcpMinHeaderSize + p.options.length := by
  rw [OutSegment.plainHeader, length_setTCPChecksum _ _ _ (by rw [List.length_append, length_tcpEncode]; omega),
    List.length_append, length_tcpEncode]

theorem length_setChecksum_encode (f : TCP.Fields) (v : UInt16) :
    (TCP.setChecksum (TCP.encode f) v).length = tcpMinHeaderSize := by
  rw [TCP.setChecksum, length_blit _ (by rw [length_tcpEncode]; decide), length_tcpEncode]

/-- The checksum lies in the fixed part of the header. -/
theorem plainHeader_eq : ∃ v, p.plainHeader flow
    = TCP.setChecksum (TCP.encode (p.plainFields flow)) v ++ p.options := by
  have hfixed : 16 + 2 ≤ (TCP.encode (p.plainFields flow)).length := by
    rw [length_tcpEncode]
    decide
  have hall : 16 + 2 ≤ (TCP.encode (p.plainFields flow) ++ p.options).length := by
    rw [List.length_append]
    omega
  rw [OutSegment.plainHeader, setTCPChecksum, TCP.setChecksum, TCP.setChecksum, blit_blit (by rw [length_bytes16, length_bytes16]) hall,
    blit_append_left _ _ hfixed]
  exact ⟨_, rfl⟩

/-- `Options` finds what was copied behind the fixed header. -/
theorem options_plainHeader (h40 : p.options.length ≤ 40) (h4 : p.options.length % 4 = 0) :
    TCP.options (p.plainHeader flow) = p.options := by
  obtain ⟨k, hk⟩ : ∃ k, p.options.length = 4 * k := ⟨p.options.length / 4, by omega⟩
  have hlen := length_plainHeader p flow
  obtain ⟨v, hall⟩ := plainHeader_eq p flow
  have hhdr := length_setChecksum_encode (p.plainFields flow) v
  have hoff : (TCP.dataOffset (p.plainHeader flow)).toNat = tcpMinHeaderSize + p.options.length := by
    have hwords : ∀ k ≤ 10, (UInt8.ofNat ((tcpMinHeaderSize + 4 * k) / 4) <<< 4 >>> 4 * 4).toNat
        = tcpMinHeaderSize + 4 * k := by decide
    rw [TCP.dataOffset, hall, getD_append (by rw [hhdr]; decide), TCP.setChecksum,
      getD_blit_ne (by omega)]
    exact (congrArg (fun n => (UInt8.ofNat ((tcpMinHeaderSize + n) / 4) <<< 4 >>> 4 * 4).toNat) hk).trans
      ((hwords k (by omega)).trans (by rw [hk]))
  rw [TCP.options, hoff, hlen]
  split_ifs with hnone
  · exact (List.eq_nil_of_length_eq_zero (by omega)).symm
  · rw [hall, ← hhdr, List.take_of_length_le (by rw [List.length_append]), List.drop_left]

end

/-- CORRECT: the options of an ACK arrive. Whatever the state of the connection, the option area of the
    header `sendACK` builds has at most 40 bytes and a multiple of four, the header fits into the
    headroom together with the IPv4 header, and the parser finds the timestamps sent and all blocks of
    `sackBlocks`. -/
theorem ack_options_arrive (c : TCPConn) (flow : FlowID) :
    ∃ p, c.sendACK.wire.out = c.wire.out ++ [p] ∧
      (TCP.options (p.plainHeader flow)).length ≤ 40 ∧
      (TCP.options (p.plainHeader flow)).length % 4 = 0 ∧
      (((newPacketBuffer maxHeadroom).prepend (p.plainHeader flow).length).bind
        (SendBuffer.prepend · ipv4MinHeaderSize)).isSome ∧
      parseSegmentOptions (TCP.options (p.plainHeader flow)) =
        { sackBlocks :=
            if c.env.sackPermitted && c.ctl.synced then c.rx.rcv.sackBlocks c.env.tsEnabled else []
          tsEnabled := c.env.tsEnabled
          tsVal := if c.env.tsEnabled then c.handlerNow else 0
          tsEcr := if c.env.tsEnabled then c.wire.tsRecent else 0 } := by
  obtain ⟨h40, h4⟩ := c.length_ackOptions
  refine ⟨_, rfl, ?_⟩
  rw [options_plainHeader _ _ h40 h4, length_plainHeader]
  refine ⟨h40, h4, ?_, c.parse_ackOptions⟩
  have hroom : tcpMinHeaderSize + c.ackOptions.length + ipv4MinHeaderSize ≤ maxHeadroom := by
    rw [tcpMinHeaderSize, ipv4MinHeaderSize, maxHeadroom]
    omega
  exact isSome_prepend hroom

end Netstack.Tcp
