import Netstack.Tcp.Reassembly
import Netstack.Tcp.SendStream
import Netstack.Tcp.Control
import Netstack.Tcp.Wire

/-! Header bytes are not data: what a packet can put into the receive stream.

    `parseSeg` takes the bytes from the data offset on for the payload, and every handler passes the
    payload to `handleData` as it is. Neither it nor `HandlePacket` looks at whether the offset makes
    sense: an offset below 20 makes header bytes data, and a packet whose offset lies beyond its end
    is handled as one without data. -/

namespace Netstack.Tcp
open Netstack.Header Netstack.Trace TCPConn

/-! ### Where the bytes come from -/

/-- Every byte of the list satisfies `P`. -/
def Holding (P : UInt8 → Prop) (l : List OOOSegment) : Prop := ∀ e ∈ l, ∀ b ∈ e.data, P b

section
variable {P : UInt8 → Prop} {data : List UInt8}

theorem Holding.cons {e : OOOSegment} {l : List OOOSegment} (he : ∀ b ∈ e.data, P b)
    (hl : Holding P l) : Holding P (e :: l) := by
  rintro e' hmem
  rcases List.mem_cons.1 hmem with rfl | hmem
  · exact he
  · exact hl e' hmem

theorem Holding.append {l l' : List OOOSegment} (h : Holding P l) (h' : Holding P l') :
    Holding P (l ++ l') := by
  intro e hmem
  exact (List.mem_append.1 hmem).elim (h e) (h' e)

theorem Holding.mono {l l' : List OOOSegment} (h : Holding P l) (hsub : l' ⊆ l) : Holding P l' :=
  fun e hmem => h e (hsub hmem)

theorem extend_holding {e : OOOSegment} (he : ∀ b ∈ e.data, P b) (hd : ∀ b ∈ data, P b)
    (seq : UInt32) : ∀ b ∈ (e.extend seq data).data, P b := by
  rw [OOOSegment.extend]
  split
  · intro b hb
    exact (List.mem_append.1 hb).elim (he b) fun hb => hd b (List.drop_subset _ _ hb)
  · exact he

theorem absorb_holding : ∀ (rest : List OOOSegment) {cur : OOOSegment}, (∀ b ∈ cur.data, P b) →
    Holding P rest → Holding P (absorb cur rest)
  | [], cur, hcur, _ => Holding.cons hcur fun _ h => by cases h
  | next :: rest, cur, hcur, hrest => by
      rw [absorb]
      split
      · exact hrest.cons hcur
      · exact absorb_holding rest (extend_holding hcur (hrest next List.mem_cons_self) _)
          (hrest.mono (List.subset_cons_self _ _))

theorem replaced_subset (seq : UInt32) (l : List OOOSegment) : replaced seq l ⊆ l := by
  cases l with
  | nil => exact List.Subset.refl _
  | cons e rest =>
    rw [replaced]
    split
    · exact List.subset_cons_self _ _
    · exact List.Subset.refl _

theorem mergeOOO_holding {before after : List OOOSegment} (hb : Holding P before)
    (ha : Holding P after) (hd : ∀ b ∈ data, P b) (seq : UInt32) :
    Holding P (mergeOOO before after seq data) := by
  have hfresh : Holding P (before ++ absorb ⟨seq, data⟩ (replaced seq after)) :=
    hb.append (absorb_holding _ hd (ha.mono (replaced_subset _ _)))
  rw [mergeOOO]
  cases hlast : before.getLast? with
  | none => exact hfresh
  | some prev =>
    dsimp only
    split
    · exact (hb.mono (List.dropLast_subset _)).append
        (absorb_holding _ (extend_holding (hb prev (List.mem_of_getLast? hlast)) hd _) ha)
    · exact hfresh

theorem insertOOO_holding {r : Receiver} (h : Holding P r.ooo) (hd : ∀ b ∈ data, P b)
    (seq : UInt32) : Holding P (r.insertOOO seq data).ooo := by
  rw [Receiver.insertOOO]
  split
  · exact h
  · exact mergeOOO_holding (h.mono (List.takeWhile_subset _)) (h.mono (List.dropWhile_subset _)) hd seq

namespace TCPConn

/-- The receive stream: the bytes delivered and those filed out of order. -/
def stream (c : TCPConn) : List UInt8 × List OOOSegment := (c.rx.delivered, c.rx.rcv.ooo)

theorem Quiet.stream {c c' : TCPConn} (q : Quiet c c') : c'.stream = c.stream := by
  rw [TCPConn.stream, q.delivered, q.ooo]
  rfl

theorem processFIN_stream (c : TCPConn) : c.processFIN.stream = c.stream :=
  (Quiet.sendACK c.countFIN.cancelDelayedACK).stream

/-- `c'` comes from `c` by delivering and filing bytes that satisfy `P`. -/
structure Adds (P : UInt8 → Prop) (c c' : TCPConn) : Prop where
  delivered : ∃ run, c'.rx.delivered = c.rx.delivered ++ run ∧ ∀ b ∈ run, P b
  ooo : Holding P c'.rx.rcv.ooo

variable {c c' c'' : TCPConn}

theorem Adds.trans (h : Adds P c c') (h' : Adds P c' c'') : Adds P c c'' := by
  obtain ⟨run, he, hrun⟩ := h.delivered
  obtain ⟨run', he', hrun'⟩ := h'.delivered
  refine ⟨⟨run ++ run', by rw [he', he, List.append_assoc], ?_⟩, h'.ooo⟩
  intro b hb
  exact (List.mem_append.1 hb).elim (hrun b) (hrun' b)

theorem Adds.of_same (hd : c'.rx.delivered = c.rx.delivered) (ho : Holding P c'.rx.rcv.ooo) :
    Adds P c c' :=
  ⟨⟨[], by rw [hd, List.append_nil], by simp⟩, ho⟩

theorem Adds.of_stream (hs : c'.stream = c.stream) (ho : Holding P c.rx.rcv.ooo) : Adds P c c' := by
  have hooo : c'.rx.rcv.ooo = c.rx.rcv.ooo := congrArg Prod.snd hs
  exact .of_same (congrArg Prod.fst hs) (hooo ▸ ho)

theorem adds_deliver (h : Holding P c.rx.rcv.ooo) (hd : ∀ b ∈ data, P b) :
    Adds P c (c.deliver data) := by
  obtain ⟨k, t, he⟩ := c.deliver_rx data
  refine ⟨⟨data.take (c.deliverable data), by rw [he], ?_⟩, by rw [he]; exact h⟩
  intro b hb
  exact hd b (List.take_subset _ _ hb)

theorem adds_drainOOO : ∀ (l : List OOOSegment) {c : TCPConn}, Holding P c.rx.rcv.ooo → Holding P l →
    Adds P c (drainOOO l c)
  | [], c, _, _ => .of_same rfl fun _ h => by cases h
  | e :: rest, c, h, hl => by
      have hrest : Holding P rest := hl.mono (List.subset_cons_self _ _)
      rw [drainOOO]
      split
      · exact .of_same rfl hl
      dsimp only
      split
      · exact adds_drainOOO rest h hrest
      have hdata : ∀ b ∈ e.data.drop (c.rx.rcv.nxt - e.seq).toNat, P b := fun b hb =>
        hl e List.mem_cons_self b (List.drop_subset _ _ hb)
      have hadd := adds_deliver h hdata
      split
      · refine ⟨hadd.delivered, hrest.cons fun b hb => hdata b (List.drop_subset _ _ hb)⟩
      · exact hadd.trans (adds_drainOOO rest hadd.ooo hrest)

theorem adds_deliverOOO (h : Holding P c.rx.rcv.ooo) : Adds P c c.deliverOOO := by
  have hadd := adds_drainOOO c.rx.rcv.ooo h h
  rw [deliverOOO, deferredFIN]
  split
  · exact hadd.trans (.of_stream (processFIN_stream (drainOOO c.rx.rcv.ooo c).clearFIN) hadd.ooo)
  · exact hadd

theorem adds_acceptData (h : Holding P c.rx.rcv.ooo) (hd : ∀ b ∈ data, P b) (seq : UInt32) :
    Adds P c (c.acceptData seq data) := by
  have hadd := adds_deliver h hd
  rw [acceptData]
  split
  · exact .of_same rfl h
  split
  · split
    · exact hadd.trans (adds_deliverOOO hadd.ooo)
    · exact hadd
  split
  · exact .of_same rfl (insertOOO_holding h hd seq)
  · exact .of_same rfl h

theorem adds_windowData (h : Holding P c.rx.rcv.ooo) (hd : ∀ b ∈ data, P b) (seq : UInt32) :
    Adds P c (c.windowData seq data) := by
  rw [windowData]
  split
  · exact .of_same rfl h
  split
  · exact .of_same rfl h
  split
  · exact adds_acceptData h (fun b hb => hd b (List.take_subset _ _ hb)) seq
  · exact adds_acceptData h hd seq

/-- `handleData` delivers and files bytes of its argument and of the out-of-order list, no others. -/
theorem adds_handleData (h : Holding P c.rx.rcv.ooo) (hd : ∀ b ∈ data, P b) (seq : UInt32) :
    Adds P c (c.handleData seq data) := by
  rw [handleData]
  split_ifs
  · exact .of_same rfl h
  · exact .of_same rfl h
  · exact adds_windowData h (fun b hb => hd b (List.drop_subset _ _ hb)) _
  · exact adds_windowData h hd seq

end TCPConn
end

/-! ### What the handlers make of a payload -/

/-- The receive stream is left alone, or changed as `handleData` changes it for the payload of the
    segment, once, with the receiver of `c` or one just made. -/
def Passes (c : TCPConn) (seg : Segment) (c' : TCPConn) : Prop :=
  c'.stream = c.stream ∨ ∃ c₁ : TCPConn, c₁.app = c.app ∧
    (c₁.rx = c.rx ∨ c₁.rx = (c.establish seg).rx) ∧
    c'.stream = (c₁.handleData seg.seq seg.payload).stream

section
variable {c c' c'' : TCPConn} {seg : Segment}

theorem Passes.of_eq (h : Passes c seg c') (he : c''.stream = c'.stream) : Passes c seg c'' := by
  rcases h with h | ⟨c₁, h1, h2, h3⟩
  · exact .inl (he.trans h)
  · exact .inr ⟨c₁, h1, h2, he.trans h3⟩

theorem TCPConn.Concludes.stream (h : Concludes c c') : c'.stream = c.stream := by
  induction h with
  | refl => rfl
  | sendACK _ ih => exact (Quiet.sendACK _).stream.trans ih
  | closeDone _ ih => exact (Quiet.closeDone _).stream.trans ih
  | countFIN _ ih | deferFIN _ ih | closeReadBuf _ ih | timers _ ih | setState _ _ ih => exact ih

/-- Every handler hands the payload of the segment to `handleData`, or nothing. -/
theorem passes_handled (h : Handled seg c c') : Passes c seg c' := by
  obtain ⟨c₁, hack, c₂, rfl | ⟨-, rfl⟩, hend⟩ := h
  · exact .inl (hend.stream.trans (Quiet.of_txOnly hack.txOnly).stream)
  · exact .inr ⟨c₁, hack.txOnly.app, .inl hack.txOnly.rx, hend.stream⟩

theorem passes_handleSynRcvd (hs : c.ctl.synced = false) (seg : Segment) :
    Passes c seg (c.handleSynRcvd seg) := by
  rcases handleSynRcvd_quiet hs seg with q | q
  · exact .inl q.stream
  · have hdata := (quiet_synPayload (c := (c.establish seg).resetKeepalive) rfl seg).stream
    exact .inr ⟨(c.establish seg).resetKeepalive, rfl, .inr rfl, q.stream.trans hdata⟩

theorem passes_onInbound (hs : c.ctl.state = .synRcvd → c.ctl.synced = false) (seg : Segment) :
    Passes c seg (c.onInbound seg) := by
  have hend : Quiet (c.handleSegment seg) (c.onInbound seg) :=
    (Quiet.manageRTO _).trans (.drainForFIN _)
  refine Passes.of_eq ?_ hend.stream
  rw [handleSegment]
  split_ifs
  · exact .inl rfl
  · exact .inl (Quiet.handleRSTSegment c seg).stream
  · exact .inl (Quiet.sendACK c).stream
  · have t := TxOnly.updateTSRecent c seg
    have hdisp : Passes (c.updateTSRecent seg) seg ((c.updateTSRecent seg).dispatch seg) := by
      by_cases hst : c.ctl.state = .synRcvd
      · rw [dispatch, t.ctl, hst]
        exact passes_handleSynRcvd (by rw [t.ctl]; exact hs hst) seg
      · exact passes_handled (.dispatch _ seg (by rw [t.ctl]; exact hst))
    rcases hdisp with h | ⟨c₁, h1, h2, h3⟩
    · exact .inl (h.trans (Quiet.of_txOnly t).stream)
    · refine .inr ⟨c₁, h1.trans t.app, ?_, h3⟩
      have hopened : ((c.updateTSRecent seg).establish seg).rx = (c.establish seg).rx := by
        rw [establish, setState, t.rx, t.env]
        rfl
      rwa [t.rx, hopened] at h2

end

/-! ### Packets -/

/-- The data offset lies inside the fixed header, or beyond the end of the segment. -/
def Malformed (data : List UInt8) : Prop :=
  (TCP.dataOffset data).toNat < tcpMinHeaderSize ∨ data.length < (TCP.dataOffset data).toNat

instance (data : List UInt8) : Decidable (Malformed data) := inferInstanceAs (Decidable (_ ∨ _))

/-- `HandlePacket` on a packet of a known flow: what it puts into the connection's queue. -/
def TCPHandler.handlePacket (ipHdr data : List UInt8) (h : data.length < 2 ^ 16) : Option Event :=
  if TCPHandler.verifies ipHdr data then some (.inbound (parseSeg data h)) else none

/-- Nothing of the connection has changed but the packets sent, the readings of the clock and the RTO
    timer, which the run loop sets again after every packet. -/
def Untouched (c c' : TCPConn) : Prop :=
  c' = { c with wire.out := c'.wire.out, ticks := c'.ticks, tx.rtoTimer := c'.tx.rtoTimer }

/-- What a packet may do to a connection: nothing if it is malformed. Otherwise the bytes from the
    data offset on are handed to `handleData`, and no others are delivered or filed. -/
structure KeepsHeader (data : List UInt8) (seg : Segment) (c c' : TCPConn) : Prop where
  malformed : Malformed data → Untouched c c'
  payload : ¬Malformed data → seg.payload = data.drop (TCP.dataOffset data).toNat
  passes : ¬Malformed data → Passes c seg c'
  bytes : ¬Malformed data → Adds (fun b => b ∈ data.drop (TCP.dataOffset data).toNat ∨
    ∃ e ∈ c.rx.rcv.ooo, b ∈ e.data) c c'

/-- A legal data offset: the payload is what stands from there on. -/
theorem payload_parseSeg {data : List UInt8} (h : data.length < 2 ^ 16) (hok : ¬Malformed data) :
    (parseSeg data h).payload = data.drop (TCP.dataOffset data).toNat := by
  rw [Malformed, not_or] at hok
  dsimp only [parseSeg]
  split
  · rfl
  · rw [List.drop_eq_nil_of_le (by omega)]

theorem Passes.adds {c c' : TCPConn} {seg : Segment} {P : UInt8 → Prop} (h : Passes c seg c')
    (ho : Holding P c.rx.rcv.ooo) (hp : ∀ b ∈ seg.payload, P b) : Adds P c c' := by
  rcases h with h | ⟨c₁, -, h2, h3⟩
  · exact .of_stream h ho
  · have h1 : c₁.rx.delivered = c.rx.delivered := by rcases h2 with he | he <;> rw [he]; rfl
    have ho₁ : Holding P c₁.rx.rcv.ooo := by
      rcases h2 with he | he <;> rw [he]
      · exact ho
      · exact fun _ h => by cases h
    have hd : c'.rx.delivered = (c₁.handleData seg.seq seg.payload).rx.delivered := congrArg Prod.fst h3
    have hooo : c'.rx.rcv.ooo = (c₁.handleData seg.seq seg.payload).rx.rcv.ooo := congrArg Prod.snd h3
    obtain ⟨⟨run, he, hrun⟩, hfiled⟩ := adds_handleData ho₁ hp seg.seq
    exact ⟨⟨run, by rw [hd, he, h1], hrun⟩, hooo ▸ hfiled⟩

/-- CORRECT for a legal data offset: in every reachable state. -/
theorem keepsHeader_of_legal {data : List UInt8} (h : data.length < 2 ^ 16) (hok : ¬Malformed data)
    {s s' : Sys} (hr : Reach Sys.Init Sys.step (fun _ _ => True) s)
    (hs : s.step (.inbound (parseSeg data h)) = some s') :
    KeepsHeader data (parseSeg data h) s.conn s'.conn := by
  obtain ⟨-, st⟩ := Sys.step_inv hs
  cases st
  have hpass := passes_onInbound (unsynced_reach hr) (parseSeg data h)
  have hpay := payload_parseSeg h hok
  refine ⟨fun hm => absurd hm hok, fun _ => hpay, fun _ => hpass, fun _ => hpass.adds ?_ ?_⟩
  · exact fun e he b hb => .inr ⟨e, he, hb⟩
  · intro b hb
    rw [hpay] at hb
    exact .inl hb

/-! ### Malformed packets

    Each of them changes some connection, whatever its other fields are. -/

theorem Untouched.view {c c' : TCPConn} (h : Untouched c c') :
    c'.ctl = c.ctl ∧ c'.timers = c.timers ∧ c'.wire.lastWndZero = c.wire.lastWndZero := by
  rw [Untouched] at h
  rw [h]
  exact ⟨rfl, rfl, rfl⟩

section
variable {c : TCPConn} {seg : Segment}

/-- A segment without options is neither dropped by PAWS nor noted for its timestamp. -/
theorem handleSegment_bare (hopts : seg.options = []) : c.handleSegment seg =
    if seg.flags.has tcpFlagRST then c.handleRSTSegment seg
    else if seg.flags.has tcpFlagSYN ∧ c.ctl.state ≠ .synRcvd then c.sendACK
    else c.dispatch seg := by
  have hts : seg.timestamp c.env = none := by simp [Segment.timestamp, hopts]
  rw [handleSegment, pawsDrop, updateTSRecent, hts, if_neg (by simp)]

/-- Before the handshake ends the run loop adds nothing. -/
theorem onInbound_early (hs : (c.handleSegment seg).ctl.synced = false) :
    c.onInbound seg = c.handleSegment seg := by
  simp [onInbound, manageRTO, drainForFIN, hs]

/-- In SYN_RCVD, RST at the number expected closes the connection. -/
theorem rst_closes (hopts : seg.options = []) (hrst : seg.flags.has tcpFlagRST = true)
    (hst : c.ctl.state = .synRcvd) (hs : c.ctl.synced = false) (hseq : seg.seq = c.env.irs + 1) :
    (c.onInbound seg).ctl.state = .closed := by
  have hnum : c.ackNum = c.env.irs + 1 := by rw [ackNum, hs, if_neg (by simp)]
  have hseg : c.handleSegment seg = c.handleRST := by
    rw [handleSegment_bare hopts, if_pos hrst, handleRSTSegment, if_neg (by simp [hst]),
      if_pos (hseq.trans hnum.symm)]
  have hsynced : c.handleRST.ctl.synced = false := (Quiet.handleRST c).synced.trans hs
  rw [onInbound_early (by rw [hseg]; exact hsynced), hseg, handleRST_ctl]
  exact Ctl.finish_state fun _ => rfl

/-- In SYN_RCVD, an ACK of something not sent closes the connection. -/
theorem ack_closes (hopts : seg.options = []) (hrst : seg.flags.has tcpFlagRST = false)
    (hack : seg.flags.has tcpFlagACK = true) (hst : c.ctl.state = .synRcvd)
    (hs : c.ctl.synced = false) (hseq : seg.seq = c.env.irs + 1)
    (hwnd : 0 < c.env.cfg.receiveWindowSize.toUInt32) (hnum : seg.ack ≠ c.env.iss + 1) :
    (c.onInbound seg).ctl.state = .closed := by
  have hin : ¬seg.seq - (c.env.irs + 1) ≥ c.env.cfg.receiveWindowSize.toUInt32 := by
    rw [hseq, UInt32.sub_self, ge_iff_le, UInt32.not_le]
    exact hwnd
  have hseg : c.handleSegment seg = (c.sendRSTSegment seg.ack).handleRST := by
    rw [handleSegment_bare hopts, if_neg (by simp [hrst]), if_neg (fun h => h.2 hst), dispatch, hst]
    dsimp only
    rw [handleSynRcvd, if_pos hack, if_neg hin, if_pos hnum]
  have hsynced : (c.sendRSTSegment seg.ack).handleRST.ctl.synced = false :=
    ((Quiet.sendRSTSegment c _).trans (.handleRST _)).synced.trans hs
  rw [onInbound_early (by rw [hseg]; exact hsynced), hseg, handleRST_ctl]
  exact Ctl.finish_state fun _ => rfl

/-- In ESTABLISHED, a SYN is answered by an ACK that tells the window. -/
theorem lastWndZero_onInbound (hopts : seg.options = []) (hrst : seg.flags.has tcpFlagRST = false)
    (hsyn : seg.flags.has tcpFlagSYN = true) (hst : c.ctl.state = .established)
    (hpend : c.ctl.finPending = false) :
    (c.onInbound seg).wire.lastWndZero = (c.ackWnd == 0) := by
  have hseg : c.handleSegment seg = c.sendACK := by
    rw [handleSegment_bare hopts, if_neg (by simp [hrst]), if_pos ⟨hsyn, by simp [hst]⟩]
  have hpend' : c.sendACK.manageRTO.ctl.finPending = false := by
    rw [manageRTO_ctl]
    exact hpend
  rw [onInbound, hseg, drainForFIN, if_neg (by simp [hpend']), manageRTO, armRTO]
  split_ifs <;> rfl

/-- In ESTABLISHED any segment starts the keepalive count afresh. -/
theorem keepaliveProbes_onInbound (hopts : seg.options = []) (hrst : seg.flags.has tcpFlagRST = false)
    (hack : seg.flags.has tcpFlagACK = false) (hsyn : seg.flags.has tcpFlagSYN = false)
    (hst : c.ctl.state = .established) (hpend : c.ctl.finPending = false) :
    (c.onInbound seg).timers.keepaliveProbes = 0 := by
  have hseg : c.handleSegment seg = (c.resetKeepalive.takePayload seg).establishedFIN seg := by
    rw [handleSegment_bare hopts, if_neg (by simp [hrst]), if_neg (by simp [hsyn]), dispatch, hst]
    dsimp only
    rw [handleEstablished, establishedACK, if_neg (by simp [hack])]
  have hdata : (c.resetKeepalive.takePayload seg).timers.keepaliveProbes = 0 := by
    obtain ⟨c₁, hfed, he | ⟨-, -, he⟩⟩ := took_takePayload c.resetKeepalive seg
    · rw [he, hfed.timers]; rfl
    · rw [he]
      show c₁.timers.keepaliveProbes = 0
      rw [hfed.timers]; rfl
  have hack' : ∀ d : TCPConn, (d.scheduleACK seg).timers.keepaliveProbes = d.timers.keepaliveProbes := by
    intro d
    rw [scheduleACK]
    split_ifs <;> rfl
  have hfin : (c.handleSegment seg).timers.keepaliveProbes = 0 := by
    rw [hseg, establishedFIN]
    split_ifs
    · exact hdata
    · rw [hack']; exact hdata
    · rw [hack']; exact hdata
  have hrto : (c.handleSegment seg).manageRTO.timers = (c.handleSegment seg).timers := by
    rw [manageRTO, armRTO]
    split_ifs <;> rfl
  have hpend' : (c.handleSegment seg).manageRTO.ctl.finPending = false := by
    rw [manageRTO_ctl, hseg, ((RxOnly.takePayload _ seg).trans (.establishedFIN _ seg)).finPending]
    exact hpend
  rw [onInbound, drainForFIN, if_neg (by simp [hpend']), hrto]
  exact hfin

end

theorem options_parseSeg {data : List UInt8} (h : data.length < 2 ^ 16) (hm : Malformed data) :
    (parseSeg data h).options = [] := by
  rw [parseSeg, TCP.options, if_pos]
  exact hm.imp_left fun hlt => hlt.le

/-- A new connection whose peer starts after `irs`, on our number `iss`. -/
def freshSys (irs iss : UInt32) : Sys :=
  Sys.start (Sys.sampleHandler 8 4) irs iss [] Sys.sampleHandler_read_pos Sys.sampleHandler_write_pos

theorem reach_freshSys (irs iss : UInt32) :
    Reach Sys.Init Sys.step (fun _ _ => True) (freshSys irs iss) :=
  .start (Sys.init_iff.2 ⟨_, _, _, _, _, _, ⟨(Sys.sampleHandler 8 4).cfg, rfl⟩, rfl⟩)

/-- A state found by running a list of events. -/
theorem exists_state (P : Sys → Prop) [DecidablePred P] (es : List Event)
    (h : (exec Sys.step (fun _ _ => true = true) Sys.sample es).any (fun s => P s) = true) :
    ∃ s, Reach Sys.Init Sys.step (fun _ _ => True) s ∧ P s := by
  obtain ⟨s, hr, hs⟩ := Sys.exists_reach Sys.init_sample (fun _ _ => true) P es h
  exact ⟨s, hr.mono fun _ _ _ => trivial, hs⟩

/-- Whatever a malformed packet says, some connection does not take it untouched. -/
theorem malformed_touches {data : List UInt8} (h : data.length < 2 ^ 16) (hm : Malformed data) :
    ∃ s s', Reach Sys.Init Sys.step (fun _ _ => True) s ∧
      s.step (.inbound (parseSeg data h)) = some s' ∧ ¬Untouched s.conn s'.conn := by
  have hopts := options_parseSeg h hm
  generalize parseSeg data h = seg at hopts
  cases hrst : seg.flags.has tcpFlagRST with
  | true =>
    refine ⟨freshSys (seg.seq - 1) 0, _, reach_freshSys _ _, Sys.step_inbound rfl rfl, fun hu => ?_⟩
    have hclosed := rst_closes (c := (freshSys (seg.seq - 1) 0).conn) hopts hrst rfl rfl
      (UInt32.sub_add_cancel _ _).symm
    rw [hu.view.1] at hclosed
    cases hclosed
  | false =>
  cases hack : seg.flags.has tcpFlagACK with
  | true =>
    refine ⟨freshSys (seg.seq - 1) seg.ack, _, reach_freshSys _ _, Sys.step_inbound rfl rfl,
      fun hu => ?_⟩
    have hclosed := ack_closes (c := (freshSys (seg.seq - 1) seg.ack).conn) hopts hrst hack rfl rfl
      (UInt32.sub_add_cancel _ _).symm
      (by decide : (0 : UInt32) < (Sys.sampleHandler 8 4).cfg.receiveWindowSize.toUInt32)
      (fun he => absurd (UInt32.left_eq_add.1 he) (by decide))
    rw [hu.view.1] at hclosed
    cases hclosed
  | false =>
  cases hsyn : seg.flags.has tcpFlagSYN with
  | true =>
    -- `readBuf` is full, and the peer has not been told
    obtain ⟨s, hr, hfault, hrun, hst, hpend, hzero, hlast⟩ := exists_state
      (fun s => s.conn.fault = none ∧ s.conn.ctl.running = true ∧ s.conn.ctl.state = .established ∧
        s.conn.ctl.finPending = false ∧ s.conn.ackWnd = 0 ∧ s.conn.wire.lastWndZero = false)
      [Sys.sampleACK, .inbound (Sys.sampleSegment tcpFlagACK 101 201 1000 [1, 2, 3, 4, 5, 6, 7, 8])]
      (by decide +kernel)
    refine ⟨s, _, hr, Sys.step_inbound hfault hrun, fun hu => ?_⟩
    have htold := lastWndZero_onInbound hopts hrst hsyn hst hpend
    rw [hu.view.2.2, hzero, hlast] at htold
    cases htold
  | false =>
    -- a keepalive probe has not been answered
    obtain ⟨s, hr, hfault, hrun, hst, hpend, hprobes⟩ := exists_state
      (fun s => s.conn.fault = none ∧ s.conn.ctl.running = true ∧ s.conn.ctl.state = .established ∧
        s.conn.ctl.finPending = false ∧ s.conn.timers.keepaliveProbes = 1)
      [Sys.sampleACK, .keepaliveTimer] (by decide +kernel)
    refine ⟨s, _, hr, Sys.step_inbound hfault hrun, fun hu => ?_⟩
    have hnone := keepaliveProbes_onInbound hopts hrst hack hsyn hst hpend
    rw [hu.view.2.1, hprobes] at hnone
    cases hnone

/-- CORRECT exactly for a legal data offset: a packet that reaches a connection leaves every
    connection untouched if it is malformed, and has the bytes from its data offset on, and no others,
    delivered if it is not, iff it is not malformed. -/
theorem header_bytes_iff {ipHdr data : List UInt8} {e : Event} (h : data.length < 2 ^ 16)
    (he : TCPHandler.handlePacket ipHdr data h = some e) :
    (∀ s s', Reach Sys.Init Sys.step (fun _ _ => True) s → s.step e = some s' →
      KeepsHeader data (parseSeg data h) s.conn s'.conn) ↔
    tcpMinHeaderSize ≤ (TCP.dataOffset data).toNat ∧ (TCP.dataOffset data).toNat ≤ data.length := by
  have hlegal : ¬Malformed data ↔ tcpMinHeaderSize ≤ (TCP.dataOffset data).toNat ∧
      (TCP.dataOffset data).toNat ≤ data.length := by
    rw [Malformed, not_or, not_lt, not_lt]
  obtain rfl : .inbound (parseSeg data h) = e := by
    rw [TCPHandler.handlePacket] at he
    split at he
    · exact Option.some.inj he
    · cases he
  rw [← hlegal]
  refine ⟨fun hall hm => ?_, fun hok s s' hr hs => keepsHeader_of_legal h hok hr hs⟩
  obtain ⟨s, s', hr, hs, htouched⟩ := malformed_touches h hm
  exact htouched ((hall s s' hr hs).malformed hm)

/-- An IPv4 header of a packet of `len` bytes. -/
def sampleIPv4 (len : UInt8) : List UInt8 :=
  [0x45, 0, 0, len, 0, 0, 0, 0, 64, 6, 0, 0, 10, 0, 0, 2, 10, 0, 0, 1]

/-- A TCP segment, with a data offset of `words` words, that `Sys.sample` takes for its next data. -/
def sampleTCP (words : UInt8) (payload : List UInt8) : List UInt8 :=
  setTCPChecksum (TCP.encode ⟨1234, 80, 101, 201, words, tcpFlagACK, 1000, 0, 0⟩ ++ payload)
    0x0a000002 0x0a000001

/-- Five words of header and two bytes of data. -/
theorem header_bytes_legal :
    ∃ e, TCPHandler.handlePacket (sampleIPv4 42) (sampleTCP 5 [7, 8]) (by decide +kernel) = some e ∧
    ∀ s s', Reach Sys.Init Sys.step (fun _ _ => True) s → s.step e = some s' →
      KeepsHeader (sampleTCP 5 [7, 8]) (parseSeg (sampleTCP 5 [7, 8]) (by decide +kernel))
        s.conn s'.conn := by
  refine ⟨_, rfl, ?_⟩
  exact (@header_bytes_iff (sampleIPv4 42) _ _ (by decide +kernel) rfl).2 (by decide +kernel)

/-- A data offset of zero makes the header data. -/
theorem header_delivered : ∃ e s s',
    TCPHandler.handlePacket (sampleIPv4 40) (sampleTCP 0 []) (by decide +kernel) = some e ∧
    Malformed (sampleTCP 0 []) ∧ Reach Sys.Init Sys.step (fun _ _ => True) s ∧
    s.step e = some s' ∧ s.conn.rx.delivered = [] ∧
    s'.conn.rx.delivered = (sampleTCP 0 []).take 8 := by
  obtain ⟨s, s', hr, -, hs, hd, hd'⟩ := Sys.exists_step Sys.init_sample (fun _ _ => true)
    (fun s s' => s.conn.rx.delivered = [] ∧ s'.conn.rx.delivered = (sampleTCP 0 []).take 8)
    [Sys.sampleACK] (.inbound (parseSeg (sampleTCP 0 []) (by decide +kernel))) (by decide +kernel)
  exact ⟨_, s, s', rfl, by decide +kernel, hr.mono fun _ _ _ => trivial, hs, hd, hd'⟩

end Netstack.Tcp
