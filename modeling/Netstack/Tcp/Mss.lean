import Netstack.Tcp.SendStream

/-! The segment size of a connection.

    `newSender` takes the smaller of the local and the peer's MSS; `handleSynRcvd` then subtracts the
    12 bytes of the timestamp option. The result is fixed by the SYN, and everything the send side
    needs of it, that its loops end, its slices are in range and its segments are not empty, rests on
    its being positive. -/

namespace Netstack.Tcp
open Netstack.Header Netstack.Trace

/-- The `snd.mss` the handshake ends with, which depends on the SYN and the MTU only. -/
def Env.senderMSS (env : Env) : ℤ :=
  let mss := (newSender env.iss 0 env.sndWndScale env.handler.mtu env.peerMSS env.cfg).mss
  if env.tsEnabled then mss - 12 else mss

namespace TCPConn

theorem handshakeSender_mss (c : TCPConn) (seg : Segment) :
    (c.handshakeSender seg).mss = c.env.senderMSS := by
  rw [handshakeSender, Env.senderMSS]
  split <;> rfl

/-- The sender has the size the handshake gave it. -/
def MSSFixed (env : Env) (c : TCPConn) : Prop :=
  c.env = env ∧ (c.ctl.synced = true → c.tx.snd.mss = env.senderMSS)

theorem Sends.mssFixed {env : Env} {c c' : TCPConn} (h : Sends c c') (hc : MSSFixed env c) :
    MSSFixed env c' := by
  induction h with
  | refl => exact hc
  | transmits _ ht ih => exact ⟨ht.env.trans ih.1, by rw [ht.synced, ht.mss]; exact ih.2⟩
  | silent _ he ih =>
    simp only [sendCore, Prod.mk.injEq] at he
    obtain ⟨henv, -, hsync, hsnd, -⟩ := he
    exact ⟨henv.trans ih.1, by rw [hsync, hsnd]; exact ih.2⟩
  | @opened c₁ seg _ _ ih =>
    have hr := opened_rxOnly c₁ seg
    have henv : (c₁.updateTSRecent seg).env = env := (RxOnly.updateTSRecent c₁ seg).env.trans ih.1
    refine ⟨hr.env.trans henv, fun _ => ?_⟩
    have hmss : (c₁.opened seg).tx.snd.mss = ((c₁.updateTSRecent seg).establish seg).tx.snd.mss :=
      congrArg (fun t : Tx => t.snd.mss) hr.tx
    rw [hmss, ← henv]
    exact handshakeSender_mss _ seg
  | fin _ _ ih => exact ih
  | copy _ _ ih => exact ih

end TCPConn

open TCPConn

/-- The run of the connection that a SYN with these options creates. -/
def AfterSYN (h : TCPHandler) (irs iss : UInt32) (options : List UInt8) (s : Sys) : Prop :=
  s.Init ∧ h.handleSYN irs iss options = some s.conn

theorem AfterSYN.env {h : TCPHandler} {irs iss : UInt32} {options : List UInt8} {s : Sys}
    (hs : AfterSYN h irs iss options s) :
    s.conn.env = h.synEnv irs iss options ∧ s.conn.ctl.synced = false := by
  have hsyn := hs.2
  rw [TCPHandler.handleSYN] at hsyn
  split_ifs at hsyn
  rw [← Option.some.inj hsyn]
  exact ⟨rfl, rfl⟩

theorem mss_of_syn {h : TCPHandler} {irs iss : UInt32} {options : List UInt8}
    {ok : Sys → Event → Prop} {s : Sys} (hr : Reach (AfterSYN h irs iss options) Sys.step ok s)
    (hs : s.conn.ctl.synced = true) :
    s.conn.tx.snd.mss = (h.synEnv irs iss options).senderMSS := by
  have hinv : MSSFixed (h.synEnv irs iss options) s.conn := by
    refine hr.invariant (I := fun s => MSSFixed _ s.conn) (fun s h₀ => ?_) fun s e s' hc _ he =>
      (Sys.step_inv he).2.sends.mssFixed hc
    exact ⟨h₀.env.1, fun hsync => absurd (h₀.env.2.symm.trans hsync) (by simp)⟩
  exact hinv.2 hs

/-- The size left after the handshake is positive unless timestamps take all of a small MSS. -/
theorem senderMSS_pos_iff (h : TCPHandler) (irs iss : UInt32) (options : List UInt8)
    (hmtu : 68 ≤ h.mtu) : 1 ≤ (h.synEnv irs iss options).senderMSS ↔
      (parseSynOptions options).tsEnabled = false ∨ (parseSynOptions options).mss = 0 ∨
        13 ≤ (parseSynOptions options).mss.toNat := by
  have hzero : ∀ m : UInt16, m = 0 ↔ m.toNat = 0 := fun m => by
    rw [← UInt16.toNat_inj]
    rfl
  simp only [Env.senderMSS, TCPHandler.synEnv, newSender, ipv4MinHeaderSize, tcpMinHeaderSize, hzero]
  cases (parseSynOptions options).tsEnabled
  · simp only [Bool.false_eq_true, if_false, true_or, iff_true]
    split_ifs <;> omega
  · simp only [if_true, Bool.true_eq_false, false_or]
    split_ifs <;> omega

/-- The send side works: full segments have a byte, no slice was out of range, no loop ran on, and
    every data segment recorded has a byte. -/
structure SegmentsHaveBytes (c : TCPConn) : Prop where
  mss : 1 ≤ c.tx.snd.mss
  sound : c.Sound
  data : ∀ e ∈ c.tx.snd.unacked, e.fin = false → e.data ≠ []

/-- SAFE, with the condition it needs: in every state after the handshake, the sender has a positive
    segment size, and its loops and slices and the segments it has recorded are in order, exactly if
    the SYN did not combine timestamps with an MSS of 1 to 12. -/
theorem segments_have_bytes_iff {h : TCPHandler} {irs iss : UInt32} {options : List UInt8}
    (hmtu : 68 ≤ h.mtu) {s : Sys}
    (hr : Reach (AfterSYN h irs iss options) Sys.step (fun _ _ => True) s)
    (hs : s.conn.ctl.synced = true) :
    SegmentsHaveBytes s.conn ↔
      (parseSynOptions options).tsEnabled = false ∨ (parseSynOptions options).mss = 0 ∨
        13 ≤ (parseSynOptions options).mss.toNat := by
  have hmss := mss_of_syn hr hs
  rw [← senderMSS_pos_iff h irs iss options hmtu, ← hmss]
  refine ⟨fun hb => hb.mss, fun hpos => ?_⟩
  have hinv := sendInv_reach (reach_positiveMSS (hr.mono_init fun _ h₀ => h₀.1) fun _ => hpos)
  obtain ⟨f, ⟨x, n, hsend⟩, -⟩ := hinv.sends hs
  refine ⟨hpos, hinv.sound hs, fun e he hfin hnil => ?_⟩
  have hwidth := hsend.chain.width_pos he
  rw [UnackedSegment.width, hfin, hnil] at hwidth
  exact absurd hwidth (by simp)

/-- The system after a SYN with `options`, on a small handler. -/
def Sys.sampleSYN (options : List UInt8) : Sys :=
  Sys.start (Sys.sampleHandler 8 4) 100 200 options Sys.sampleHandler_read_pos
    Sys.sampleHandler_write_pos

theorem exists_afterSYN (options : List UInt8) (P : Sys → Prop) [DecidablePred P] (es : List Event)
    (h : (exec Sys.step (fun _ _ => True) (Sys.sampleSYN options) es).any (fun s => P s) = true) :
    ∃ s, Reach (AfterSYN (Sys.sampleHandler 8 4) 100 200 options) Sys.step (fun _ _ => True) s ∧
      P s := by
  have hinit : (Sys.sampleSYN options).Init :=
    Sys.init_iff.2 ⟨_, _, _, _, _, _, ⟨(Sys.sampleHandler 8 4).cfg, rfl⟩, rfl⟩
  exact exists_reach_exec ⟨hinit, rfl⟩ es h

/-- A SYN without options: three bytes are written and sent in one segment. -/
theorem segments_have_bytes_plain : ∃ s : Sys,
    Reach (AfterSYN (Sys.sampleHandler 8 4) 100 200 []) Sys.step (fun _ _ => True) s ∧
    s.conn.tx.snd.unacked.map UnackedSegment.data = [[1, 2, 3]] ∧ SegmentsHaveBytes s.conn := by
  obtain ⟨s, hr, hs, hq⟩ := exists_afterSYN [] (fun s => s.conn.ctl.synced = true ∧
      s.conn.tx.snd.unacked.map UnackedSegment.data = [[1, 2, 3]])
    [Sys.sampleACK, .writeCall 0 [1, 2, 3], .writeCopy 0, .writeCopy 0, .writeReturn 0, .writeNotify]
    (by decide +kernel)
  exact ⟨s, hr, hq, (segments_have_bytes_iff (by decide) hr hs).2 (.inl (by decide))⟩

/-- A SYN with an MSS of 1 and timestamps: `snd.mss` is -11, and the first write makes `sendPending`
    slice its buffer with a negative bound. -/
theorem negative_mss_panics : ∃ s : Sys,
    Reach (AfterSYN (Sys.sampleHandler 8 4) 100 200 [2, 4, 0, 1, 8, 10, 0, 0, 0, 1, 0, 0, 0, 0])
      Sys.step (fun _ _ => True) s ∧
    s.conn.ctl.synced = true ∧ s.conn.tx.snd.mss = -11 ∧ s.conn.fault = some .sliceBounds :=
  exists_afterSYN [2, 4, 0, 1, 8, 10, 0, 0, 0, 1, 0, 0, 0, 0]
    (fun s => s.conn.ctl.synced = true ∧ s.conn.tx.snd.mss = -11 ∧ s.conn.fault = some .sliceBounds)
    [Sys.sampleACK, .writeCall 0 [1], .writeCopy 0, .writeCopy 0, .writeReturn 0, .writeNotify]
    (by decide +kernel)

end Netstack.Tcp
