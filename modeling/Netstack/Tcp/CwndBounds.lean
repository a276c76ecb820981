import Netstack.Tcp.Congestion
import Netstack.Tcp.LastAck

/-! Bounds on the congestion window.

    The window is an unsigned 32-bit number that is added to in four places. Nothing bounds it from
    above: every duplicate ACK in recovery adds a segment size, and so the sum wraps after enough of
    them. As long as the window is below 2^31 when an ACK comes in, every move is the one computed over
    the natural numbers, the window holds a full segment, and after the first loss the threshold holds
    two. -/

namespace Netstack.Tcp
open Netstack.Header Netstack.Trace Netstack.Simulation

namespace Congestion

/-! ### Moves over the natural numbers -/

/-- The window and the threshold move as intended, computed without any modulus. -/
inductive Move (k k' : Congestion) : Prop
  | same (hcwnd : k'.cwnd = k.cwnd) (hss : k'.ssthresh = k.ssthresh)
  | slowStart (acked : ℕ) (hcwnd : k'.cwnd.toNat = min (k.cwnd.toNat + acked) k.ssthresh.toNat)
      (hss : k'.ssthresh = k.ssthresh)
  | avoidance (inc : ℕ) (hpos : 1 ≤ inc) (hcwnd : k'.cwnd.toNat = k.cwnd.toNat + inc)
      (hss : k'.ssthresh = k.ssthresh)
  | inflate (hcwnd : k'.cwnd.toNat = k.cwnd.toNat + k.mss.toNat) (hss : k'.ssthresh = k.ssthresh)
  | deflate (hcwnd : k'.cwnd = k.ssthresh) (hss : k'.ssthresh = k.ssthresh)
  | enter (hcwnd : k'.cwnd.toNat = k'.ssthresh.toNat + 3 * k.mss.toNat)
      (hss : k'.ssthresh.toNat = max (k.cwnd.toNat / 2) (2 * k.mss.toNat))
  | timeout (hcwnd : k'.cwnd.toNat = k.mss.toNat)
      (hss : k'.ssthresh.toNat = max (k.cwnd.toNat / 2) (2 * k.mss.toNat))

/-- The segment size is a possible one, the window holds a segment, and in recovery the threshold
    holds two. -/
structure Bounded (k : Congestion) : Prop where
  pos : 1 ≤ k.mss
  le : k.mss ≤ 1500
  cwnd : k.mss.toNat ≤ k.cwnd.toNat
  recovery : k.inRecovery = true → 2 * k.mss.toNat ≤ k.ssthresh.toNat

namespace Bounded

variable {k : Congestion}

theorem toNat_mul_size (h : Bounded k) {n : UInt32} (hn : n.toNat ≤ 3) :
    (n * k.size).toNat = n.toNat * k.mss.toNat := by
  have hsize : k.size.toNat = k.mss.toNat := by
    have hpos := h.pos
    have hle := h.le
    rw [size, UInt32.ofInt, UInt32.toNat_ofNat']
    omega
  have hle : k.mss.toNat ≤ 1500 := by have := h.le; omega
  have hmul : n.toNat * k.mss.toNat ≤ 3 * 1500 := Nat.mul_le_mul hn hle
  rw [UInt32.toNat_mul, hsize, Nat.mod_eq_of_lt (by omega)]

theorem toNat_size (h : Bounded k) : k.size.toNat = k.mss.toNat := by
  have := h.toNat_mul_size (n := 1) (by decide)
  simpa using this

theorem toNat_halved (h : Bounded k) :
    k.halved.toNat = max (k.cwnd.toNat / 2) (2 * k.mss.toNat) := by
  rw [halved, UInt32.toNat_max, UInt32.toNat_div, h.toNat_mul_size (by decide)]
  rfl

/-- A duplicate ACK. -/
theorem dupACK (h : Bounded k) (hc : k.cwnd.toNat < 2 ^ 31) (nxt : UInt32) :
    Move k (k.dupACK nxt) ∧ Bounded (k.dupACK nxt) := by
  have hle := h.le
  have hcwnd := h.cwnd
  have hhalf := h.toNat_halved
  rw [Congestion.dupACK]
  dsimp only
  split_ifs with hrec h2
  · have hsum : (k.cwnd + k.size).toNat = k.cwnd.toNat + k.mss.toNat := by
      rw [UInt32.toNat_add, h.toNat_size, Nat.mod_eq_of_lt (by omega)]
    refine ⟨.inflate hsum rfl, h.pos, h.le, ?_, h.recovery⟩
    show k.mss.toNat ≤ (k.cwnd + k.size).toNat
    omega
  · have hsum : (k.halved + 3 * k.size).toNat = k.halved.toNat + 3 * k.mss.toNat := by
      rw [UInt32.toNat_add, h.toNat_mul_size (by decide), show (3 : UInt32).toNat = 3 from rfl,
        Nat.mod_eq_of_lt (by omega)]
    refine ⟨.enter hsum hhalf, h.pos, h.le, ?_, fun _ => ?_⟩
    · show k.mss.toNat ≤ (k.halved + 3 * k.size).toNat
      omega
    · show 2 * k.mss.toNat ≤ k.halved.toNat
      omega
  · exact ⟨.same rfl rfl, h.pos, h.le, h.cwnd, h.recovery⟩

/-- The increment of congestion avoidance. -/
theorem increment_lt (h : Bounded k) {acked : UInt32} (hacked : acked.toNat < 2 ^ 31) :
    1 ≤ (k.increment acked).toNat ∧ (k.increment acked).toNat ≤ 2 ^ 31 := by
  have hpos : 1 ≤ k.cwnd.toNat := by
    have := h.pos
    have := h.cwnd
    omega
  rw [increment]
  split_ifs with hzero
  · exact ⟨le_rfl, by decide⟩
  · refine ⟨Nat.pos_of_ne_zero fun h0 => hzero (UInt32.toNat_inj.1 h0), ?_⟩
    have hprod := (k.size * acked).toNat_lt
    rw [UInt32.toNat_div]
    rcases Nat.lt_or_ge 1 k.cwnd.toNat with htwo | hone
    · calc (k.size * acked).toNat / k.cwnd.toNat
          ≤ (k.size * acked).toNat / 2 := Nat.div_le_div_left htwo (by omega)
        _ ≤ 2 ^ 31 := by omega
    · -- a window of one byte has segments of one byte
      have hmss : k.mss.toNat = 1 := by
        have := h.pos
        have := h.cwnd
        omega
      rw [show k.cwnd.toNat = 1 by omega, Nat.div_one, UInt32.toNat_mul, h.toNat_size, hmss]
      omega

/-- An ACK of new data. -/
theorem newACK (h : Bounded k) (hc : k.cwnd.toNat < 2 ^ 31) (ack : UInt32) {acked : UInt32}
    (hacked : acked.toNat < 2 ^ 31) :
    Move k (k.newACK ack acked) ∧ Bounded (k.newACK ack acked) := by
  have hpos := h.pos
  have hcwnd := h.cwnd
  obtain ⟨hinc1, hinc⟩ := h.increment_lt hacked
  rw [Congestion.newACK]
  split_ifs with hrec hslow hzero
  · have hss := h.recovery hrec
    refine ⟨.deflate rfl rfl, h.pos, h.le, ?_, fun _ => hss⟩
    show k.mss.toNat ≤ k.ssthresh.toNat
    omega
  · rw [UInt32.lt_iff_toNat_lt] at hslow
    have hsum : (min (k.cwnd + acked) k.ssthresh).toNat
        = min (k.cwnd.toNat + acked.toNat) k.ssthresh.toNat := by
      rw [UInt32.toNat_min, UInt32.toNat_add, Nat.mod_eq_of_lt (by omega)]
    refine ⟨.slowStart acked.toNat hsum rfl, h.pos, h.le, ?_, h.recovery⟩
    show k.mss.toNat ≤ (min (k.cwnd + acked) k.ssthresh).toNat
    omega
  · exact absurd (congrArg UInt32.toNat hzero) (by simp; omega)
  · have hsum : (k.cwnd + k.increment acked).toNat
        = k.cwnd.toNat + (k.increment acked).toNat := by
      rw [UInt32.toNat_add, Nat.mod_eq_of_lt (by omega)]
    refine ⟨.avoidance _ hinc1 hsum rfl, h.pos, h.le, ?_, h.recovery⟩
    show k.mss.toNat ≤ (k.cwnd + k.increment acked).toNat
    omega

/-- A timeout. -/
theorem timeout (h : Bounded k) : Move k k.timeout ∧ Bounded k.timeout :=
  ⟨.timeout h.toNat_size h.toNat_halved, h.pos, h.le, le_of_eq h.toNat_size.symm,
    fun hrec => by cases hrec⟩

theorem onACK (h : Bounded k) (hc : k.cwnd.toNat < 2 ^ 31) (una nxt ack : UInt32) :
    Move k (k.onACK una nxt ack) ∧ Bounded (k.onACK una nxt ack) := by
  rw [Congestion.onACK]
  split_ifs with hdup hold
  · exact h.dupACK hc nxt
  · exact ⟨.same rfl rfl, h⟩
  · simp only [Bool.or_eq_true, Bool.not_eq_true', not_or, Bool.not_eq_false] at hold
    rw [seqGreaterThan, decide_eq_true_eq] at hold
    exact h.newACK hc ack ((Serial.toInt32_pos_iff _).1 hold.1).2

end Bounded

/-! ### The threshold -/

/-- The threshold holds two segments. -/
def Reduced (k : Congestion) : Prop := 2 * k.mss.toNat ≤ k.ssthresh.toNat

theorem dupACK_reduced {k : Congestion} (h : Bounded k) (nxt : UInt32) (hr : Reduced k) :
    Reduced (k.dupACK nxt) := by
  have hhalf := h.toNat_halved
  rw [dupACK]
  dsimp only
  split_ifs
  · exact hr
  · show 2 * k.mss.toNat ≤ k.halved.toNat
    omega
  · exact hr

theorem newACK_keeps (k : Congestion) (ack acked : UInt32) :
    (k.newACK ack acked).mss = k.mss ∧ (k.newACK ack acked).ssthresh = k.ssthresh ∧
      ((k.newACK ack acked).inRecovery = true → k.inRecovery = true) := by
  rw [newACK]
  split_ifs with hrec
  · exact ⟨rfl, rfl, fun _ => hrec⟩
  · exact ⟨rfl, rfl, id⟩
  · exact ⟨rfl, rfl, id⟩
  · exact ⟨rfl, rfl, id⟩

theorem onACK_reduced {k : Congestion} (h : Bounded k) (una nxt ack : UInt32) (hr : Reduced k) :
    Reduced (k.onACK una nxt ack) := by
  rw [onACK]
  split_ifs
  · exact dupACK_reduced h nxt hr
  · exact hr
  · obtain ⟨hmss, hss, -⟩ := newACK_keeps k ack (ack - una)
    rw [Reduced, hmss, hss]
    exact hr

theorem timeout_reduced {k : Congestion} (h : Bounded k) : Reduced k.timeout := by
  have hhalf := h.toNat_halved
  show 2 * k.mss.toNat ≤ k.halved.toNat
  omega

theorem onACK_mss (k : Congestion) (una nxt ack : UInt32) : (k.onACK una nxt ack).mss = k.mss := by
  rw [onACK, dupACK]
  split_ifs
  · rfl
  · rfl
  · rfl
  · rfl
  · exact (newACK_keeps k ack _).1

end Congestion

/-! ### The connection -/

/-- The window is below 2^31 before the step. -/
def KeepsCwnd (s : Sys) (_ : Event) : Prop :=
  1 ≤ s.conn.tx.snd.mss → s.conn.tx.snd.cwnd.toNat < 2 ^ 31

/-- A loss event: a timeout with something to retransmit, or the entry into fast recovery. -/
def LossEvent (s : Sys) (e : Event) (s' : Sys) : Prop :=
  e = .rtoTimer ∧ s.conn.timesOut = true ∨
    s.conn.tx.snd.inRecovery = false ∧ s'.conn.tx.snd.inRecovery = true

/-- Before the handshake there is no segment size. -/
def Unsized (c : TCPConn) : Prop := c.ctl.synced = false → c.tx.snd.mss = 0

theorem TCPConn.Sends.unsized {c c' : TCPConn} (h : Sends c c') (hc : Unsized c) : Unsized c' := by
  induction h with
  | refl => exact hc
  | transmits _ ht ih =>
    rw [Unsized, ht.synced, ht.mss]
    exact ih
  | silent _ he ih =>
    simp only [TCPConn.sendCore, Prod.mk.injEq] at he
    obtain ⟨-, -, hsync, hsnd, -⟩ := he
    rw [Unsized, hsync, hsnd]
    exact ih
  | @opened c₁ seg _ _ _ =>
    intro hs
    have hsync : (c₁.opened seg).ctl.synced = true := (TCPConn.opened_rxOnly c₁ seg).synced
    exact absurd (hsync.symm.trans hs) (by simp)
  | fin _ _ ih => exact ih
  | copy _ _ ih => exact ih

theorem unsized_reach {ok : Sys → Event → Prop} {s : Sys} (hr : Reach Sys.Init Sys.step ok s) :
    Unsized s.conn := by
  refine hr.invariant (I := fun s => Unsized s.conn) (fun s h => ?_) fun s e s' h _ hs =>
    (Sys.step_inv hs).2.sends.unsized h
  obtain ⟨h, irs, iss, options, hr, hw, -, rfl⟩ := Sys.init_iff.1 h
  exact fun _ => rfl

/-- A new sender's window holds a segment. -/
theorem bounded_opened (c : TCPConn) (seg : Segment) (hm : 1 ≤ (c.opened seg).congestion.mss) :
    (c.opened seg).congestion.Bounded := by
  have hk : (c.opened seg).congestion = ((c.updateTSRecent seg).establish seg).congestion :=
    (TCPConn.opened_rxOnly c seg).congestion
  rw [hk] at hm ⊢
  have hw : ((c.updateTSRecent seg).establish seg).Windows :=
    TCPConn.windows_handshake (c.updateTSRecent seg) seg hm rfl
  have hrec : ((c.updateTSRecent seg).establish seg).tx.snd.inRecovery = false := by
    obtain ⟨m, he⟩ := TCPConn.handshakeSender_eq (c.updateTSRecent seg) seg
    exact congrArg Sender.inRecovery he
  refine ⟨hm, hw.sizes.2, Int.toNat_le.2 hw.cwnd, fun h => ?_⟩
  exact absurd (hrec.symm.trans h) (by simp)

/-- A step of a connection with a segment size moves the window as computed over the natural numbers,
    and keeps the bounds and a threshold that holds two segments. -/
theorem sized_step {s s' : Sys} {e : Event} (hm : 1 ≤ s.conn.tx.snd.mss)
    (hb : s.conn.congestion.Bounded) (hun : Unsynced s.conn) (hsz : Unsized s.conn)
    (hok : KeepsCwnd s e) (hstep : Sys.Step s e s') :
    s.conn.congestion.Move s'.conn.congestion ∧ s'.conn.congestion.Bounded ∧
      (s.conn.congestion.Reduced → s'.conn.congestion.Reduced) := by
  rcases hstep.congestion with he | ⟨seg, -, -, he⟩ | ⟨-, -, he⟩ | ⟨-, -, hst, -⟩
  · rw [he]
    exact ⟨.same rfl rfl, hb, id⟩
  · obtain ⟨hmove, hb'⟩ := hb.onACK (hok hm) s.conn.tx.snd.una s.conn.tx.snd.nxt seg.ack
    rw [he]
    exact ⟨hmove, hb', Congestion.onACK_reduced hb _ _ _⟩
  · rw [he]
    exact ⟨hb.timeout.1, hb.timeout.2, fun _ => Congestion.timeout_reduced hb⟩
  · -- there is no segment size before the handshake
    rw [hsz (hun hst)] at hm
    exact absurd hm (by decide)

/-- A loss event leaves a threshold that holds two segments. -/
theorem lossEvent_reduced {s s' : Sys} {e : Event} (hb : s.conn.congestion.Bounded)
    (hb' : s'.conn.congestion.Bounded) (hloss : LossEvent s e s') (hstep : Sys.Step s e s') :
    s'.conn.congestion.Reduced := by
  rcases hloss with ⟨rfl, hto⟩ | ⟨-, hin⟩
  · cases hstep
    have hk := TCPConn.onRTO_congestion s.conn
    rw [hto, if_pos rfl] at hk
    show (TCPConn.onRTO _).congestion.Reduced
    rw [hk]
    exact Congestion.timeout_reduced hb
  · exact hb'.recovery hin

theorem bounded_step {s s' : Sys} {e : Event} (hb : 1 ≤ s.conn.tx.snd.mss → s.conn.congestion.Bounded)
    (hun : Unsynced s.conn) (hsz : Unsized s.conn) (hok : KeepsCwnd s e) (hstep : Sys.Step s e s') :
    1 ≤ s'.conn.tx.snd.mss → s'.conn.congestion.Bounded := by
  intro hm'
  by_cases hm : 1 ≤ s.conn.tx.snd.mss
  · exact (sized_step hm (hb hm) hun hsz hok hstep).2.1
  · -- the handshake has just given the connection its segment size
    have hne : s'.conn.congestion.mss ≠ s.conn.congestion.mss := fun he =>
      hm (le_of_le_of_eq hm' he)
    rcases hstep.congestion with he | ⟨seg, -, -, he⟩ | ⟨-, -, he⟩ | ⟨seg, -, -, he⟩
    · exact absurd (congrArg Congestion.mss he) hne
    · exact absurd ((congrArg Congestion.mss he).trans (Congestion.onACK_mss ..)) hne
    · exact absurd (congrArg Congestion.mss he) hne
    · rw [he]
      refine bounded_opened _ seg ?_
      rw [← he]
      exact hm'

theorem bounded_reach {s : Sys} (hr : Reach Sys.Init Sys.step KeepsCwnd s) :
    1 ≤ s.conn.tx.snd.mss → s.conn.congestion.Bounded := by
  induction hr with
  | start h =>
    obtain ⟨h, irs, iss, options, hr, hw, -, rfl⟩ := Sys.init_iff.1 h
    exact fun hm => absurd (show (1 : ℤ) ≤ 0 from hm) (by decide)
  | next hr hok hs ih =>
    exact bounded_step ih (unsynced_reach hr) (unsized_reach hr) hok (Sys.step_inv hs).2

/-- SAFE, while the window is below 2^31 before each step: the window holds a full segment, every step
    moves it as computed over the natural numbers, and from the first loss event on the threshold holds
    two segments. -/
theorem cwnd_bounds {s : Sys} (hr : Reach Sys.Init Sys.step KeepsCwnd s)
    (hm : 1 ≤ s.conn.tx.snd.mss) :
    s.conn.tx.snd.mss ≤ s.conn.tx.snd.cwnd.toNat ∧
    (∀ e s', KeepsCwnd s e → s.step e = some s' →
      s.conn.congestion.Move s'.conn.congestion) ∧
    (∀ e s₁ es s₂, KeepsCwnd s e → s.step e = some s₁ → LossEvent s e s₁ →
      Run Sys.step KeepsCwnd s₁ es s₂ → 2 * s₂.conn.tx.snd.mss ≤ s₂.conn.tx.snd.ssthresh.toNat) := by
  have hb := bounded_reach hr hm
  have hun := unsynced_reach hr
  have hsz := unsized_reach hr
  refine ⟨Int.toNat_le.1 hb.cwnd, fun e s' hok hs =>
    (sized_step hm hb hun hsz hok (Sys.step_inv hs).2).1, ?_⟩
  intro e s₁ es s₂ hok hs hloss hrun
  obtain ⟨-, hb₁, -⟩ := sized_step hm hb hun hsz hok (Sys.step_inv hs).2
  have hred := lossEvent_reduced hb hb₁ hloss (Sys.step_inv hs).2
  have hend : s₂.conn.congestion.Bounded ∧ s₂.conn.congestion.Reduced := by
    have hr₁ : Reach Sys.Init Sys.step KeepsCwnd s₁ := hr.next hok hs
    clear hs hloss hok
    induction hrun with
    | nil => exact ⟨hb₁, hred⟩
    | cons hok hs _ ih =>
      obtain ⟨-, hb', hkeep⟩ := sized_step hb₁.pos hb₁ (unsynced_reach hr₁) (unsized_reach hr₁) hok
        (Sys.step_inv hs).2
      exact ih hb' (hkeep hred) (hr₁.next hok hs)
  have h2 : 2 * s₂.conn.tx.snd.mss.toNat ≤ s₂.conn.tx.snd.ssthresh.toNat := hend.2
  have hpos : 1 ≤ s₂.conn.tx.snd.mss := hend.1.pos
  omega

/-- The third of three duplicate ACKs is a loss event; the window holds a segment before it, and the
    threshold two after it. -/
theorem cwnd_bounds_third_dup : ∃ s s₁ : Sys, Reach Sys.Init Sys.step KeepsCwnd s ∧
    LossEvent s Sys.sampleACK s₁ ∧ s.conn.tx.snd.mss ≤ s.conn.tx.snd.cwnd.toNat ∧
    s.conn.congestion.Move s₁.conn.congestion ∧
    2 * s₁.conn.tx.snd.mss ≤ s₁.conn.tx.snd.ssthresh.toNat := by
  obtain ⟨s, s₁, hr, hok, hstep, hm, hout, hin⟩ := Sys.exists_step Sys.init_sample
    (fun s _ => decide (s.conn.tx.snd.cwnd.toNat < 2 ^ 31))
    (fun s s₁ => 1 ≤ s.conn.tx.snd.mss ∧ s.conn.tx.snd.inRecovery = false ∧
      s₁.conn.tx.snd.inRecovery = true)
    [Sys.sampleACK, Sys.sampleACK, Sys.sampleACK] Sys.sampleACK (by decide +kernel)
  have hr' : Reach Sys.Init Sys.step KeepsCwnd s := hr.mono fun s e hok _ => by simpa using hok
  have hok' : KeepsCwnd s Sys.sampleACK := fun _ => by simpa using hok
  obtain ⟨hge, hmove, hred⟩ := cwnd_bounds hr' hm
  exact ⟨s, s₁, hr', .inr ⟨hout, hin⟩, hge, hmove _ _ hok' hstep,
    hred _ _ _ _ hok' hstep (.inr ⟨hout, hin⟩) (.nil s₁)⟩

/-! ### A window that wraps -/

namespace TCPConn

variable {c : TCPConn} {seg : Segment}

/-- On an established connection, a segment that carries an acknowledgment and a window and nothing
    else. -/
structure BareACK (c : TCPConn) (seg : Segment) : Prop where
  state : c.ctl.state = .established
  synced : c.ctl.synced = true
  ts : c.env.tsEnabled = false
  flags : seg.flags = tcpFlagACK
  options : seg.options = []
  payload : seg.payload = []

namespace BareACK

theorem timestamp (h : BareACK c seg) : seg.timestamp c.env = none := by
  rw [Segment.timestamp, h.ts]
  rfl

theorem processACK (h : BareACK c seg) :
    c.processACK seg = (c.setWnd seg).noteMaxWnd.handleACK seg.ack := by
  have hrttm : (c.setWnd seg).noteMaxWnd.measureRTTM seg = (c.setWnd seg).noteMaxWnd := by
    have ht : seg.timestamp (c.setWnd seg).noteMaxWnd.env = none := h.timestamp
    rw [TCPConn.measureRTTM, ht]
  have hsack : ∀ c : TCPConn, c.handleSACK seg = c := by
    intro c
    rw [TCPConn.handleSACK, h.options]
    exact if_neg (by simp)
  rw [TCPConn.processACK, hrttm, hsack]

/-- What follows `handleACK` does nothing if all data has been sent by then. -/
theorem establishedACK (h : BareACK c seg) (hp : c.tx.zeroWindowProbing = false)
    (hempty : ((c.setWnd seg).noteMaxWnd.handleACK seg.ack).tx.writeBuf.len = 0) :
    c.establishedACK seg = (c.setWnd seg).noteMaxWnd.handleACK seg.ack := by
  have hgate := handleACK_gate (c.setWnd seg).noteMaxWnd seg.ack
  have hp' : ((c.setWnd seg).noteMaxWnd.handleACK seg.ack).tx.zeroWindowProbing = false :=
    (congrArg (fun g : UInt32 × Bool × Timer × Bool => g.2.1) hgate).trans hp
  rw [TCPConn.establishedACK, if_pos ⟨by rw [h.flags]; decide, h.synced⟩, h.processACK,
    TCPConn.sendOnUpdate, TCPConn.sendPending_of_empty hempty, ite_self, TCPConn.manageZeroWindow, hp',
    hempty]
  simp

theorem handleSegment (h : BareACK c seg) (hp : c.tx.zeroWindowProbing = false)
    (hempty : ((c.resetKeepalive.setWnd seg).noteMaxWnd.handleACK seg.ack).tx.writeBuf.len = 0) :
    c.handleSegment seg = (c.resetKeepalive.setWnd seg).noteMaxWnd.handleACK seg.ack := by
  have hkeep : BareACK c.resetKeepalive seg :=
    ⟨h.state, h.synced, h.ts, h.flags, h.options, h.payload⟩
  have hpaws : c.pawsDrop seg = false := by
    rw [TCPConn.pawsDrop, h.timestamp]
  have hts : c.updateTSRecent seg = c := by
    rw [TCPConn.updateTSRecent, h.timestamp]
  have hpay : ∀ c : TCPConn, c.takePayload seg = c := by
    intro c
    rw [TCPConn.takePayload, h.payload]
    exact ite_self c
  have hfin : ∀ c : TCPConn, c.establishedFIN seg = c := by
    intro c
    have hflag : ¬(seg.flags.has tcpFlagFIN = true ∧ c.ctl.synced = true) := fun hf =>
      absurd hf.1 (by rw [h.flags]; decide)
    rw [TCPConn.establishedFIN, if_neg hflag, TCPConn.scheduleACK, h.payload]
    rfl
  rw [TCPConn.handleSegment, hpaws, hts, TCPConn.dispatch, h.state, h.flags]
  show TCPConn.handleEstablished c seg = _
  rw [TCPConn.handleEstablished, hpay, hfin]
  exact hkeep.establishedACK hp hempty

theorem onInbound (h : BareACK c seg) (hp : c.tx.zeroWindowProbing = false)
    (hfin : c.ctl.finPending = false)
    (hempty : ((c.resetKeepalive.setWnd seg).noteMaxWnd.handleACK seg.ack).tx.writeBuf.len = 0) :
    c.onInbound seg = ((c.resetKeepalive.setWnd seg).noteMaxWnd.handleACK seg.ack).manageRTO := by
  have hctl := (TxOnly.handleACK (c.resetKeepalive.setWnd seg).noteMaxWnd seg.ack).ctl
  have hfin' : ((c.resetKeepalive.setWnd seg).noteMaxWnd.handleACK seg.ack).manageRTO.ctl.finPending
      = false := by
    rw [TCPConn.manageRTO, TCPConn.armRTO]
    split_ifs <;> exact (congrArg Ctl.finPending hctl).trans hfin
  rw [TCPConn.onInbound, h.handleSegment hp hempty, TCPConn.drainForFIN, if_neg (by rw [hfin']; simp)]

end BareACK

end TCPConn

/-- A connection in recovery that has nothing to send, and that keeps getting the same ACK. -/
structure Inflating (c : TCPConn) (cwnd : UInt32) : Prop where
  state : c.ctl.state = .established
  synced : c.ctl.synced = true
  running : c.ctl.running = true
  finPending : c.ctl.finPending = false
  fault : c.fault = none
  ts : c.env.tsEnabled = false
  una : c.tx.snd.una = 201
  mss : c.tx.snd.mss = 536
  recovery : c.tx.snd.inRecovery = true
  cwnd : c.tx.snd.cwnd = cwnd
  probing : c.tx.zeroWindowProbing = false
  empty : c.tx.writeBuf.len = 0

/-- The ACK that comes again and again. -/
def dupSegment : Segment := Sys.sampleSegment tcpFlagACK 101 201 1000 [] Sys.length_nil_lt

namespace Inflating

variable {c : TCPConn} {w : UInt32}

theorem setWnd (h : Inflating c w) : Inflating (c.resetKeepalive.setWnd dupSegment).noteMaxWnd w :=
  ⟨h.state, h.synced, h.running, h.finPending, h.fault, h.ts, h.una, h.mss, h.recovery, h.cwnd,
    h.probing, h.empty⟩

theorem handleDupACK (h : Inflating c w) : Inflating c.handleDupACK (w + 536) := by
  have hempty : c.countDup.inflate.tx.writeBuf.len = 0 := h.empty
  have hcwnd : c.countDup.inflate.tx.snd.cwnd = w + 536 := by
    show c.tx.snd.cwnd + UInt32.ofInt c.tx.snd.mss = w + 536
    rw [h.cwnd, h.mss]
    rfl
  rw [TCPConn.handleDupACK, if_pos h.recovery, TCPConn.sendPending_of_empty hempty]
  exact ⟨h.state, h.synced, h.running, h.finPending, h.fault, h.ts, h.una, h.mss, h.recovery, hcwnd,
    h.probing, h.empty⟩

theorem manageRTO (h : Inflating c w) : Inflating c.manageRTO w := by
  rw [TCPConn.manageRTO, TCPConn.armRTO]
  split_ifs
  · exact h
  all_goals exact ⟨h.state, h.synced, h.running, h.finPending, h.fault, h.ts, h.una, h.mss, h.recovery,
    h.cwnd, h.probing, h.empty⟩

theorem onInbound (h : Inflating c w) : Inflating (c.onInbound dupSegment) (w + 536) := by
  have hbare : c.BareACK dupSegment := ⟨h.state, h.synced, h.ts, rfl, rfl, rfl⟩
  have hack : Inflating ((c.resetKeepalive.setWnd dupSegment).noteMaxWnd.handleACK dupSegment.ack)
      (w + 536) := by
    have hdup : dupSegment.ack = (c.resetKeepalive.setWnd dupSegment).noteMaxWnd.tx.snd.una :=
      h.setWnd.una.symm
    rw [TCPConn.handleACK, if_pos hdup]
    exact h.setWnd.handleDupACK
  rw [hbare.onInbound h.probing h.finPending hack.empty]
  exact hack.manageRTO

end Inflating

theorem Inflating.step {s : Sys} {w : UInt32} (h : Inflating s.conn w) :
    s.step (.inbound dupSegment) = some { s with conn := s.conn.onInbound dupSegment } := by
  simp [Sys.step, Sys.loopStep, Sys.onLoop, h.fault, h.running]

/-- After any number of such ACKs the window has grown by as many segments, modulo 2^32. -/
theorem inflating_reach {s : Sys} {w : UInt32} (hr : Reach Sys.Init Sys.step (fun _ _ => True) s)
    (h : Inflating s.conn w) : ∀ n : ℕ, ∃ s' : Sys, Reach Sys.Init Sys.step (fun _ _ => True) s' ∧
      Inflating s'.conn (w + 536 * UInt32.ofNat n)
  | 0 => ⟨s, hr, by simpa using h⟩
  | n + 1 => by
      obtain ⟨s', hr', h'⟩ := inflating_reach hr h n
      refine ⟨_, hr'.next trivial h'.step, ?_⟩
      have hnext := h'.onInbound
      rw [UInt32.ofNat_add, UInt32.mul_add, ← UInt32.add_assoc]
      exact hnext

/-- In recovery, 8012991 copies of an ACK add so many segments of 536 bytes to the window that it
    wraps: the last of them takes it to 168 bytes, less than one segment. -/
theorem cwnd_wraps : ∃ s s' : Sys, Reach Sys.Init Sys.step (fun _ _ => True) s ∧
    s.step (.inbound dupSegment) = some s' ∧ s.conn.tx.snd.mss = 536 ∧
    s.conn.tx.snd.cwnd.toNat = 2 ^ 32 - 368 ∧ s'.conn.tx.snd.mss = 536 ∧
    s'.conn.tx.snd.cwnd = 168 := by
  obtain ⟨s₀, hr₀, h₀⟩ := Sys.exists_reach Sys.init_sample (fun _ _ => true)
    (fun s => s.conn.ctl.state = .established ∧ s.conn.ctl.synced = true ∧
      s.conn.ctl.running = true ∧ s.conn.ctl.finPending = false ∧ s.conn.fault = none ∧
      s.conn.env.tsEnabled = false ∧ s.conn.tx.snd.una = 201 ∧ s.conn.tx.snd.mss = 536 ∧
      s.conn.tx.snd.inRecovery = true ∧ s.conn.tx.snd.cwnd = 4288 ∧
      s.conn.tx.zeroWindowProbing = false ∧ s.conn.tx.writeBuf.len = 0)
    [Sys.sampleACK, Sys.sampleACK, Sys.sampleACK, Sys.sampleACK] (by decide +kernel)
  obtain ⟨h1, h2, h3, h4, h5, h6, h7, h8, h9, h10, h11, h12⟩ := h₀
  obtain ⟨s, hr, h⟩ := inflating_reach (hr₀.mono fun _ _ _ => trivial)
    ⟨h1, h2, h3, h4, h5, h6, h7, h8, h9, h10, h11, h12⟩ 8012990
  have hnext := h.onInbound
  refine ⟨s, _, hr, h.step, h.mss, ?_, hnext.mss, ?_⟩
  · rw [h.cwnd]
    decide +kernel
  · rw [hnext.cwnd]
    decide +kernel

end Netstack.Tcp
