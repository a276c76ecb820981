import Netstack.Tcp.Congestion
import Netstack.Tcp.RtoDeadline

/-! One reduction of the congestion window for each window of data.

    The third duplicate ACK starts recovery and records `snd.nxt` as the recovery point; an ACK at or
    past that point ends it. As long as nothing else ends it, the next recovery starts with the point
    behind `snd.una`. A timeout is something else: it clears `inRecovery` and the count of duplicates
    and forgets the recovery point, so that duplicates of the old flight start a second recovery. -/

namespace Netstack.Tcp
open Netstack.Header Netstack.Serial Netstack.Trace

namespace Congestion

/-- The recovery state is the same. -/
def SameRecovery (k k' : Congestion) : Prop :=
  k'.inRecovery = k.inRecovery ∧ k'.recoveryPoint = k.recoveryPoint

/-- A duplicate leaves the recovery state alone, or starts a recovery. -/
theorem dupACK_recovery (k : Congestion) (nxt : UInt32) : k.SameRecovery (k.dupACK nxt) ∨
    k.inRecovery = false ∧ (k.dupACK nxt).inRecovery = true := by
  rw [dupACK]
  split_ifs with hrec
  · exact .inl ⟨rfl, rfl⟩
  · exact .inr ⟨by simpa using hrec, rfl⟩
  · exact .inl ⟨rfl, rfl⟩

/-- An ACK of new data leaves it alone, or ends a recovery whose point it has reached. -/
theorem newACK_recovery (k : Congestion) (ack acked : UInt32) : k.SameRecovery (k.newACK ack acked) ∨
    (k.newACK ack acked).inRecovery = false ∧ seqLessThan ack k.recoveryPoint = false := by
  rw [newACK]
  split_ifs with hrec
  · cases hpast : seqLessThan ack k.recoveryPoint with
    | true => exact .inl ⟨hrec.symm, rfl⟩
    | false => exact .inr ⟨rfl, rfl⟩
  all_goals exact .inl ⟨rfl, rfl⟩

end Congestion

namespace TCPConn

variable {c c' : TCPConn} {seg : Segment}

/-- The third duplicate ACK takes `c` into recovery. -/
def Enters (c c' : TCPConn) : Prop := c.tx.snd.inRecovery = false ∧ c'.tx.snd.inRecovery = true

instance (c c' : TCPConn) : Decidable (Enters c c') := inferInstanceAs (Decidable (_ ∧ _))

/-- What a segment after the handshake can be to the congestion state: nothing, a duplicate, or an ACK
    of new data, which then is the new `snd.una`. -/
theorem onInbound_moves (c : TCPConn) (seg : Segment) (hs : c.ctl.state ≠ .synRcvd) :
    (c.onInbound seg).congestion = c.congestion ∨
    (c.onInbound seg).congestion = c.congestion.dupACK c.tx.snd.nxt ∨
    (c.onInbound seg).congestion = c.congestion.newACK seg.ack (seg.ack - c.tx.snd.una) ∧
      (c.onInbound seg).tx.snd.una = seg.ack := by
  rw [onInbound_congestion, onInbound_una]
  obtain ⟨c₁, c₂, h₁, hack, h₂⟩ := AcksOnce.handleSegment c seg hs
  rw [congestion_of_ackState h₂.state, h₂.una]
  have hk₁ := congestion_of_ackState h₁.state
  rcases hack with rfl | rfl
  · exact .inl hk₁
  rw [handleACK_congestion, ackedCongestion_of_eq seg.ack hk₁ h₁.resends.una h₁.resends.nxt,
    ackedCongestion, Congestion.onACK]
  split_ifs with hdup hold
  · exact .inr (.inl rfl)
  · exact .inl rfl
  · refine .inr (.inr ⟨rfl, ?_⟩)
    rw [handleACK, h₁.resends.una, h₁.resends.nxt, if_neg hdup, if_neg hold]
    exact handleNewACK_una c₁ seg.ack

/-- No step leads back to the handshake. -/
theorem Sends.synRcvd (h : Sends c c') (hs : c'.ctl.state = .synRcvd) : c.ctl.state = .synRcvd := by
  induction h with
  | refl => exact hs
  | transmits _ ht ih => exact ih (ht.synRcvd hs)
  | silent _ he ih =>
    simp only [sendCore, Prod.mk.injEq] at he
    exact ih (he.2.1.symm.trans hs)
  | @opened c₁ seg _ hsyn ih => exact ih hsyn
  | fin _ hst _ => rcases hst with ⟨-, rfl⟩ | ⟨-, rfl⟩ <;> cases hs
  | copy _ _ ih => exact ih hs

end TCPConn

open TCPConn

/-! ### The recovery point that `snd.una` has still to reach -/

/-- The point recorded at the last entry into recovery, until `snd.una` is there. -/
def awaited (s s' : Sys) (point : Option UInt32) : Option UInt32 :=
  (if Enters s.conn s'.conn then some s'.conn.tx.snd.recoveryPoint else point).filter
    fun rp => seqLessThan s'.conn.tx.snd.una rp

/-- A connection at its start, with no recovery behind it. -/
def WatchedInit (w : Sys × Option UInt32) : Prop := Sys.Init w.1 ∧ w.2 = none

/-- Runs in which the awaited recovery point is kept beside the connection. -/
def WatchedRun (ok : Sys × Option UInt32 → Event → Prop) (w : Sys × Option UInt32) : Prop :=
  Reach WatchedInit (watch Sys.step awaited) ok w

/-- While a recovery point is awaited, the connection is in the recovery that recorded it. -/
structure Recovering (s : Sys) (rp : UInt32) : Prop where
  opened : s.conn.ctl.state ≠ .synRcvd
  inRecovery : s.conn.tx.snd.inRecovery = true
  point : s.conn.tx.snd.recoveryPoint = rp

/-- The retransmission timeout does not strike while a recovery point is awaited. -/
def NotCut (w : Sys × Option UInt32) (e : Event) : Prop :=
  e = .rtoTimer → w.1.conn.timesOut = true → w.2 = none

/-- How the recovery state moves in a step: it stays, the third duplicate enters it, an ACK at or past
    the recovery point leaves it, and so does a timeout. -/
theorem recovery_step {s s' : Sys} {e : Event} (h : Sys.Step s e s') :
    s.conn.congestion.SameRecovery s'.conn.congestion ∨
    (Enters s.conn s'.conn ∧ s.conn.ctl.state ≠ .synRcvd) ∨
    (s'.conn.tx.snd.inRecovery = false ∧
      (seqLessThan s'.conn.tx.snd.una s.conn.tx.snd.recoveryPoint = false ∨
        e = .rtoTimer ∧ s.conn.timesOut = true ∨ s.conn.ctl.state = .synRcvd)) := by
  rcases h.congestion with he | ⟨seg, rfl, hs, -⟩ | ⟨rfl, hto, he⟩ | ⟨seg, rfl, hs, he⟩
  · rw [he]
    exact .inl ⟨rfl, rfl⟩
  · have hconn : s'.conn = s.conn.onInbound seg := by
      cases h
      rfl
    rcases onInbound_moves s.conn seg hs with he | he | ⟨he, huna⟩ <;> rw [← hconn] at he
    · rw [he]
      exact .inl ⟨rfl, rfl⟩
    · rcases Congestion.dupACK_recovery s.conn.congestion s.conn.tx.snd.nxt with hk | ⟨hout, hin⟩
      · exact .inl (he ▸ hk)
      · exact .inr (.inl ⟨⟨hout, (congrArg Congestion.inRecovery he).trans hin⟩, hs⟩)
    · rcases Congestion.newACK_recovery s.conn.congestion seg.ack (seg.ack - s.conn.tx.snd.una) with
        hk | ⟨hout, hpast⟩
      · exact .inl (he ▸ hk)
      · refine .inr (.inr ⟨(congrArg Congestion.inRecovery he).trans hout, .inl ?_⟩)
        rw [hconn, huna]
        exact hpast
  · exact .inr (.inr ⟨congrArg Congestion.inRecovery he, .inr (.inl ⟨rfl, hto⟩)⟩)
  · refine .inr (.inr ⟨(congrArg Congestion.inRecovery he).trans ?_, .inr (.inr hs)⟩)
    obtain ⟨m, hm⟩ := handshakeSender_eq (s.conn.updateTSRecent seg) seg
    have hk : (s.conn.opened seg).congestion = ((s.conn.updateTSRecent seg).establish seg).congestion :=
      (opened_rxOnly s.conn seg).congestion
    rw [hk]
    exact congrArg Sender.inRecovery hm

theorem recovering_step {w w' : Sys × Option UInt32} {e : Event} (h : ∀ rp, w.2 = some rp → Recovering w.1 rp)
    (hok : NotCut w e) (hstep : watch Sys.step awaited w e = some w') :
    ∀ rp, w'.2 = some rp → Recovering w'.1 rp := by
  intro rp hrp
  obtain ⟨hs, hg⟩ := watch_eq_some.1 hstep
  have hstep' := (Sys.step_inv hs).2
  have hopen : w.1.conn.ctl.state ≠ .synRcvd → w'.1.conn.ctl.state ≠ .synRcvd := fun hne he =>
    hne (hstep'.sends.synRcvd he)
  rw [hg, awaited, Option.filter_eq_some_iff] at hrp
  obtain ⟨hsome, hshort⟩ := hrp
  by_cases hin : Enters w.1.conn w'.1.conn
  · rw [if_pos hin] at hsome
    rcases recovery_step hstep' with ⟨he, -⟩ | ⟨-, hst⟩ | ⟨he, -⟩
    · exact absurd (hin.2.symm.trans (he.trans hin.1)) (by simp)
    · exact ⟨hopen hst, hin.2, Option.some.inj hsome⟩
    · exact absurd (hin.2.symm.trans he) (by simp)
  · rw [if_neg hin] at hsome
    have hw := h rp hsome
    rcases recovery_step hstep' with ⟨he, hpt⟩ | ⟨hent, -⟩ | ⟨-, hpast | ⟨hto, ht⟩ | hst⟩
    · exact ⟨hopen hw.opened, he.trans hw.inRecovery, hpt.trans hw.point⟩
    · exact absurd hent hin
    · rw [hw.point] at hpast
      exact absurd (hshort.symm.trans hpast) (by simp)
    · rw [hok hto ht] at hsome
      cases hsome
    · exact absurd hst hw.opened

theorem recovering_reach {w : Sys × Option UInt32} (hr : WatchedRun NotCut w) :
    ∀ rp, w.2 = some rp → Recovering w.1 rp := by
  refine hr.invariant (I := fun w => ∀ rp, w.2 = some rp → Recovering w.1 rp) (fun w h rp hrp => ?_)
    fun _ _ _ h hok hs => recovering_step h hok hs
  rw [h.2] at hrp
  cases hrp

/-- SAFE, while no timeout strikes before `snd.una` has reached the last recovery point: whenever
    the third duplicate ACK starts recovery, `snd.una` has reached the recovery point of the recovery
    before. -/
theorem recovery_point_reached {w w' : Sys × Option UInt32} {e : Event} (hr : WatchedRun NotCut w)
    (_hstep : watch Sys.step awaited w e = some w') (hin : Enters w.1.conn w'.1.conn) : w.2 = none := by
  cases hw : w.2 with
  | none => rfl
  | some rp =>
    have hrec := (recovering_reach hr rp hw).inRecovery
    rw [hin.1] at hrec
    cases hrec

/-- Executable form of `NotCut`. -/
def notCut (w : Sys × Option UInt32) (e : Event) : Bool :=
  !decide (e = .rtoTimer) || !w.1.conn.timesOut || w.2.isNone

theorem notCut_sound {w : Sys × Option UInt32} {e : Event} (h : notCut w e = true) : NotCut w e := by
  intro he hto
  simpa [notCut, he, hto] using h

/-- A step of a watched run found by running a list of events, and then `e`. -/
theorem exists_watched_step (ok : Sys × Option UInt32 → Event → Bool)
    (P : Sys × Option UInt32 → Sys × Option UInt32 → Prop) [∀ w w', Decidable (P w w')]
    (es : List Event) (e : Event)
    (h : (exec (watch Sys.step awaited) (fun w e => ok w e = true) (Sys.sample, none) es).any (fun w =>
      ok w e = true ∧ (watch Sys.step awaited w e).any (fun w' => P w w') = true) = true) :
    ∃ w w', WatchedRun (fun w e => ok w e = true) w ∧ watch Sys.step awaited w e = some w' ∧ P w w' := by
  have h₀ : WatchedInit (Sys.sample, none) := ⟨Sys.init_sample, rfl⟩
  obtain ⟨w, w', hr, -, hstep, hp⟩ := exists_step_exec h₀ es e h
  exact ⟨w, w', hr, hstep, hp⟩

/-- A bare acknowledgment of `ack`. -/
def bareACK (ack : UInt32) : Event :=
  .inbound (Sys.sampleSegment tcpFlagACK 101 ack 1000 [] Sys.length_nil_lt)

/-- Two losses: the first recovery ends with the ACK of all its data, and the second one starts over
    the next byte. -/
theorem recovery_point_reached_twice : ∃ w w' : Sys × Option UInt32, WatchedRun NotCut w ∧
    watch Sys.step awaited w (bareACK 203) = some w' ∧ Enters w.1.conn w'.1.conn ∧ w.2 = none ∧
    w'.2 = some 204 := by
  obtain ⟨w, w', hr, hstep, hin, hw'⟩ := exists_watched_step notCut
    (fun w w' => Enters w.1.conn w'.1.conn ∧ w'.2 = some 204)
    [Sys.sampleACK, .writeCall 0 [1, 2], .writeCopy 0, .writeCopy 0, .writeReturn 0, .writeNotify,
      bareACK 201, bareACK 201, bareACK 201, bareACK 203,
      .writeCall 0 [3], .writeCopy 0, .writeCopy 0, .writeReturn 0, .writeNotify,
      bareACK 203, bareACK 203] (bareACK 203) (by decide +kernel)
  have hr' : WatchedRun NotCut w := Reach.mono (fun _ _ hok => notCut_sound hok) hr
  exact ⟨w, w', hr', hstep, hin, recovery_point_reached hr' hstep hin, hw'⟩

/-- A timeout strikes in the recovery over two bytes, and three more duplicates of the same flight
    start a second recovery: `snd.una` is still 201, short of the recorded 203, and the threshold is
    cut again. -/
theorem recovery_twice_over_one_flight : ∃ w w' : Sys × Option UInt32, WatchedRun (fun _ _ => True) w ∧
    watch Sys.step awaited w (bareACK 201) = some w' ∧ Enters w.1.conn w'.1.conn ∧ w.2 = some 203 ∧
    w.1.conn.tx.snd.una = 201 ∧ w.1.conn.tx.snd.nxt = 203 ∧ w.1.conn.tx.snd.ssthresh = 2144 ∧
    w'.1.conn.tx.snd.ssthresh = 1072 := by
  obtain ⟨w, w', hr, hstep, hp⟩ := exists_watched_step (fun _ _ => true)
    (fun w w' => Enters w.1.conn w'.1.conn ∧ w.2 = some 203 ∧ w.1.conn.tx.snd.una = 201 ∧
      w.1.conn.tx.snd.nxt = 203 ∧ w.1.conn.tx.snd.ssthresh = 2144 ∧ w'.1.conn.tx.snd.ssthresh = 1072)
    [Sys.sampleACK, .writeCall 0 [1, 2], .writeCopy 0, .writeCopy 0, .writeReturn 0, .writeNotify,
      bareACK 201, bareACK 201, bareACK 201, .rtoTimer, bareACK 201, bareACK 201] (bareACK 201)
    (by decide +kernel)
  exact ⟨w, w', Reach.mono (fun _ _ _ => trivial) hr, hstep, hp⟩

end Netstack.Tcp
