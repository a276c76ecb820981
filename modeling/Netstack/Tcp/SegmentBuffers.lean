import Netstack.Tcp.GsoRefines
import Netstack.Tcp.StateMachine

/-! The buffers of the retransmission queue.

    A data segment is kept in a `RefBuf`, which goes back to its pool when its count reaches zero. The
    plain path of `sendPending`, `limitedTransmit` and `sendZeroWindowProbe` take a buffer, whose count is
    then one, and `recordSent` counts the queue as a second holder; the first one never lets go, and
    `removeAcked` takes only one back. `recordSentGSO` takes its buffers for the queue alone. -/

namespace Netstack.Tcp
open Netstack.Header Netstack.Trace

/-- A `RefBuf`, as far as its count goes: `ref`, and how often `DecRef` has found it at zero. -/
structure RefBuf where
  ref : ℤ
  zeros : ℕ
  deriving DecidableEq

/-- `GetRefBuf`. -/
def getRefBuf : RefBuf := ⟨1, 0⟩

/-- `IncRef`. -/
def RefBuf.incRef (b : RefBuf) : RefBuf := { b with ref := b.ref + 1 }

/-- `DecRef`: at zero the buffer is put back. -/
def RefBuf.decRef (b : RefBuf) : RefBuf :=
  let ref := b.ref - 1
  ⟨ref, if ref = 0 then b.zeros + 1 else b.zeros⟩

/-- What put a segment into the queue. -/
inductive Recorder where
  | recordSent
  | recordSentGSO
  deriving DecidableEq

/-- The `ref` of a queued segment, with the call that put it there. -/
structure SentBuf where
  buf : RefBuf
  recorder : Recorder
  deriving DecidableEq

/-- `recordSent` counts the queue in. -/
def SentBuf.recordSent (ref : RefBuf) : SentBuf := ⟨ref.incRef, .recordSent⟩

/-- `recordSentGSO` takes a buffer for each piece. -/
def SentBuf.recordSentGSO : SentBuf := ⟨getRefBuf, .recordSentGSO⟩

def SentBuf.decRef (b : SentBuf) : SentBuf := { b with buf := b.buf.decRef }

/-- A connection with the buffers of its queue. A FIN has none. A buffer into which nothing was read goes
    back at once, and is not followed. -/
structure Ledger where
  conn : TCPConn
  /-- The `ref` of each entry of `unacked`. -/
  refs : List (Option SentBuf)
  /-- The entries `removeAcked` has dropped, with what it left of their buffers. -/
  removed : List (UnackedSegment × Option SentBuf)

namespace Ledger

/-- A connection that has sent nothing. -/
def new (c : TCPConn) : Ledger := ⟨c, [], []⟩

/-- Something that leaves the queue alone. -/
def become (l : Ledger) (c : TCPConn) : Ledger := { l with conn := c }

/-- A segment of the plain path of `sendPending`, of `limitedTransmit` or of `sendZeroWindowProbe`. -/
def sendNew (l : Ledger) (segSize : ℕ) : Ledger :=
  let ref := getRefBuf
  let r := l.conn.sendNew segSize
  if r.2 then ⟨r.1, l.refs ++ [some (.recordSent ref)], l.removed⟩ else l.become r.1

/-- A batch of the GSO path of `sendPending`: one buffer for each piece that is recorded. -/
def sendGSO (l : Ledger) (gsoSize : ℤ) : Ledger :=
  let r := l.conn.sendGSO gsoSize
  let pieces := r.1.tx.snd.unacked.drop l.conn.tx.snd.unacked.length
  ⟨r.1, l.refs ++ pieces.map fun _ => some .recordSentGSO, l.removed⟩

/-- The FIN is recorded without a buffer. -/
def sendFIN (l : Ledger) : Ledger := ⟨l.conn.sendFIN, l.refs ++ [none], l.removed⟩

/-- `removeAcked`: each entry it drops gives up one reference to its buffer. -/
def removeAcked (l : Ledger) (ack : UInt32) : Ledger :=
  let queue := l.conn.tx.snd.unacked
  let i := queue.length - (dropAcked ack queue).length
  ⟨l.conn.removeAcked ack, l.refs.drop i,
    l.removed ++ ((queue.zip l.refs).take i).map fun p => (p.1, p.2.map SentBuf.decRef)⟩

/-- The end of the handshake creates a sender with an empty queue. -/
def opened (l : Ledger) (seg : Segment) : Ledger := ⟨l.conn.opened seg, [], l.removed⟩

/-- One action of the send side. -/
inductive Turn (l : Ledger) : Ledger → Prop
  | sendNew (segSize : ℕ) : Turn l (l.sendNew segSize)
  | sendGSO (gsoSize : ℤ) : Turn l (l.sendGSO gsoSize)
  | sendFIN : Turn l l.sendFIN
  | removeAcked (ack : UInt32) : Turn l (l.removeAcked ack)
  | opened (seg : Segment) : Turn l (l.opened seg)
  | become {c : TCPConn} : c.tx.snd.unacked.map UnackedSegment.sent
      = l.conn.tx.snd.unacked.map UnackedSegment.sent → Turn l (l.become c)

/-- Several actions of the send side. -/
def Turns : Ledger → Ledger → Prop := Relation.ReflTransGen Turn

end Ledger

/-- `l` keeps the buffers of a run of the system that ends in `s`: every step of the run is made of actions
    of the send side. -/
inductive Sys.Books : Sys → Ledger → Prop
  | start {s : Sys} : s.Init → Books s (.new s.conn)
  | step {s s' : Sys} {e : Event} {l l' : Ledger} : Books s l → s.step e = some s' → l.Turns l' →
      l'.conn = s'.conn → Books s' l'

/-! ### Every run has its books -/

namespace Ledger

variable {l l' : Ledger}

theorem conn_sendNew (l : Ledger) (k : ℕ) : (l.sendNew k).conn = (l.conn.sendNew k).1 := by
  rw [sendNew]
  split <;> rfl

theorem Turns.sendNew (h : l.Turns l') (k : ℕ) : ∃ l'', l.Turns l'' ∧ l''.conn = (l'.conn.sendNew k).1 :=
  ⟨_, h.tail (.sendNew k), conn_sendNew l' k⟩

theorem Turns.become (h : l.Turns l') {c : TCPConn} (hq : c.tx.snd.unacked.map UnackedSegment.sent
    = l'.conn.tx.snd.unacked.map UnackedSegment.sent) : ∃ l'', l.Turns l'' ∧ l''.conn = c :=
  ⟨_, h.tail (.become hq), rfl⟩

/-- An acknowledgment moves `snd.una` before it empties the queue. -/
theorem Turns.acked (h : l.Turns l') (ack : UInt32) :
    ∃ l'', l.Turns l'' ∧ l''.conn = (l'.conn.advanceUna ack).removeAcked ack :=
  ⟨_, (h.tail (.become (c := l'.conn.advanceUna ack) rfl)).tail (.removeAcked ack), rfl⟩

theorem exists_transmits {c c' : TCPConn} (h : TCPConn.Transmits c c') (hl : l.conn = c) :
    ∃ l', l.Turns l' ∧ l'.conn = c' := by
  induction h with
  | refl => exact ⟨l, .refl, hl⟩
  | resends _ hr ih =>
    obtain ⟨l₁, ht, rfl⟩ := ih
    exact ht.become hr.queue
  | acked _ _ _ ih =>
    obtain ⟨l₁, ht, rfl⟩ := ih
    exact ht.acked _
  | new _ _ ih =>
    obtain ⟨l₁, ht, rfl⟩ := ih
    exact ht.sendNew _
  | gso _ _ ih =>
    obtain ⟨l₁, ht, rfl⟩ := ih
    exact ⟨_, ht.tail (.sendGSO _), rfl⟩
  | fault _ _ ih =>
    obtain ⟨l₁, ht, rfl⟩ := ih
    exact ht.become rfl

theorem exists_sends {c c' : TCPConn} (h : TCPConn.Sends c c') (hl : l.conn = c) :
    ∃ l', l.Turns l' ∧ l'.conn = c' := by
  induction h with
  | refl => exact ⟨l, .refl, hl⟩
  | transmits _ ht ih =>
    obtain ⟨l₁, ht₁, hl₁⟩ := ih
    obtain ⟨l₂, ht₂, hl₂⟩ := exists_transmits ht hl₁
    exact ⟨l₂, ht₁.trans ht₂, hl₂⟩
  | silent _ he ih =>
    obtain ⟨l₁, ht, rfl⟩ := ih
    simp only [TCPConn.sendCore, Prod.mk.injEq] at he
    exact ht.become (by rw [he.2.2.2.1])
  | opened _ _ ih =>
    obtain ⟨l₁, ht, rfl⟩ := ih
    exact ⟨_, ht.tail (.opened _), rfl⟩
  | fin _ _ ih =>
    obtain ⟨l₁, ht, rfl⟩ := ih
    have hfin := (ht.tail (.become (c := l₁.conn.clearPending) rfl)).tail .sendFIN
    exact Turns.become hfin rfl
  | copy _ _ ih =>
    obtain ⟨l₁, ht, rfl⟩ := ih
    exact ht.become rfl

end Ledger

theorem Sys.Books.conn {s : Sys} {l : Ledger} (h : s.Books l) : l.conn = s.conn := by
  cases h with
  | start _ => rfl
  | step _ _ _ he => exact he

/-- REFINES: the buffers of every run of the system can be followed. -/
theorem Sys.exists_books {ok : Sys → Event → Prop} {s : Sys} (hr : Reach Sys.Init Sys.step ok s) :
    ∃ l, s.Books l := by
  refine hr.invariant (I := fun s => ∃ l, s.Books l) (fun s h => ⟨_, .start h⟩) fun s e s' h _ hs => ?_
  obtain ⟨l, hb⟩ := h
  obtain ⟨l', ht, he⟩ := Ledger.exists_sends (Sys.step_inv hs).2.sends hb.conn
  exact ⟨l', hb.step hs ht he⟩

/-! ### The counts -/

/-- The buffer of a queued segment. -/
def SentBuf.InUse (b : SentBuf) : Prop := b = .recordSent getRefBuf ∨ b = .recordSentGSO

/-- The buffer of a segment that has left the queue. -/
def SentBuf.Left (b : SentBuf) : Prop :=
  b = (SentBuf.recordSent getRefBuf).decRef ∨ b = SentBuf.recordSentGSO.decRef

theorem SentBuf.InUse.ref_pos {b : SentBuf} (h : b.InUse) : 1 ≤ b.buf.ref := by
  rcases h with rfl | rfl <;> decide

theorem SentBuf.InUse.decRef {b : SentBuf} (h : b.InUse) : b.decRef.Left := h.imp (congrArg _) (congrArg _)

theorem SentBuf.Left.released_iff {b : SentBuf} (h : b.Left) :
    (b.buf.ref = 0 ∧ b.buf.zeros = 1) ↔ b.recorder = .recordSentGSO := by
  rcases h with rfl | rfl <;> decide

/-- An entry has a buffer unless it is a FIN, and the buffer is as `P` says. -/
def HasBuf (P : SentBuf → Prop) (fin : Bool) (b : Option SentBuf) : Prop := fin = b.isNone ∧ ∀ r ∈ b, P r

theorem HasBuf.elim {P : SentBuf → Prop} {b : Option SentBuf} (h : HasBuf P false b) : ∃ r, b = some r ∧ P r := by
  obtain ⟨hsome, hP⟩ := h
  cases b with
  | none => cases hsome
  | some r => exact ⟨r, rfl, hP r rfl⟩

theorem HasBuf.decRef {f : Bool} {b : Option SentBuf} (h : HasBuf SentBuf.InUse f b) :
    HasBuf SentBuf.Left f (b.map SentBuf.decRef) := by
  refine ⟨h.1.trans Option.isNone_map.symm, fun r hr => ?_⟩
  obtain ⟨r₀, h₀, rfl⟩ := Option.map_eq_some_iff.1 hr
  exact (h.2 r₀ h₀).decRef

theorem hasBuf_some {P : SentBuf → Prop} {r : SentBuf} (h : P r) : HasBuf P false (some r) :=
  ⟨rfl, fun r' hr' => by rwa [← Option.some.inj hr']⟩

theorem hasBuf_none (P : SentBuf → Prop) : HasBuf P true none := ⟨rfl, fun r hr => by cases hr⟩

/-- The counts of a ledger are those of queued and of removed segments. -/
structure Ledger.Counted (l : Ledger) : Prop where
  queue : List.Forall₂ (HasBuf SentBuf.InUse) (l.conn.tx.snd.unacked.map UnackedSegment.fin) l.refs
  removed : ∀ p ∈ l.removed, HasBuf SentBuf.Left p.1.fin p.2

/-- The loop of `removeAcked` drops a front part. -/
theorem dropAcked_suffix (ack : UInt32) : ∀ l : List UnackedSegment, dropAcked ack l <:+ l
  | [] => List.suffix_rfl
  | e :: rest => by
      rw [dropAcked]
      split_ifs
      · exact List.suffix_rfl
      · exact (dropAcked_suffix ack rest).trans (List.suffix_cons e rest)
      · exact List.suffix_rfl

namespace Ledger.Counted

variable {l l' : Ledger}

theorem become (h : l.Counted) {c : TCPConn} (hq : c.tx.snd.unacked.map UnackedSegment.sent
    = l.conn.tx.snd.unacked.map UnackedSegment.sent) : (l.become c).Counted := by
  refine ⟨?_, h.removed⟩
  have hfin := congrArg (List.map fun p : UInt32 × List UInt8 × Bool => p.2.2) hq
  rw [List.map_map, List.map_map] at hfin
  exact hfin ▸ h.queue

/-- Entries are added with their buffers. -/
theorem append (h : l.Counted) {c : TCPConn} {m : List UnackedSegment} {bs : List (Option SentBuf)}
    (hc : c.tx.snd.unacked = l.conn.tx.snd.unacked ++ m)
    (hm : List.Forall₂ (HasBuf SentBuf.InUse) (m.map UnackedSegment.fin) bs) :
    (Ledger.mk c (l.refs ++ bs) l.removed).Counted := by
  refine ⟨?_, h.removed⟩
  dsimp only
  rw [hc, List.map_append]
  exact List.rel_append h.queue hm

theorem sendNew (h : l.Counted) (k : ℕ) : (l.sendNew k).Counted := by
  rw [Ledger.sendNew, TCPConn.sendNew]
  split
  · exact h.become rfl
  · exact h.append (m := [_]) rfl (.cons (hasBuf_some (.inl rfl)) .nil)

theorem sendGSO (h : l.Counted) (k : ℤ) : (l.sendGSO k).Counted := by
  have hpieces : ∃ es, (l.conn.sendGSO k).1.tx.snd.unacked = l.conn.tx.snd.unacked ++ es ∧
      ∀ e ∈ es, e.fin = false := by
    rw [TCPConn.sendGSO]
    split_ifs
    · exact ⟨[], (List.append_nil _).symm, by simp⟩
    · exact ⟨[], (List.append_nil _).symm, by simp⟩
    · exact ⟨_, rfl, TCPConn.gsoSegments_fin _ _ _ _ _⟩
  obtain ⟨es, hes, hfin⟩ := hpieces
  refine h.append hes ?_
  rw [hes, List.drop_left, List.forall₂_map_left_iff, List.forall₂_map_right_iff, List.forall₂_same]
  intro e he
  rw [hfin e he]
  exact hasBuf_some (.inr rfl)

theorem sendFIN (h : l.Counted) : l.sendFIN.Counted :=
  h.append (m := [_]) rfl (.cons (hasBuf_none _) .nil)

theorem removeAcked (h : l.Counted) (ack : UInt32) : (l.removeAcked ack).Counted := by
  have hdrop := List.suffix_iff_eq_drop.1 (dropAcked_suffix ack l.conn.tx.snd.unacked)
  refine ⟨?_, fun p hp => ?_⟩
  · have hqueue : (l.removeAcked ack).conn.tx.snd.unacked = dropAcked ack l.conn.tx.snd.unacked := rfl
    rw [hqueue, hdrop, List.map_drop]
    exact List.forall₂_drop _ h.queue
  · rcases List.mem_append.1 hp with hp | hp
    · exact h.removed p hp
    · obtain ⟨⟨e, b⟩, hq, rfl⟩ := List.mem_map.1 hp
      have hq' := List.forall₂_map_left_iff.1 h.queue
      exact (List.forall₂_zip hq' (List.mem_of_mem_take hq)).decRef

theorem opened (h : l.Counted) (seg : Segment) : (l.opened seg).Counted := by
  refine ⟨?_, h.removed⟩
  have hempty : (l.opened seg).conn.tx.snd.unacked = [] := by
    have hsnd : (l.opened seg).conn.tx.snd
        = ((l.conn.updateTSRecent seg).setState .established).handshakeSender seg :=
      congrArg Tx.snd (TCPConn.opened_rxOnly l.conn seg).tx
    obtain ⟨m, hm⟩ := ((l.conn.updateTSRecent seg).setState .established).handshakeSender_eq seg
    rw [hsnd, hm]
    rfl
  rw [hempty]
  exact .nil

theorem turn (h : l.Counted) (ht : l.Turn l') : l'.Counted := by
  cases ht with
  | sendNew k => exact h.sendNew k
  | sendGSO k => exact h.sendGSO k
  | sendFIN => exact h.sendFIN
  | removeAcked ack => exact h.removeAcked ack
  | opened seg => exact h.opened seg
  | become hq => exact h.become hq

theorem turns (h : l.Counted) (ht : l.Turns l') : l'.Counted := by
  induction ht with
  | refl => exact h
  | tail _ ht ih => exact ih.turn ht

end Ledger.Counted

theorem Sys.Books.counted {s : Sys} {l : Ledger} (h : s.Books l) : l.Counted := by
  induction h with
  | start hi =>
    obtain ⟨h, irs, iss, options, hr, hw, -, rfl⟩ := Sys.init_iff.1 hi
    exact ⟨.nil, by simp [Ledger.new]⟩
  | step _ _ ht _ ih => exact ih.turns ht

/-- CORRECT: in every run the buffer of a data segment in the queue has a holder, and that of a data
    segment that was acknowledged and removed has been at zero, once, exactly if it was recorded by
    `recordSentGSO`. -/
theorem segment_buffer_released_iff {s : Sys} {l : Ledger} (h : s.Books l) :
    List.Forall₂ (fun e b => e.fin = false → ∃ r, b = some r ∧ 1 ≤ r.buf.ref) s.conn.tx.snd.unacked l.refs ∧
    ∀ p ∈ l.removed, p.1.fin = false → ∃ r, p.2 = some r ∧
      ((r.buf.ref = 0 ∧ r.buf.zeros = 1) ↔ r.recorder = .recordSentGSO) := by
  have hcount := h.counted
  refine ⟨?_, fun p hp hfin => ?_⟩
  · rw [← h.conn]
    refine (List.forall₂_map_left_iff.1 hcount.queue).imp fun e b hb hfin => ?_
    rw [hfin] at hb
    obtain ⟨r, hr, huse⟩ := hb.elim
    exact ⟨r, hr, huse.ref_pos⟩
  · have hb := hcount.removed p hp
    rw [hfin] at hb
    obtain ⟨r, hr, hleft⟩ := hb.elim
    exact ⟨r, hr, hleft.released_iff⟩

/-! ### Runs with one segment or one batch -/

/-- A step during which one action changed the queue. -/
theorem Sys.Books.turn {s s' : Sys} {e : Event} {l l' : Ledger} (h : s.Books l) (hs : s.step e = some s')
    (ht : l.Turn l') (hq : s'.conn.tx.snd.unacked.map UnackedSegment.sent
      = l'.conn.tx.snd.unacked.map UnackedSegment.sent) : s'.Books (l'.become s'.conn) :=
  h.step hs ((Relation.ReflTransGen.single ht).tail (.become hq)) rfl

/-- Nothing is in the queue after the step. -/
def Sys.idleStep (s : Sys) (e : Event) : Bool := (s.step e).all fun s' => s'.conn.tx.snd.unacked.isEmpty

theorem Sys.books_idle {s : Sys} (hr : Reach Sys.Init Sys.step (fun s e => s.idleStep e = true) s) :
    s.conn.tx.snd.unacked = [] ∧ s.Books (.new s.conn) := by
  refine hr.invariant (I := fun s => s.conn.tx.snd.unacked = [] ∧ s.Books (.new s.conn)) (fun s h => ?_)
    fun s e s' h hidle hs => ?_
  · refine ⟨?_, .start h⟩
    obtain ⟨h, irs, iss, options, hr, hw, -, rfl⟩ := Sys.init_iff.1 h
    rfl
  · obtain ⟨hnil, hb⟩ := h
    have hnil' : s'.conn.tx.snd.unacked = [] := by
      rw [Sys.idleStep, hs] at hidle
      exact List.isEmpty_iff.1 hidle
    have hsame : s'.conn.tx.snd.unacked.map UnackedSegment.sent
        = s.conn.tx.snd.unacked.map UnackedSegment.sent := by rw [hnil, hnil']
    exact ⟨hnil', hb.step hs (.single (.become hsame)) rfl⟩

/-- What is left of the segments removed so far. -/
def Ledger.report (l : Ledger) : List ((UInt32 × List UInt8) × Option SentBuf) :=
  l.removed.map fun p => (p.1.entry, p.2)

/-- After an idle run, `writeNotify` sends what `send` sends, and an ACK takes all of it back. -/
def Sys.sentAcked (s : Sys) (send : Ledger → Ledger) (ack : UInt32) : Option (Sys × Ledger) := do
  let s₁ ← s.step .writeNotify
  let l₁ := send (.new s.conn)
  let s₂ ← s₁.step (.inbound (Sys.sampleSegment tcpFlagACK 101 ack 1000 [] Sys.length_nil_lt))
  let l₂ := (l₁.become s₁.conn).removeAcked ack
  if s₁.conn.tx.snd.unacked.map UnackedSegment.sent = l₁.conn.tx.snd.unacked.map UnackedSegment.sent ∧
      s₂.conn.tx.snd.unacked.map UnackedSegment.sent = l₂.conn.tx.snd.unacked.map UnackedSegment.sent then
    some (s₂, l₂.become s₂.conn)
  else none

theorem Sys.books_sentAcked {s s₂ : Sys} {send : Ledger → Ledger} {ack : UInt32} {l : Ledger}
    (hr : Reach Sys.Init Sys.step (fun s e => s.idleStep e = true) s) (hsend : ∀ l : Ledger, l.Turn (send l))
    (h : s.sentAcked send ack = some (s₂, l)) : s₂.Books l := by
  simp only [Sys.sentAcked, Option.bind_eq_bind, Option.bind_eq_some_iff] at h
  obtain ⟨s₁, hs₁, s₂', hs₂, h⟩ := h
  split_ifs at h with hq
  obtain ⟨rfl, rfl⟩ := Prod.mk.inj (Option.some.inj h)
  have hb := (Sys.books_idle hr).2.turn hs₁ (hsend _) hq.1
  exact hb.turn hs₂ (.removeAcked ack) hq.2

/-- A batch of three pieces, acknowledged: their three buffers are back. -/
theorem segment_buffer_released_batch : ∃ (s : Sys) (l : Ledger), s.Books l ∧
    l.report = [((201, [1, 2]), some ⟨⟨0, 1⟩, .recordSentGSO⟩), ((203, [3, 4]), some ⟨⟨0, 1⟩, .recordSentGSO⟩),
      ((205, [5, 6]), some ⟨⟨0, 1⟩, .recordSentGSO⟩)] ∧
    ∀ p ∈ l.removed, p.1.fin = false → ∃ r, p.2 = some r ∧
      ((r.buf.ref = 0 ∧ r.buf.zeros = 1) ↔ r.recorder = .recordSentGSO) := by
  obtain ⟨s, hr, h⟩ := Sys.exists_reach Sys.init_gsoSample Sys.idleStep
    (fun s => (s.sentAcked (fun l => l.sendGSO 6) 207).map (fun r => r.2.report)
      = some [((201, [1, 2]), some ⟨⟨0, 1⟩, .recordSentGSO⟩), ((203, [3, 4]), some ⟨⟨0, 1⟩, .recordSentGSO⟩),
        ((205, [5, 6]), some ⟨⟨0, 1⟩, .recordSentGSO⟩)])
    [Sys.sampleACK, .writeCall 0 [1, 2, 3, 4, 5, 6], .writeCopy 0, .writeCopy 0, .writeReturn 0]
    (by decide +kernel)
  obtain ⟨⟨s₂, l⟩, hsent, hreport⟩ := Option.map_eq_some_iff.1 h
  have hb := Sys.books_sentAcked hr (fun l => .sendGSO 6) hsent
  exact ⟨s₂, l, hb, hreport, (segment_buffer_released_iff hb).2⟩

/-- A single segment, acknowledged: it is gone from the queue, and its buffer still has a holder. -/
theorem segment_buffer_leaks : ∃ (s : Sys) (l : Ledger), s.Books l ∧
    s.conn.env.handler.gsoMaxSize = none ∧ s.conn.tx.snd.unacked = [] ∧ s.conn.tx.snd.una = 202 ∧
    l.report = [((201, [1]), some ⟨⟨1, 0⟩, .recordSent⟩)] := by
  obtain ⟨s, hr, h⟩ := Sys.exists_reach Sys.init_sample Sys.idleStep
    (fun s => (s.sentAcked (fun l => l.sendNew 1) 202).any fun r =>
      r.1.conn.env.handler.gsoMaxSize = none ∧ r.1.conn.tx.snd.unacked.map UnackedSegment.sent = [] ∧
      r.1.conn.tx.snd.una = 202 ∧ r.2.report = [((201, [1]), some ⟨⟨1, 0⟩, .recordSent⟩)])
    [Sys.sampleACK, .writeCall 0 [1], .writeCopy 0, .writeCopy 0, .writeReturn 0] (by decide +kernel)
  obtain ⟨⟨s₂, l⟩, hsent, hp⟩ := (Option.any_eq_true ..).1 h
  obtain ⟨hg, hnil, huna, hreport⟩ := of_decide_eq_true hp
  exact ⟨s₂, l, Sys.books_sentAcked hr (fun l => .sendNew 1) hsent, hg, List.map_eq_nil_iff.1 hnil, huna, hreport⟩

end Netstack.Tcp
