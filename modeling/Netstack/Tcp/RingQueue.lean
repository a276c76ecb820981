import Netstack.Tcp.RingBuffer
import Netstack.Lib.Fifo
import Netstack.Lib.Simulation

/-! The ring buffer as its callers see it: a bounded queue.

    The calls of `ringbuf.go` are run by any number of goroutines. `Write` and `Read` are loops that
    take the lock once in each turn and wait on a channel in between, so a call in progress is a
    state of its own, and each locked section is one step. The machine is written once, over the
    operations it needs of a buffer (`Ops`), and run twice: over the ring (`ringOps`), as the source
    has it, and over a bounded queue (`fifoOps`), which has no indices, no flag and no wake-up
    channels. The first is simulated by the second. -/

namespace Netstack.Tcp
open Netstack.Simulation

/-- What the locked sections use of a buffer. `notFull` and `notEmpty` are the channels a caller
    waits on, and `woken seen now` says that the channel `seen` has been closed by the time the
    buffer shows `now`. -/
structure Ops (β E : Type) where
  closed : β → Bool
  free : β → ℕ
  len : β → ℕ
  write : β → List UInt8 → β × ℕ
  read : β → ℕ → β × List UInt8
  grow : β → ℤ → β
  closeWrite : β → β
  notFull : β → E
  notEmpty : β → E
  woken : E → E → Bool

/-- Where a call stands: not called, before the lock of a turn of `Write` or `Read`, or waiting on
    the channel it saw under the lock. -/
inductive Call (E : Type) where
  | idle
  | writing (rest : List UInt8) (written : ℕ)
  | awaitingRoom (ch : E) (rest : List UInt8) (written : ℕ)
  | reading (k : ℕ)
  | awaitingData (ch : E) (k : ℕ)

/-- What a call returns: a count, a count with `errBufferClosed`, the bytes read, `io.EOF`, or
    `errBufferClosed` from `Read`. -/
inductive Outcome where
  | wrote (n : ℕ)
  | writeClosed (n : ℕ)
  | took (bytes : List UInt8)
  | eof
  | readClosed
  deriving DecidableEq

/-- A buffer, its callers, the `done` channel of the connection, and what the calls have returned
    so far. -/
structure Machine (β E : Type) where
  buf : β
  calls : ℕ → Call E
  done : Bool
  log : List (ℕ × Outcome)

/-- A call, or the next step of one. -/
inductive Op where
  | write (g : ℕ) (p : List UInt8)
  | writeStep (g : ℕ)
  | roomWake (g : ℕ)
  | read (g : ℕ) (k : ℕ)
  | readStep (g : ℕ)
  | dataWake (g : ℕ)
  | doneWake (g : ℕ)
  | writeNoBlock (g : ℕ) (p : List UInt8)
  | readNoBlock (g : ℕ) (k : ℕ)
  | grow (newCap : ℤ)
  | closeWrite
  | closeDone
  deriving DecidableEq

namespace Machine

variable {β E : Type}

/-- Goroutine `g` goes on with `c`. -/
def setCall (s : Machine β E) (g : ℕ) (c : Call E) : Machine β E :=
  { s with calls := Function.update s.calls g c }

/-- The call of `g` returns `o`. -/
def finish (s : Machine β E) (g : ℕ) (o : Outcome) : Machine β E :=
  { s.setCall g .idle with log := s.log ++ [(g, o)] }

/-- The head of the loop of `Write`: `written < len(p)`. -/
def writeLoop (s : Machine β E) (g : ℕ) (rest : List UInt8) (written : ℕ) : Machine β E :=
  if rest = [] then s.finish g (.wrote written) else s.setCall g (.writing rest written)

/-- The locked section of `Write`. -/
def lockedWrite (o : Ops β E) (s : Machine β E) (g : ℕ) (rest : List UInt8) (written : ℕ) :
    Machine β E :=
  if o.closed s.buf then s.finish g (.writeClosed written)
  else if o.free s.buf = 0 then s.setCall g (.awaitingRoom (o.notFull s.buf) rest written)
  else
    let r := o.write s.buf rest
    { s with buf := r.1 }.writeLoop g (rest.drop r.2) (written + r.2)

/-- The locked section of `Read`. -/
def lockedRead (o : Ops β E) (s : Machine β E) (g : ℕ) (k : ℕ) : Machine β E :=
  if o.len s.buf > 0 then
    let r := o.read s.buf k
    { s with buf := r.1 }.finish g (.took r.2)
  else if o.closed s.buf then s.finish g .eof
  else s.setCall g (.awaitingData (o.notEmpty s.buf) k)

/-- `WriteNoBlock`. -/
def writeNoBlock (o : Ops β E) (s : Machine β E) (g : ℕ) (p : List UInt8) : Machine β E :=
  if o.closed s.buf then s.finish g (.wrote 0)
  else if o.free s.buf = 0 then s.finish g (.wrote 0)
  else
    let r := o.write s.buf p
    { s with buf := r.1 }.finish g (.wrote r.2)

/-- `ReadNoBlock`. -/
def readNoBlock (o : Ops β E) (s : Machine β E) (g : ℕ) (k : ℕ) : Machine β E :=
  if o.len s.buf = 0 then s.finish g (.took [])
  else
    let r := o.read s.buf k
    { s with buf := r.1 }.finish g (.took r.2)

/-- One step; `none` if the goroutine is not where the step starts, or has not been woken. -/
def step (o : Ops β E) (s : Machine β E) : Op → Option (Machine β E)
  | .write g p => match s.calls g with
    | .idle => some (s.writeLoop g p 0)
    | _ => none
  | .writeStep g => match s.calls g with
    | .writing rest written => some (lockedWrite o s g rest written)
    | _ => none
  | .roomWake g => match s.calls g with
    | .awaitingRoom ch rest written =>
      if o.woken ch (o.notFull s.buf) then some (s.setCall g (.writing rest written)) else none
    | _ => none
  | .read g k => match s.calls g with
    | .idle => some (s.setCall g (.reading k))
    | _ => none
  | .readStep g => match s.calls g with
    | .reading k => some (lockedRead o s g k)
    | _ => none
  | .dataWake g => match s.calls g with
    | .awaitingData ch k =>
      if o.woken ch (o.notEmpty s.buf) then some (s.setCall g (.reading k)) else none
    | _ => none
  | .doneWake g => match s.calls g with
    | .awaitingRoom _ _ written => if s.done then some (s.finish g (.writeClosed written)) else none
    | .awaitingData _ _ => if s.done then some (s.finish g .readClosed) else none
    | _ => none
  | .writeNoBlock g p => match s.calls g with
    | .idle => some (writeNoBlock o s g p)
    | _ => none
  | .readNoBlock g k => match s.calls g with
    | .idle => some (readNoBlock o s g k)
    | _ => none
  | .grow newCap => some { s with buf := o.grow s.buf newCap }
  | .closeWrite => some { s with buf := o.closeWrite s.buf }
  | .closeDone => some { s with done := true }

end Machine

/-- The slices passed to the calls are not empty. -/
def Op.NonEmpty : Op → Prop
  | .write _ p | .writeNoBlock _ p => p ≠ []
  | .read _ k | .readNoBlock _ k => 0 < k
  | _ => True

instance (op : Op) : Decidable op.NonEmpty := by
  cases op <;> dsimp only [Op.NonEmpty] <;> infer_instance

/-- The ring, with the two channels as epochs. A locked write wakes readers, a locked read
    writers. -/
def ringOps : Ops RingBuffer ℕ where
  closed rb := rb.closed
  free rb := rb.free
  len rb := rb.len
  write rb p :=
    let (rb', n) := rb.writeLocked p
    ({ rb' with notEmpty := rb'.notEmpty + 1 }, n)
  read rb k :=
    let (rb', bytes) := rb.readLocked k
    ({ rb' with notFull := rb'.notFull + 1 }, bytes)
  grow rb newCap := rb.grow newCap.toNat
  closeWrite rb := rb.closeWrite
  notFull rb := rb.notFull
  notEmpty rb := rb.notEmpty
  woken seen now := seen < now

/-- The queue. Whoever waits may look again at any time. -/
def fifoOps : Ops (Fifo UInt8) Unit where
  closed q := q.closed
  free q := q.room
  len q := q.items.length
  write q p := q.push p
  read q k := q.pop k
  grow q newCap := q.grow newCap.toNat
  closeWrite q := q.close
  notFull _ := ()
  notEmpty _ := ()
  woken _ _ := true

/-! ### The ring as a queue -/

namespace RingBuffer

/-- The queue a ring stands for. -/
def queue (rb : RingBuffer) : Fifo UInt8 where
  items := rb.contents
  cap := rb.cap
  closed := rb.closed
  bound := by rw [length_contents]; exact rb.len_le

theorem room_queue (rb : RingBuffer) : rb.queue.room = rb.free := by
  rw [Fifo.room, queue, length_contents]; rfl

theorem queue_new (size : ℕ) (h : 0 < size) : (new size h).queue = Fifo.new size := by
  refine Fifo.ext (contents_new size h) ?_ rfl
  exact List.length_replicate

/-- A locked write with room is a push. -/
theorem queue_write (rb : RingBuffer) {p : List UInt8} (hp : p ≠ []) (hf : rb.free ≠ 0) :
    (ringOps.write rb p).1.queue = (rb.queue.push p).1 ∧
      (ringOps.write rb p).2 = (rb.queue.push p).2 := by
  have hn : (rb.writeLocked p).2 = min p.length rb.free := rfl
  have htake : p.take (min p.length rb.free) = p.take rb.free := by
    rw [List.take_eq_take_iff]; omega
  refine ⟨Fifo.ext ?_ ?_ rfl, ?_⟩
  · calc (ringOps.write rb p).1.contents
        = rb.contents ++ p.take (rb.writeLocked p).2 := rb.contents_writeLocked hp hf
      _ = rb.contents ++ p.take rb.queue.room := by rw [hn, htake, room_queue]
  · exact rb.length_writeBuf p _
  · calc (ringOps.write rb p).2 = min p.length rb.free := rfl
      _ = (rb.queue.push p).2 := by rw [← room_queue]; rfl

/-- A locked read is a pop. -/
theorem queue_read (rb : RingBuffer) {k : ℕ} (hk : 0 < k) :
    (ringOps.read rb k).1.queue = (rb.queue.pop k).1 ∧
      (ringOps.read rb k).2 = (rb.queue.pop k).2 :=
  ⟨Fifo.ext (rb.contents_readLocked hk) rfl rfl, rb.readLocked_snd k⟩

theorem queue_grow (rb : RingBuffer) (n : ℕ) : (rb.grow n).queue = rb.queue.grow n :=
  Fifo.ext (rb.contents_grow n) (rb.cap_grow n) (rb.closed_grow n)

theorem queue_closeWrite (rb : RingBuffer) : rb.closeWrite.queue = rb.queue.close := rfl

end RingBuffer

/-- The same call with the channel forgotten. -/
def Call.forget : Call ℕ → Call Unit
  | .idle => .idle
  | .writing rest written => .writing rest written
  | .awaitingRoom _ rest written => .awaitingRoom () rest written
  | .reading k => .reading k
  | .awaitingData _ k => .awaitingData () k

/-- What a call still has to write, or to read into, is not empty. -/
def Call.NonEmpty {E : Type} : Call E → Prop
  | .idle => True
  | .writing rest _ | .awaitingRoom _ rest _ => rest ≠ []
  | .reading k | .awaitingData _ k => 0 < k

namespace Machine

/-- Before any call. -/
def start {β E : Type} (buf : β) : Machine β E := ⟨buf, fun _ => .idle, false, []⟩

/-- The machine over the queue that a machine over the ring stands for. -/
def abs (s : Machine RingBuffer ℕ) : Machine (Fifo UInt8) Unit :=
  ⟨s.buf.queue, fun g => (s.calls g).forget, s.done, s.log⟩

variable {s s' : Machine RingBuffer ℕ} {g : ℕ}

theorem closed_abs (s : Machine RingBuffer ℕ) :
    fifoOps.closed s.abs.buf = ringOps.closed s.buf := rfl

theorem free_abs (s : Machine RingBuffer ℕ) : fifoOps.free s.abs.buf = ringOps.free s.buf :=
  s.buf.room_queue

theorem len_abs (s : Machine RingBuffer ℕ) : fifoOps.len s.abs.buf = ringOps.len s.buf :=
  s.buf.length_contents

theorem abs_setCall (s : Machine RingBuffer ℕ) (g : ℕ) (c : Call ℕ) :
    (s.setCall g c).abs = s.abs.setCall g c.forget := by
  have hcalls : (fun i => (Function.update s.calls g c i).forget)
      = Function.update (fun i => (s.calls i).forget) g c.forget := by
    funext i
    by_cases hi : i = g
    · rw [hi, Function.update_self, Function.update_self]
    · rw [Function.update_of_ne hi, Function.update_of_ne hi]
  simp only [abs, setCall, hcalls]

theorem abs_finish (s : Machine RingBuffer ℕ) (g : ℕ) (o : Outcome) :
    (s.finish g o).abs = s.abs.finish g o := by
  have h := s.abs_setCall g .idle
  exact congrArg (fun t : Machine (Fifo UInt8) Unit => { t with log := s.log ++ [(g, o)] }) h

theorem abs_writeLoop (s : Machine RingBuffer ℕ) (g : ℕ) (rest : List UInt8) (n : ℕ) :
    (s.writeLoop g rest n).abs = s.abs.writeLoop g rest n := by
  unfold writeLoop
  split_ifs
  · exact s.abs_finish g _
  · exact s.abs_setCall g _

theorem abs_lockedWrite (s : Machine RingBuffer ℕ) (g : ℕ) {rest : List UInt8} (hp : rest ≠ [])
    (n : ℕ) : (lockedWrite ringOps s g rest n).abs = lockedWrite fifoOps s.abs g rest n := by
  unfold lockedWrite
  rw [free_abs, closed_abs]
  by_cases hc : ringOps.closed s.buf = true
  · rw [if_pos hc, if_pos hc]
    exact s.abs_finish g _
  rw [if_neg hc, if_neg hc]
  by_cases hf : ringOps.free s.buf = 0
  · rw [if_pos hf, if_pos hf]
    exact s.abs_setCall g _
  · rw [if_neg hf, if_neg hf]
    obtain ⟨hbuf, hcount⟩ := s.buf.queue_write hp hf
    dsimp only
    rw [abs_writeLoop]
    simp only [abs, fifoOps, hbuf, hcount]

theorem abs_lockedRead (s : Machine RingBuffer ℕ) (g : ℕ) {k : ℕ} (hk : 0 < k) :
    (lockedRead ringOps s g k).abs = lockedRead fifoOps s.abs g k := by
  unfold lockedRead
  rw [len_abs, closed_abs]
  by_cases hl : ringOps.len s.buf > 0
  · rw [if_pos hl, if_pos hl]
    obtain ⟨hbuf, hbytes⟩ := s.buf.queue_read hk
    dsimp only
    rw [abs_finish]
    simp only [abs, fifoOps, hbuf, hbytes]
  rw [if_neg hl, if_neg hl]
  by_cases hc : ringOps.closed s.buf = true
  · rw [if_pos hc, if_pos hc]
    exact s.abs_finish g _
  · rw [if_neg hc, if_neg hc]
    exact s.abs_setCall g _

theorem abs_writeNoBlock (s : Machine RingBuffer ℕ) (g : ℕ) {p : List UInt8} (hp : p ≠ []) :
    (writeNoBlock ringOps s g p).abs = writeNoBlock fifoOps s.abs g p := by
  unfold writeNoBlock
  rw [free_abs, closed_abs]
  by_cases hc : ringOps.closed s.buf = true
  · rw [if_pos hc, if_pos hc]
    exact s.abs_finish g _
  rw [if_neg hc, if_neg hc]
  by_cases hf : ringOps.free s.buf = 0
  · rw [if_pos hf, if_pos hf]
    exact s.abs_finish g _
  · rw [if_neg hf, if_neg hf]
    obtain ⟨hbuf, hcount⟩ := s.buf.queue_write hp hf
    dsimp only
    rw [abs_finish]
    simp only [abs, fifoOps, hbuf, hcount]

theorem abs_readNoBlock (s : Machine RingBuffer ℕ) (g : ℕ) {k : ℕ} (hk : 0 < k) :
    (readNoBlock ringOps s g k).abs = readNoBlock fifoOps s.abs g k := by
  unfold readNoBlock
  rw [len_abs]
  by_cases hl : ringOps.len s.buf = 0
  · rw [if_pos hl, if_pos hl]
    exact s.abs_finish g _
  · rw [if_neg hl, if_neg hl]
    obtain ⟨hbuf, hbytes⟩ := s.buf.queue_read hk
    dsimp only
    rw [abs_finish]
    simp only [abs, fifoOps, hbuf, hbytes]

/-! ### Every run of the ring is a run of the queue -/

/-- Every call in progress has something left to do. -/
def Pending (s : Machine RingBuffer ℕ) : Prop := ∀ g, (s.calls g).NonEmpty

theorem Pending.setCall (h : s.Pending) (g : ℕ) {c : Call ℕ} (hc : c.NonEmpty) :
    (s.setCall g c).Pending := by
  intro i
  by_cases hi : i = g
  · subst hi
    simpa [Machine.setCall] using hc
  · simpa [Machine.setCall, hi] using h i

theorem Pending.setBuf (h : s.Pending) (b : RingBuffer) : Pending { s with buf := b } := h

theorem Pending.finish (h : s.Pending) (g : ℕ) (o : Outcome) : (s.finish g o).Pending :=
  h.setCall g (c := .idle) trivial

theorem Pending.writeLoop (h : s.Pending) (g : ℕ) (rest : List UInt8) (n : ℕ) :
    (s.writeLoop g rest n).Pending := by
  unfold Machine.writeLoop
  split_ifs with hr
  · exact h.finish g _
  · exact h.setCall g hr

theorem Pending.lockedWrite (h : s.Pending) (g : ℕ) {rest : List UInt8} (hr : rest ≠ []) (n : ℕ) :
    (lockedWrite ringOps s g rest n).Pending := by
  unfold Machine.lockedWrite
  split_ifs
  · exact h.finish g _
  · exact h.setCall g hr
  · exact (h.setBuf _).writeLoop g _ _

theorem Pending.lockedRead (h : s.Pending) (g : ℕ) {k : ℕ} (hk : 0 < k) :
    (lockedRead ringOps s g k).Pending := by
  unfold Machine.lockedRead
  split_ifs
  · exact (h.setBuf _).finish g _
  · exact h.finish g _
  · exact h.setCall g hk

theorem Pending.writeNoBlock (h : s.Pending) (g : ℕ) (p : List UInt8) :
    (writeNoBlock ringOps s g p).Pending := by
  unfold Machine.writeNoBlock
  split_ifs
  · exact h.finish g _
  · exact h.finish g _
  · exact (h.setBuf _).finish g _

theorem Pending.readNoBlock (h : s.Pending) (g : ℕ) (k : ℕ) :
    (readNoBlock ringOps s g k).Pending := by
  unfold Machine.readNoBlock
  split_ifs
  · exact h.finish g _
  · exact (h.setBuf _).finish g _

/-- One step of the ring is the same step of the queue. -/
theorem abs_step {op : Op} (h : s.Pending) (hop : op.NonEmpty)
    (hs : step ringOps s op = some s') : step fifoOps s.abs op = some s'.abs ∧ s'.Pending := by
  cases op with
  | write g p =>
    have hcall : s.abs.calls g = (s.calls g).forget := rfl
    simp only [step, hcall] at hs ⊢
    cases hc : s.calls g <;> rw [hc] at hs <;> cases hs
    exact ⟨congrArg some (s.abs_writeLoop g p 0).symm, h.writeLoop g p 0⟩
  | writeStep g =>
    have hcall : s.abs.calls g = (s.calls g).forget := rfl
    have hpend := h g
    simp only [step, hcall] at hs ⊢
    cases hc : s.calls g <;> rw [hc] at hs hpend <;> cases hs
    exact ⟨congrArg some (s.abs_lockedWrite g hpend _).symm, h.lockedWrite g hpend _⟩
  | roomWake g =>
    have hcall : s.abs.calls g = (s.calls g).forget := rfl
    have hpend := h g
    simp only [step, hcall] at hs ⊢
    cases hc : s.calls g <;> rw [hc] at hs hpend
    case awaitingRoom ch rest n =>
      dsimp only at hs
      split_ifs at hs
      cases hs
      exact ⟨congrArg some (s.abs_setCall g (.writing rest n)).symm, h.setCall g hpend⟩
    all_goals cases hs
  | read g k =>
    have hcall : s.abs.calls g = (s.calls g).forget := rfl
    simp only [step, hcall] at hs ⊢
    cases hc : s.calls g <;> rw [hc] at hs <;> cases hs
    exact ⟨congrArg some (s.abs_setCall g (.reading k)).symm, h.setCall g hop⟩
  | readStep g =>
    have hcall : s.abs.calls g = (s.calls g).forget := rfl
    have hpend := h g
    simp only [step, hcall] at hs ⊢
    cases hc : s.calls g <;> rw [hc] at hs hpend <;> cases hs
    exact ⟨congrArg some (s.abs_lockedRead g hpend).symm, h.lockedRead g hpend⟩
  | dataWake g =>
    have hcall : s.abs.calls g = (s.calls g).forget := rfl
    have hpend := h g
    simp only [step, hcall] at hs ⊢
    cases hc : s.calls g <;> rw [hc] at hs hpend
    case awaitingData ch k =>
      dsimp only at hs
      split_ifs at hs
      cases hs
      exact ⟨congrArg some (s.abs_setCall g (.reading k)).symm, h.setCall g hpend⟩
    all_goals cases hs
  | doneWake g =>
    have hcall : s.abs.calls g = (s.calls g).forget := rfl
    have hdone : s.abs.done = s.done := rfl
    simp only [step, hcall, hdone] at hs ⊢
    cases hc : s.calls g <;> rw [hc] at hs <;> dsimp only [Call.forget] at hs ⊢
    case awaitingRoom ch rest n =>
      split_ifs at hs ⊢
      cases hs
      exact ⟨congrArg some (s.abs_finish g (.writeClosed n)).symm, h.finish g _⟩
    case awaitingData ch k =>
      split_ifs at hs ⊢
      cases hs
      exact ⟨congrArg some (s.abs_finish g .readClosed).symm, h.finish g _⟩
    all_goals cases hs
  | writeNoBlock g p =>
    have hcall : s.abs.calls g = (s.calls g).forget := rfl
    simp only [step, hcall] at hs ⊢
    cases hc : s.calls g <;> rw [hc] at hs <;> cases hs
    exact ⟨congrArg some (s.abs_writeNoBlock g hop).symm, h.writeNoBlock g p⟩
  | readNoBlock g k =>
    have hcall : s.abs.calls g = (s.calls g).forget := rfl
    simp only [step, hcall] at hs ⊢
    cases hc : s.calls g <;> rw [hc] at hs <;> cases hs
    exact ⟨congrArg some (s.abs_readNoBlock g hop).symm, h.readNoBlock g k⟩
  | grow newCap =>
    cases hs
    refine ⟨congrArg some ?_, h⟩
    simp only [abs, ringOps, fifoOps, RingBuffer.queue_grow]
  | closeWrite =>
    cases hs
    exact ⟨rfl, h⟩
  | closeDone =>
    cases hs
    exact ⟨rfl, h⟩

/-- The queue simulates the ring, step by step. -/
theorem simulates : Simulates (step ringOps) (fun _ op => op.NonEmpty) (step fifoOps)
    (fun s t => t = s.abs ∧ s.Pending) id := by
  rintro s t op s' ⟨rfl, hp⟩ hop hs
  obtain ⟨hq, hp'⟩ := abs_step hp hop hs
  exact ⟨s'.abs, hq, rfl, hp'⟩

/-! ### What a locked section does to the bytes held -/

/-- The locked sections that can come next, in terms of the ring's own `Len` and `Free`. -/
structure Sections (s : Machine RingBuffer ℕ) : Prop where
  write : ∀ g rest n, s.calls g = .writing rest n →
    (lockedWrite ringOps s g rest n).buf.contents = s.buf.contents ++
      if s.buf.closed then [] else rest.take (min rest.length s.buf.free)
  writeNoBlock : ∀ g p, p ≠ [] → (writeNoBlock ringOps s g p).buf.contents = s.buf.contents ++
      if s.buf.closed then [] else p.take (min p.length s.buf.free)
  read : ∀ g k, s.calls g = .reading k →
    (lockedRead ringOps s g k).buf.contents = s.buf.contents.drop (min k s.buf.len) ∧
      (s.buf.contents ≠ [] → (lockedRead ringOps s g k).log =
        s.log ++ [(g, .took (s.buf.contents.take (min k s.buf.len)))])
  readNoBlock : ∀ g k, 0 < k →
    (readNoBlock ringOps s g k).buf.contents = s.buf.contents.drop (min k s.buf.len) ∧
      (readNoBlock ringOps s g k).log =
        s.log ++ [(g, .took (s.buf.contents.take (min k s.buf.len)))]
  eof : ∀ g k, s.calls g = .reading k → ((lockedRead ringOps s g k).log = s.log ++ [(g, .eof)] ↔
    s.buf.closed = true ∧ s.buf.contents = [])
  grow : ∀ n, (ringOps.grow s.buf n).contents = s.buf.contents

@[simp] theorem setCall_buf {β E : Type} (s : Machine β E) (g : ℕ) (c : Call E) :
    (s.setCall g c).buf = s.buf := rfl

@[simp] theorem finish_buf {β E : Type} (s : Machine β E) (g : ℕ) (o : Outcome) :
    (s.finish g o).buf = s.buf := rfl

@[simp] theorem writeLoop_buf {β E : Type} (s : Machine β E) (g : ℕ) (rest : List UInt8) (n : ℕ) :
    (s.writeLoop g rest n).buf = s.buf := by
  unfold writeLoop; split_ifs <;> rfl

theorem take_min_len (rb : RingBuffer) (k : ℕ) :
    rb.contents.take (min k rb.len) = rb.contents.take k := by
  rw [List.take_eq_take_iff, RingBuffer.length_contents]
  omega

theorem drop_min_len (rb : RingBuffer) (k : ℕ) :
    rb.contents.drop (min k rb.len) = rb.contents.drop k := by
  rcases le_total k rb.len with h | h
  · rw [min_eq_left h]
  · rw [min_eq_right h, List.drop_of_length_le (by simp), List.drop_of_length_le (by simpa using h)]

/-- The three ways a locked write ends: closed, full, or with what fits appended. -/
theorem contents_of_write {rb rb' : RingBuffer} {p : List UInt8} (hp : p ≠ [])
    (h : rb' = if rb.closed then rb else if rb.free = 0 then rb else (ringOps.write rb p).1) :
    rb'.contents = rb.contents ++ if rb.closed then [] else p.take (min p.length rb.free) := by
  subst h
  split_ifs with hc hf
  · exact (List.append_nil _).symm
  · simp [hf]
  · exact rb.contents_writeLocked hp hf

theorem lockedWrite_buf (s : Machine RingBuffer ℕ) (g : ℕ) (rest : List UInt8) (n : ℕ) :
    (lockedWrite ringOps s g rest n).buf = if s.buf.closed then s.buf
      else if s.buf.free = 0 then s.buf else (ringOps.write s.buf rest).1 := by
  rw [lockedWrite, apply_ite buf, apply_ite buf]
  simp only [finish_buf, setCall_buf, writeLoop_buf]
  rfl

theorem writeNoBlock_buf (s : Machine RingBuffer ℕ) (g : ℕ) (p : List UInt8) :
    (Machine.writeNoBlock ringOps s g p).buf = if s.buf.closed then s.buf
      else if s.buf.free = 0 then s.buf else (ringOps.write s.buf p).1 := by
  rw [Machine.writeNoBlock, apply_ite buf, apply_ite buf]
  simp only [finish_buf]
  rfl

theorem lockedRead_of_nil {g k : ℕ} (h : s.buf.contents = []) :
    lockedRead ringOps s g k = if s.buf.closed then s.finish g .eof
      else s.setCall g (.awaitingData s.buf.notEmpty k) := by
  have hlen : ¬ ringOps.len s.buf > 0 := by simp [ringOps, (s.buf.contents_eq_nil_iff).1 h]
  rw [lockedRead, if_neg hlen]
  rfl

theorem lockedRead_of_ne_nil {g k : ℕ} (h : s.buf.contents ≠ []) :
    lockedRead ringOps s g k = { s with buf := (ringOps.read s.buf k).1 }.finish g
      (.took (s.buf.contents.take k)) := by
  have hlen : ringOps.len s.buf > 0 :=
    Nat.pos_of_ne_zero fun h0 => h ((s.buf.contents_eq_nil_iff).2 h0)
  rw [lockedRead, if_pos hlen, ← s.buf.readLocked_snd k]
  rfl

/-- Between two steps every section does what it should. -/
theorem sections (h : s.Pending) : s.Sections where
  write g rest n hc := by
    have hrest : rest ≠ [] := by
      have hg := h g
      rwa [hc] at hg
    exact contents_of_write hrest (s.lockedWrite_buf g rest n)
  writeNoBlock g p hp := contents_of_write hp (s.writeNoBlock_buf g p)
  read g k hc := by
    have hk : 0 < k := by
      have hg := h g
      rwa [hc] at hg
    rw [take_min_len, drop_min_len]
    by_cases hnil : s.buf.contents = []
    · refine ⟨?_, fun hne => absurd hnil hne⟩
      rw [lockedRead_of_nil hnil, apply_ite buf, finish_buf, setCall_buf, ite_self, hnil,
        List.drop_nil]
    · rw [lockedRead_of_ne_nil hnil]
      exact ⟨s.buf.contents_readLocked hk, fun _ => rfl⟩
  readNoBlock g k hk := by
    rw [take_min_len, drop_min_len, Machine.readNoBlock]
    split_ifs with hlen
    · have hnil : s.buf.contents = [] := (s.buf.contents_eq_nil_iff).2 hlen
      rw [finish_buf, hnil, List.drop_nil, List.take_nil]
      exact ⟨rfl, rfl⟩
    · rw [← s.buf.readLocked_snd k]
      exact ⟨s.buf.contents_readLocked hk, rfl⟩
  eof g k _ := by
    by_cases hnil : s.buf.contents = []
    · rw [lockedRead_of_nil hnil]
      by_cases hc : s.buf.closed = true
      · rw [if_pos hc]
        exact iff_of_true rfl ⟨hc, hnil⟩
      · rw [if_neg hc]
        exact iff_of_false (by simp [setCall]) fun he => hc he.1
    · rw [lockedRead_of_ne_nil hnil]
      exact iff_of_false (by simp [Machine.finish]) fun he => hnil he.2
  grow n := s.buf.contents_grow _

/-- CORRECT: whatever calls are made on a ring of any capacity, and however their turns interleave,
    a bounded first-in first-out queue goes through the same calls with the same results and ends
    with the bytes the ring holds; the ring's own `Len`, `Free` and indices stay consistent, and
    each locked section adds and removes what it reports. -/
theorem ring_refines_queue (size : ℕ) (hsize : 0 < size) (ops : List Op)
    (s : Machine RingBuffer ℕ)
    (hr : Run (step ringOps) (fun _ op => op.NonEmpty) (start (RingBuffer.new size hsize)) ops s) :
    Run (step fifoOps) (fun _ _ => True) (start (Fifo.new size)) ops s.abs ∧ s.Sections ∧
      s.buf.len + s.buf.free = s.buf.cap ∧ s.buf.r < s.buf.cap ∧ s.buf.w < s.buf.cap := by
  have habs : start (Fifo.new size) = (start (RingBuffer.new size hsize)).abs := by
    simp only [start, abs, RingBuffer.queue_new, Call.forget]
  obtain ⟨t, hrun, rfl, hp⟩ := simulates.run hr ⟨habs, fun _ => trivial⟩
  rw [List.map_id] at hrun
  exact ⟨hrun, sections hp, s.buf.len_add_free, s.buf.r_lt, s.buf.w_lt⟩

/-- A writer that fills a ring of two bytes waits, is woken by a read and finishes; another reader
    sees the end of the stream. -/
theorem ring_refines_queue_two : ∃ s : Machine RingBuffer ℕ,
    (s.log = [(1, .took [1, 2]), (0, .wrote 3), (1, .took [3]), (1, .eof)] ∧
      s.buf.contents = []) ∧
    Run (step fifoOps) (fun _ _ => True) (start (Fifo.new 2))
      [.write 0 [1, 2, 3], .writeStep 0, .writeStep 0, .readNoBlock 1 5, .roomWake 0, .writeStep 0,
        .closeWrite, .read 1 4, .readStep 1, .read 1 4, .readStep 1] s.abs := by
  obtain ⟨s, hr, hs⟩ := exists_run_exec (step ringOps) (fun _ op => op.NonEmpty)
    (start (RingBuffer.new 2 (by decide)))
    [.write 0 [1, 2, 3], .writeStep 0, .writeStep 0, .readNoBlock 1 5, .roomWake 0,
      .writeStep 0, .closeWrite, .read 1 4, .readStep 1, .read 1 4, .readStep 1]
    (fun s => s.log = [(1, .took [1, 2]), (0, .wrote 3), (1, .took [3]), (1, .eof)] ∧
      s.buf.contents = []) (by decide +kernel)
  exact ⟨s, hs, (ring_refines_queue 2 (by decide) _ s hr).1⟩

end Machine
end Netstack.Tcp
