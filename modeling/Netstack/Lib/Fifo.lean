import Mathlib.Tactic

/-! A bounded first-in first-out queue.

    The queue takes from a write what it has room for, gives a reader its oldest elements, can be
    made larger and can be closed for writing. -/

namespace Netstack

/-- At most `cap` elements, oldest first. -/
@[ext]
structure Fifo (α : Type*) where
  items : List α
  cap : ℕ
  closed : Bool
  bound : items.length ≤ cap

namespace Fifo

variable {α : Type*}

/-- The empty queue. -/
def new (cap : ℕ) : Fifo α := ⟨[], cap, false, Nat.zero_le _⟩

/-- How many more elements fit. -/
def room (q : Fifo α) : ℕ := q.cap - q.items.length

/-- The first elements of `p`, as many as there is room for; returns how many. -/
def push (q : Fifo α) (p : List α) : Fifo α × ℕ :=
  ({ q with
      items := q.items ++ p.take q.room
      bound := by
        have := q.bound
        simp only [List.length_append, List.length_take, room]
        omega }, min p.length q.room)

/-- The `k` oldest elements, or all. -/
def pop (q : Fifo α) (k : ℕ) : Fifo α × List α :=
  ({ q with
      items := q.items.drop k
      bound := (List.length_drop ▸ Nat.sub_le _ _).trans q.bound }, q.items.take k)

/-- More room; never less. -/
def grow (q : Fifo α) (n : ℕ) : Fifo α :=
  { q with cap := max q.cap n, bound := q.bound.trans (Nat.le_max_left _ _) }

/-- No more writes. -/
def close (q : Fifo α) : Fifo α := { q with closed := true }

end Fifo
end Netstack
