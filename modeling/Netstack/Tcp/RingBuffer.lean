import Netstack.Lib.Copy

/-! The circular byte buffer between the application and a connection (`ringbuf.go`).

    The buffer is modelled as the source has it: a byte array, a read and a write index and the
    `full` flag that tells the two cases `r = w` apart. The two channels that are closed and made
    anew to wake waiting callers are epochs: a caller waits on the epoch it saw under the lock and
    is woken once the epoch has moved on. What the operations do to the bytes held is stated over
    `contents`, the bounded queue the buffer implements. -/

namespace Netstack.Tcp
open Netstack.Copy

/-- `ringBuffer`. The last four fields are what every operation keeps. -/
structure RingBuffer where
  buf : List UInt8
  r : ℕ
  w : ℕ
  full : Bool
  notEmpty : ℕ
  notFull : ℕ
  closed : Bool
  cap_pos : 0 < buf.length
  r_lt : r < buf.length
  w_lt : w < buf.length
  full_eq : full = true → r = w
  deriving DecidableEq

namespace RingBuffer

/-- `newRingBuffer`, for the sizes on which its first use does not panic. -/
def new (size : ℕ) (h : 0 < size) : RingBuffer where
  buf := List.replicate size 0
  r := 0
  w := 0
  full := false
  notEmpty := 0
  notFull := 0
  closed := false
  cap_pos := by simpa using h
  r_lt := by simpa using h
  w_lt := by simpa using h
  full_eq := by simp

/-- `Cap`. -/
def cap (rb : RingBuffer) : ℕ := rb.buf.length

/-- `Len`, `lenLocked`: the number of bytes available for reading. -/
def len (rb : RingBuffer) : ℕ :=
  if rb.full then rb.buf.length else (rb.w + rb.buf.length - rb.r) % rb.buf.length

/-- `Free`: the number of bytes available for writing. -/
def free (rb : RingBuffer) : ℕ := rb.buf.length - rb.len

/-- The array after the two copies of `writeLocked`: `w` to the end, then from the start. -/
def writeBuf (rb : RingBuffer) (p : List UInt8) (n : ℕ) : List UInt8 :=
  let first := min (rb.buf.length - rb.w) n
  let buf := blit rb.buf rb.w (p.take first)
  if n - first > 0 then blit buf 0 ((p.take n).drop first) else buf

@[simp] theorem length_writeBuf (rb : RingBuffer) (p : List UInt8) (n : ℕ) :
    (rb.writeBuf p n).length = rb.buf.length := by
  have hw := rb.w_lt
  simp only [writeBuf]
  split
  · rw [length_blit _ (Nat.zero_le _), length_blit _ (by omega)]
  · rw [length_blit _ (by omega)]

/-- `writeLocked`: copies as much of `p` as is free (every caller passes `Free()` as the bound);
    returns how much. -/
def writeLocked (rb : RingBuffer) (p : List UInt8) : RingBuffer × ℕ :=
  let n := min p.length rb.free
  let w := (rb.w + n) % rb.buf.length
  ({ rb with
      buf := rb.writeBuf p n
      w := w
      full := if w = rb.r then true else rb.full
      cap_pos := by simpa using rb.cap_pos
      r_lt := by simpa using rb.r_lt
      w_lt := by simpa [w] using Nat.mod_lt _ rb.cap_pos
      full_eq := by
        -- a buffer that was full before has no room, so its `w` has not moved
        intro h
        by_cases hw : w = rb.r
        · exact hw.symm
        · rw [if_neg hw] at h
          have hfree : rb.free = 0 := by simp [free, len, h]
          have hwr : w = rb.w := by simp [w, n, hfree, Nat.mod_eq_of_lt rb.w_lt]
          rw [hwr, rb.full_eq h] }, n)

/-- `readLocked` for a slice of length `k`: takes up to `k` bytes out, in at most two chunks. -/
def readLocked (rb : RingBuffer) (k : ℕ) : RingBuffer × List UInt8 :=
  let n := min k rb.len
  let first := min (rb.buf.length - rb.r) n
  let bytes := (rb.buf.drop rb.r).take first ++ rb.buf.take (n - first)
  ({ rb with
      r := (rb.r + n) % rb.buf.length
      full := false
      r_lt := Nat.mod_lt _ rb.cap_pos
      full_eq := by simp }, bytes)

/-- `WriteNoBlock`. -/
def writeNoBlock (rb : RingBuffer) (p : List UInt8) : RingBuffer × ℕ :=
  if rb.closed then (rb, 0)
  else if rb.free = 0 then (rb, 0)
  else
    let (rb', n) := rb.writeLocked p
    ({ rb' with notEmpty := rb'.notEmpty + 1 }, n)

/-- `ReadNoBlock` into a slice of length `k`; also the locked step of `Read` on a non-empty
    buffer. -/
def readNoBlock (rb : RingBuffer) (k : ℕ) : RingBuffer × List UInt8 :=
  if rb.len = 0 then (rb, [])
  else
    let (rb', bytes) := rb.readLocked k
    ({ rb' with notFull := rb'.notFull + 1 }, bytes)

theorem len_le (rb : RingBuffer) : rb.len ≤ rb.buf.length := by
  unfold len; split
  · exact le_refl _
  · exact (Nat.mod_lt _ rb.cap_pos).le

/-- What `Grow` copies out of a non-empty buffer: one piece, or two when the data wraps around or
    the buffer is full. -/
def unread (rb : RingBuffer) : List UInt8 :=
  if rb.r < rb.w then (rb.buf.drop rb.r).take (rb.w - rb.r) else rb.buf.drop rb.r ++ rb.buf.take rb.w

/-- `Grow`: the unread bytes move to the front of a larger array. -/
def grow (rb : RingBuffer) (newCap : ℕ) : RingBuffer :=
  if h : newCap ≤ rb.buf.length then rb
  else
    let newBuf := List.replicate newCap 0
    { buf := if rb.len > 0 then blit newBuf 0 rb.unread else newBuf
      r := 0
      w := rb.len
      full := false
      notEmpty := rb.notEmpty
      notFull := rb.notFull + 1
      closed := rb.closed
      cap_pos := by split <;> simp [newBuf] <;> omega
      r_lt := by split <;> simp [newBuf] <;> omega
      w_lt := by have := rb.len_le; split <;> simp [newBuf] <;> omega
      full_eq := by simp }

/-- `CloseWrite`. -/
def closeWrite (rb : RingBuffer) : RingBuffer :=
  { rb with closed := true, notEmpty := rb.notEmpty + 1 }

/-- The bytes held, oldest first: from `r` on, around the end of the array. -/
def contents (rb : RingBuffer) : List UInt8 :=
  (rb.buf.drop rb.r ++ rb.buf.take rb.r).take rb.len

/-! ### The bounded queue behind the array -/

@[simp] theorem len_add_free (rb : RingBuffer) : rb.len + rb.free = rb.cap := by
  have := rb.len_le; unfold free cap; omega

@[simp] theorem length_contents (rb : RingBuffer) : rb.contents.length = rb.len := by
  have := rb.len_le; have := rb.r_lt
  simp only [contents, List.length_take, List.length_append, List.length_drop]
  omega

theorem contents_eq_nil_iff (rb : RingBuffer) : rb.contents = [] ↔ rb.len = 0 := by
  rw [← List.length_eq_zero_iff, length_contents]

/-- The index `i` places after `r`. -/
def slot (rb : RingBuffer) (i : ℕ) : ℕ :=
  if rb.r + i < rb.buf.length then rb.r + i else rb.r + i - rb.buf.length

theorem getElem?_contents (rb : RingBuffer) {i : ℕ} (hi : i < rb.len) :
    rb.contents[i]? = rb.buf[rb.slot i]? := by
  have hl := rb.len_le; have hr := rb.r_lt
  rw [contents, List.getElem?_take, if_pos hi, List.getElem?_append, List.length_drop, slot]
  by_cases h : i < rb.buf.length - rb.r
  · rw [if_pos h, if_pos (by omega), List.getElem?_drop]
  · rw [if_neg h, if_neg (by omega), List.getElem?_take, if_pos (by omega)]
    congr 1; omega

/-- The write index stands `len` places after the read index. -/
theorem w_eq_slot (rb : RingBuffer) (h : rb.len < rb.buf.length) : rb.w = rb.slot rb.len := by
  have hw := rb.w_lt; have hr := rb.r_lt
  unfold len at h ⊢; unfold slot
  split at h
  · omega
  · rename_i hf
    rw [if_neg hf]
    rcases Nat.lt_or_ge rb.w rb.r with hlt | hge
    · rw [Nat.mod_eq_of_lt (by omega)]; split <;> omega
    · rw [show rb.w + rb.buf.length - rb.r = (rb.w - rb.r) + rb.buf.length by omega,
        Nat.add_mod_right, Nat.mod_eq_of_lt (by omega)]
      split <;> omega

/-- After the two copies a slot holds the new byte written to it, or its old byte. -/
theorem getElem?_writeBuf (rb : RingBuffer) {p : List UInt8} {n : ℕ} (hp : n ≤ p.length)
    (hn : n ≤ rb.buf.length) (j : ℕ) :
    (rb.writeBuf p n)[j]? =
      if rb.w ≤ j ∧ j < rb.w + n ∧ j < rb.buf.length then p[j - rb.w]?
      else if j + rb.buf.length < rb.w + n then p[j + rb.buf.length - rb.w]? else rb.buf[j]? := by
  have hw := rb.w_lt
  set first := min (rb.buf.length - rb.w) n with hfirst
  have hl1 : (p.take first).length = first := by rw [List.length_take]; omega
  have hl2 : ((p.take n).drop first).length = n - first := by
    rw [List.length_drop, List.length_take]; omega
  have hfit : rb.w + (p.take first).length ≤ rb.buf.length := by rw [hl1]; omega
  have inner : (blit rb.buf rb.w (p.take first))[j]? =
      if rb.w ≤ j ∧ j < rb.w + n ∧ j < rb.buf.length then p[j - rb.w]? else rb.buf[j]? := by
    rw [getElem?_blit _ hfit, hl1]
    by_cases hin : rb.w ≤ j ∧ j < rb.w + first
    · rw [if_pos hin, if_pos (by omega), List.getElem?_take, if_pos (by omega)]
    · rw [if_neg hin, if_neg (by omega)]
  unfold writeBuf
  rw [← hfirst]
  simp only
  split
  · rename_i hsec
    rw [getElem?_blit _ (by rw [hl2, length_blit _ (by omega)]; omega), hl2, inner]
    by_cases hj : j < n - first
    · rw [if_pos (by omega), if_neg (by omega), if_pos (by omega), List.getElem?_drop,
        List.getElem?_take, if_pos (by omega)]
      congr 1; omega
    · rw [if_neg (by omega)]
      split
      · rfl
      · rw [if_neg (by omega)]
  · rw [inner]
    split
    · rfl
    · rw [if_neg (by omega)]

theorem len_writeLocked (rb : RingBuffer) {p : List UInt8} (hp : p ≠ []) (hf : rb.free ≠ 0) :
    (rb.writeLocked p).1.len = rb.len + (rb.writeLocked p).2 := by
  have hpos := List.length_pos_iff.2 hp
  have hl := rb.len_le; have hr := rb.r_lt
  have hlt : rb.len < rb.buf.length := by unfold free at hf; omega
  have hfree : rb.free = rb.buf.length - rb.len := rfl
  have hws := rb.w_eq_slot hlt
  have hnf : rb.full = false := by
    cases hfl : rb.full with
    | false => rfl
    | true => simp [len, hfl] at hlt
  have hnew : (rb.writeLocked p).2 = min p.length rb.free := rfl
  have hval : (rb.writeLocked p).1.len =
      if (rb.w + (rb.writeLocked p).2) % rb.buf.length = rb.r then rb.buf.length
      else ((rb.w + (rb.writeLocked p).2) % rb.buf.length + rb.buf.length - rb.r)
        % rb.buf.length := by
    simp only [writeLocked, len, hnf, length_writeBuf]
    split <;> simp_all
  rw [hval, hws, slot]
  generalize hn : (rb.writeLocked p).2 = n at hnew ⊢
  -- `w` lands `len + n` places after `r`, which is `r` itself when the buffer fills up
  rcases Nat.lt_or_ge (rb.r + (rb.len + n)) rb.buf.length with h | h
  · have hmod : ((if rb.r + rb.len < rb.buf.length then rb.r + rb.len
        else rb.r + rb.len - rb.buf.length) + n) % rb.buf.length = rb.r + (rb.len + n) := by
      rw [if_pos (by omega), Nat.mod_eq_of_lt (by omega)]; omega
    rw [hmod, if_neg (by omega),
      show rb.r + (rb.len + n) + rb.buf.length - rb.r = (rb.len + n) + rb.buf.length by omega,
      Nat.add_mod_right, Nat.mod_eq_of_lt (by omega)]
  · have hmod : ((if rb.r + rb.len < rb.buf.length then rb.r + rb.len
        else rb.r + rb.len - rb.buf.length) + n) % rb.buf.length
        = rb.r + (rb.len + n) - rb.buf.length := by
      split
      · rw [Nat.mod_eq_sub_mod (by omega), Nat.mod_eq_of_lt (by omega)]; omega
      · rw [Nat.mod_eq_of_lt (by omega)]; omega
    rw [hmod]
    by_cases hfull : rb.len + n = rb.buf.length
    · rw [if_pos (by omega), hfull]
    · rw [if_neg (by omega), Nat.mod_eq_of_lt (by omega)]; omega

/-- A write appends what it copies. -/
theorem contents_writeLocked (rb : RingBuffer) {p : List UInt8} (hp : p ≠ []) (hf : rb.free ≠ 0) :
    (rb.writeLocked p).1.contents = rb.contents ++ p.take (rb.writeLocked p).2 := by
  have hl := rb.len_le; have hr := rb.r_lt
  have hlt : rb.len < rb.buf.length := by unfold free at hf; omega
  have hfree : rb.free = rb.buf.length - rb.len := rfl
  have hlen := rb.len_writeLocked hp hf
  have hw := rb.w_eq_slot hlt
  set n := (rb.writeLocked p).2 with hn
  have hnp : n ≤ p.length := min_le_left _ _
  have hnf : n ≤ rb.free := min_le_right _ _
  apply List.ext_getElem?
  intro i
  by_cases hi : i < rb.len + n
  · rw [getElem?_contents _ (by omega)]
    have hslot : (rb.writeLocked p).1.slot i = rb.slot i := by
      simp [slot, writeLocked]
    have hbuf : (rb.writeLocked p).1.buf = rb.writeBuf p n := rfl
    rw [hslot, hbuf, getElem?_writeBuf rb hnp (by omega), List.getElem?_append, length_contents]
    have hsi : rb.slot i = rb.r + i ∧ rb.r + i < rb.buf.length ∨
        rb.slot i + rb.buf.length = rb.r + i ∧ rb.buf.length ≤ rb.r + i := by
      unfold slot; split <;> omega
    have hsw : rb.w = rb.r + rb.len ∧ rb.r + rb.len < rb.buf.length ∨
        rb.w + rb.buf.length = rb.r + rb.len ∧ rb.buf.length ≤ rb.r + rb.len := by
      rw [hw]; unfold slot; split <;> omega
    by_cases hil : i < rb.len
    · -- an old byte: its slot lies outside the region written
      rw [if_pos hil, getElem?_contents _ hil, if_neg (by omega), if_neg (by omega)]
    · -- a new byte, in the first or in the second chunk
      rw [if_neg hil, List.getElem?_take, if_pos (show i - rb.len < n by omega)]
      by_cases hc : rb.w ≤ rb.slot i ∧ rb.slot i < rb.w + n ∧ rb.slot i < rb.buf.length
      · rw [if_pos hc]; congr 1; omega
      · rw [if_neg hc, if_pos (by omega)]; congr 1; omega
  · rw [List.getElem?_eq_none (by rw [length_contents]; omega), List.getElem?_eq_none]
    rw [List.length_append, length_contents, List.length_take]; omega

/-- The chunks a read copies out are the oldest bytes held. -/
theorem readLocked_snd (rb : RingBuffer) (k : ℕ) : (rb.readLocked k).2 = rb.contents.take k := by
  have hl := rb.len_le; have hr := rb.r_lt
  have hlr : (rb.buf.drop rb.r).length = rb.buf.length - rb.r := List.length_drop
  simp only [readLocked, contents, List.take_take, List.take_append, hlr]
  congr 1
  · rw [List.take_eq_take_iff]; omega
  · rw [List.length_take, hlr, List.take_eq_take_iff]; omega

theorem len_readLocked (rb : RingBuffer) {k : ℕ} (hk : 0 < k) :
    (rb.readLocked k).1.len = rb.len - k := by
  have hl := rb.len_le; have hr := rb.r_lt; have hw := rb.w_lt
  have hval : (rb.readLocked k).1.len =
      (rb.w + rb.buf.length - (rb.r + min k rb.len) % rb.buf.length) % rb.buf.length := by
    simp [readLocked, len]
  -- `r` moves `min k len` places forward and never past `w`
  have hrl : rb.w + rb.buf.length = rb.r + rb.len ∨ rb.w = rb.r + rb.len := by
    unfold len
    split
    · rename_i hf; rw [rb.full_eq hf]; omega
    · rcases Nat.lt_or_ge rb.w rb.r with h | h
      · rw [Nat.mod_eq_of_lt (by omega)]; omega
      · rw [show rb.w + rb.buf.length - rb.r = (rb.w - rb.r) + rb.buf.length by omega,
          Nat.add_mod_right, Nat.mod_eq_of_lt (by omega)]
        omega
  rw [hval]
  rcases Nat.lt_or_ge (rb.r + min k rb.len) rb.buf.length with h | h
  · rw [Nat.mod_eq_of_lt h]
    rcases hrl with hrl | hrl
    · rw [Nat.mod_eq_of_lt (by omega)]; omega
    · rw [Nat.mod_eq_sub_mod (by omega), Nat.mod_eq_of_lt (by omega)]; omega
  · have hm : (rb.r + min k rb.len) % rb.buf.length = rb.r + min k rb.len - rb.buf.length := by
      rw [Nat.mod_eq_sub_mod h, Nat.mod_eq_of_lt (by omega)]
    rw [hm, Nat.mod_eq_sub_mod (by omega), Nat.mod_eq_of_lt (by omega)]; omega

/-- A read into a non-empty slice removes what it copies. -/
theorem contents_readLocked (rb : RingBuffer) {k : ℕ} (hk : 0 < k) :
    (rb.readLocked k).1.contents = rb.contents.drop k := by
  have hl := rb.len_le; have hr := rb.r_lt
  have hlen' := rb.len_readLocked hk
  apply List.ext_getElem?
  intro i
  by_cases hi : i < rb.len - k
  · rw [getElem?_contents _ (by omega), List.getElem?_drop, getElem?_contents _ (by omega)]
    have hbuf : (rb.readLocked k).1.buf = rb.buf := rfl
    have hslot : (rb.readLocked k).1.slot i = rb.slot (k + i) := by
      have hmin : min k rb.len = k := by omega
      simp only [slot, readLocked, hmin]
      rcases Nat.lt_or_ge (rb.r + k) rb.buf.length with h | h
      · rw [Nat.mod_eq_of_lt h]; split <;> split <;> omega
      · rw [Nat.mod_eq_sub_mod h, Nat.mod_eq_of_lt (by omega)]; split <;> split <;> omega
    rw [hbuf, hslot]
  · rw [List.getElem?_eq_none (by rw [length_contents]; omega),
      List.getElem?_eq_none (by rw [List.length_drop, length_contents]; omega)]

/-! ### The operations as queue operations -/

theorem writeNoBlock_snd (rb : RingBuffer) (p : List UInt8) :
    (rb.writeNoBlock p).2 = if rb.closed then 0 else min p.length rb.free := by
  unfold writeNoBlock
  split
  · rfl
  · split
    · rename_i h; simp [h]
    · rfl

theorem writeNoBlock_le (rb : RingBuffer) (p : List UInt8) : (rb.writeNoBlock p).2 ≤ p.length := by
  rw [writeNoBlock_snd]; split <;> omega

/-- `WriteNoBlock` appends the bytes it reports to have written. -/
theorem contents_writeNoBlock (rb : RingBuffer) {p : List UInt8} (hp : p ≠ []) :
    (rb.writeNoBlock p).1.contents = rb.contents ++ p.take (rb.writeNoBlock p).2 := by
  unfold writeNoBlock
  split
  · simp
  · split
    · simp
    · rename_i hf; exact rb.contents_writeLocked hp hf

@[simp] theorem cap_writeNoBlock (rb : RingBuffer) (p : List UInt8) :
    (rb.writeNoBlock p).1.cap = rb.cap := by
  unfold writeNoBlock
  split
  · rfl
  · split
    · rfl
    · simp [cap, writeLocked]

@[simp] theorem closed_writeNoBlock (rb : RingBuffer) (p : List UInt8) :
    (rb.writeNoBlock p).1.closed = rb.closed := by
  unfold writeNoBlock; split
  · rfl
  · split <;> rfl

@[simp] theorem notFull_writeNoBlock (rb : RingBuffer) (p : List UInt8) :
    (rb.writeNoBlock p).1.notFull = rb.notFull := by
  unfold writeNoBlock
  split
  · rfl
  · split <;> rfl

theorem len_writeNoBlock (rb : RingBuffer) {p : List UInt8} (hp : p ≠ []) :
    (rb.writeNoBlock p).1.len = rb.len + (rb.writeNoBlock p).2 := by
  have h := congrArg List.length (rb.contents_writeNoBlock hp)
  have := rb.writeNoBlock_le p
  rw [length_contents, List.length_append, length_contents, List.length_take] at h
  omega

theorem free_writeNoBlock (rb : RingBuffer) {p : List UInt8} (hp : p ≠ []) :
    (rb.writeNoBlock p).1.free + (rb.writeNoBlock p).2 = rb.free := by
  have h1 := (rb.writeNoBlock p).1.len_add_free
  have h2 := rb.len_add_free
  rw [cap_writeNoBlock, len_writeNoBlock rb hp] at h1
  omega

/-- `ReadNoBlock` returns the oldest bytes held. -/
theorem readNoBlock_snd (rb : RingBuffer) (k : ℕ) : (rb.readNoBlock k).2 = rb.contents.take k := by
  unfold readNoBlock
  split
  · rename_i h; simp [(contents_eq_nil_iff rb).2 h]
  · exact rb.readLocked_snd k

/-- `ReadNoBlock` into a non-empty slice removes the bytes it returns. -/
theorem contents_readNoBlock (rb : RingBuffer) {k : ℕ} (hk : 0 < k) :
    (rb.readNoBlock k).1.contents = rb.contents.drop k := by
  unfold readNoBlock
  split
  · rename_i h; simp [(contents_eq_nil_iff rb).2 h]
  · exact rb.contents_readLocked hk

@[simp] theorem cap_readNoBlock (rb : RingBuffer) (k : ℕ) :
    (rb.readNoBlock k).1.cap = rb.cap := by
  unfold readNoBlock; split <;> rfl

@[simp] theorem closed_readNoBlock (rb : RingBuffer) (k : ℕ) :
    (rb.readNoBlock k).1.closed = rb.closed := by
  unfold readNoBlock; split <;> rfl

theorem len_readNoBlock (rb : RingBuffer) {k : ℕ} (hk : 0 < k) :
    (rb.readNoBlock k).1.len = rb.len - k := by
  rw [← length_contents, contents_readNoBlock rb hk, List.length_drop, length_contents]

theorem unread_eq_contents (rb : RingBuffer) (hne : rb.len ≠ 0) : rb.unread = rb.contents := by
  have hr := rb.r_lt; have hw := rb.w_lt
  unfold unread contents
  split
  · rename_i hlt
    have hnf : rb.full ≠ true := fun hf => by have := rb.full_eq hf; omega
    have hlen : rb.len = rb.w - rb.r := by
      unfold len
      rw [if_neg hnf, show rb.w + rb.buf.length - rb.r = (rb.w - rb.r) + rb.buf.length by omega,
        Nat.add_mod_right, Nat.mod_eq_of_lt (by omega)]
    rw [hlen, List.take_append_of_le_length (by rw [List.length_drop]; omega)]
  · have hlen : rb.len = rb.buf.length - rb.r + rb.w := by
      unfold len at hne ⊢
      split
      · rename_i hf; have := rb.full_eq hf; omega
      · rename_i hf
        rw [if_neg hf] at hne
        rcases Nat.lt_or_ge rb.w rb.r with h | h
        · rw [Nat.mod_eq_of_lt (by omega)]; omega
        · -- neither full nor wrapped: then the buffer is empty
          exfalso; apply hne
          rw [show rb.w + rb.buf.length - rb.r = rb.buf.length by omega, Nat.mod_self]
    have hdrop : (rb.buf.drop rb.r).take rb.len = rb.buf.drop rb.r :=
      List.take_of_length_le (by rw [List.length_drop]; omega)
    rw [List.take_append, hdrop, List.length_drop, List.take_take]
    congr 2; omega

theorem contents_of_r_zero (rb : RingBuffer) (hr : rb.r = 0) (hf : rb.full = false) :
    rb.contents = rb.buf.take rb.w := by
  have hw := rb.w_lt
  simp [contents, len, hr, hf, Nat.mod_eq_of_lt hw]

/-- `Grow` keeps the bytes held. -/
theorem contents_grow (rb : RingBuffer) (newCap : ℕ) : (rb.grow newCap).contents = rb.contents := by
  have hl := rb.len_le
  unfold grow
  split
  · rfl
  · rename_i hcap
    rw [contents_of_r_zero _ rfl rfl]
    dsimp only
    by_cases h0 : rb.len = 0
    · rw [h0, List.take_zero, (contents_eq_nil_iff rb).2 h0]
    · have hlen : rb.contents.length ≤ newCap := by rw [length_contents]; omega
      rw [if_pos (Nat.pos_of_ne_zero h0), unread_eq_contents rb h0, blit, List.take_zero,
        List.nil_append, List.length_replicate, Nat.sub_zero, List.take_of_length_le hlen,
        List.take_append_of_le_length (by rw [length_contents]), List.take_of_length_le (by
          rw [length_contents])]

theorem cap_grow (rb : RingBuffer) (newCap : ℕ) : (rb.grow newCap).cap = max rb.cap newCap := by
  unfold grow cap
  split
  · rename_i h; rw [max_eq_left h]
  · rename_i h
    rw [max_eq_right (by omega)]
    dsimp only
    split
    · rw [length_blit _ (Nat.zero_le _), List.length_replicate]
    · rw [List.length_replicate]

@[simp] theorem closed_grow (rb : RingBuffer) (newCap : ℕ) :
    (rb.grow newCap).closed = rb.closed := by
  unfold grow; split <;> rfl

@[simp] theorem len_grow (rb : RingBuffer) (newCap : ℕ) : (rb.grow newCap).len = rb.len := by
  rw [← length_contents, contents_grow, length_contents]

/-- Growing frees space. -/
theorem free_le_free_grow (rb : RingBuffer) (newCap : ℕ) : rb.free ≤ (rb.grow newCap).free := by
  have h1 := (rb.grow newCap).len_add_free
  have h2 := rb.len_add_free
  rw [cap_grow, len_grow] at h1
  omega

@[simp] theorem contents_closeWrite (rb : RingBuffer) : rb.closeWrite.contents = rb.contents := rfl
@[simp] theorem len_closeWrite (rb : RingBuffer) : rb.closeWrite.len = rb.len := rfl
@[simp] theorem free_closeWrite (rb : RingBuffer) : rb.closeWrite.free = rb.free := rfl
@[simp] theorem cap_closeWrite (rb : RingBuffer) : rb.closeWrite.cap = rb.cap := rfl
@[simp] theorem closed_closeWrite (rb : RingBuffer) : rb.closeWrite.closed = true := rfl

theorem cap_new (size : ℕ) (h : 0 < size) : (new size h).cap = size := by
  simp [cap, new]

@[simp] theorem contents_new (size : ℕ) (h : 0 < size) : (new size h).contents = [] := by
  rw [contents_eq_nil_iff]; simp [new, len]

/-- `rb'` is `rb` after reads and growth: no bytes are added, and who waits for space has been woken
    or still finds none. -/
structure Drained (rb rb' : RingBuffer) : Prop where
  len_le : rb'.len ≤ rb.len
  closed : rb.closed = true → rb'.closed = true
  woken : rb.notFull < rb'.notFull ∨ rb'.notFull = rb.notFull ∧ rb'.free = rb.free

namespace Drained

variable {rb rb' rb'' : RingBuffer}

theorem refl (rb : RingBuffer) : Drained rb rb := ⟨le_rfl, id, .inr ⟨rfl, rfl⟩⟩

theorem trans (h : Drained rb rb') (h' : Drained rb' rb'') : Drained rb rb'' := by
  refine ⟨h'.len_le.trans h.len_le, fun hc => h'.closed (h.closed hc), ?_⟩
  rcases h.woken with hw | ⟨he, hf⟩
  · rcases h'.woken with hw' | ⟨he', -⟩ <;> exact .inl (by omega)
  · rcases h'.woken with hw' | ⟨he', hf'⟩
    · exact .inl (by omega)
    · exact .inr ⟨he'.trans he, hf'.trans hf⟩

theorem readNoBlock (rb : RingBuffer) (k : ℕ) : Drained rb (rb.readNoBlock k).1 := by
  have hlen : (rb.readNoBlock k).1.len ≤ rb.len := by
    rcases Nat.eq_zero_or_pos k with rfl | hk
    · rw [RingBuffer.readNoBlock]
      split
      · exact le_rfl
      · have hr := Nat.mod_eq_of_lt rb.r_lt
        simp only [readLocked, len, Nat.zero_min, Nat.add_zero, hr, Bool.false_eq_true, if_false]
        split
        · exact (Nat.mod_lt _ rb.cap_pos).le
        · exact le_rfl
    · rw [len_readNoBlock rb hk]
      omega
  refine ⟨hlen, by simp, ?_⟩
  rw [RingBuffer.readNoBlock]
  split
  · exact .inr ⟨rfl, rfl⟩
  · exact .inl (Nat.lt_succ_self _)

theorem grow (rb : RingBuffer) (newCap : ℕ) : Drained rb (rb.grow newCap) := by
  refine ⟨(rb.len_grow newCap).le, by simp, ?_⟩
  rw [RingBuffer.grow]
  split
  · exact .inr ⟨rfl, rfl⟩
  · exact .inl (Nat.lt_succ_self _)

theorem closeWrite (rb : RingBuffer) : Drained rb rb.closeWrite :=
  ⟨le_rfl, fun _ => rfl, .inr ⟨rfl, rfl⟩⟩

end Drained

/-- Reading frees space. -/
theorem free_le_free_readNoBlock (rb : RingBuffer) (k : ℕ) : rb.free ≤ (rb.readNoBlock k).1.free := by
  have h1 := (rb.readNoBlock k).1.len_add_free
  have h2 := rb.len_add_free
  have h3 := (Drained.readNoBlock rb k).len_le
  rw [cap_readNoBlock] at h1
  omega

end RingBuffer
end Netstack.Tcp
