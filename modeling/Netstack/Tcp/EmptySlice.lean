import Netstack.Tcp.RingQueue
import Netstack.Tcp.System

/-! Calls of the ring buffer with an empty slice.

    They move no byte and no index, but `readLocked` clears the `full` flag and `writeLocked` sets it
    when the indices meet. In the two states with `r = w` that changes what the buffer holds: an
    empty read empties a full buffer, and an empty write fills an empty one. -/

namespace Netstack.Tcp
open Netstack.Trace

namespace RingBuffer

/-- The stored bytes and their number are the same. -/
def SameBytes (rb rb' : RingBuffer) : Prop := rb'.contents = rb.contents ∧ rb'.len = rb.len

instance (rb rb' : RingBuffer) : Decidable (SameBytes rb rb') := inferInstanceAs (Decidable (_ ∧ _))

theorem SameBytes.refl (rb : RingBuffer) : SameBytes rb rb := ⟨rfl, rfl⟩

theorem len_lt_cap_iff (rb : RingBuffer) : rb.len < rb.cap ↔ rb.full = false := by
  rw [len, cap]
  cases hf : rb.full with
  | true => simp
  | false => simpa using Nat.mod_lt _ rb.cap_pos

/-- In a buffer that is not full the indices meet when it is empty. -/
theorem len_eq_zero_iff (rb : RingBuffer) (hf : rb.full = false) : rb.len = 0 ↔ rb.w = rb.r := by
  have hr := rb.r_lt
  have hw := rb.w_lt
  rw [len, hf, if_neg (by simp)]
  rcases Nat.lt_trichotomy rb.w rb.r with h | h | h
  · rw [Nat.mod_eq_of_lt (by omega)]
    omega
  · rw [h, Nat.add_sub_cancel_left, Nat.mod_self]
    exact iff_of_true rfl rfl
  · rw [Nat.mod_eq_sub_mod (by omega), Nat.mod_eq_of_lt (by omega)]
    omega

/-- An empty read does nothing but clear the flag. -/
theorem readLocked_zero (rb : RingBuffer) :
    (rb.readLocked 0).1 = { rb with full := false, full_eq := by simp } ∧ (rb.readLocked 0).2 = [] := by
  have hr : rb.r % rb.buf.length = rb.r := Nat.mod_eq_of_lt rb.r_lt
  constructor
  · simp [readLocked, hr]
  · simp [readLocked]

/-- An empty write does nothing but set the flag where the indices meet. -/
theorem writeLocked_nil (rb : RingBuffer) : (rb.writeLocked []).1.buf = rb.buf ∧ (rb.writeLocked []).1.r = rb.r ∧
    (rb.writeLocked []).1.w = rb.w ∧ (rb.writeLocked []).1.full = (if rb.w = rb.r then true else rb.full) ∧
    (rb.writeLocked []).2 = 0 := by
  have hw : rb.w % rb.buf.length = rb.w := Nat.mod_eq_of_lt rb.w_lt
  refine ⟨?_, rfl, ?_, ?_, ?_⟩
  · simp [writeLocked, writeBuf, Netstack.Copy.blit]
  · simp [writeLocked, hw]
  · simp [writeLocked, hw]
  · simp [writeLocked]

/-- Buffers that differ in the wake-up channels at most hold the same bytes. -/
theorem sameBytes_of_eq {rb rb' : RingBuffer} (hb : rb'.buf = rb.buf) (hr : rb'.r = rb.r) (hw : rb'.w = rb.w)
    (hf : rb'.full = rb.full) : SameBytes rb rb' := by
  have hlen : rb'.len = rb.len := by rw [len, len, hb, hr, hw, hf]
  exact ⟨by rw [contents, contents, hb, hr, hlen], hlen⟩

/-- What the locked section of an empty read leaves, `rb'` being woken writers apart. -/
theorem sameBytes_readLocked {rb rb' : RingBuffer} (hb : rb'.buf = rb.buf) (hr : rb'.r = rb.r)
    (hw : rb'.w = rb.w) (hf : rb'.full = false) : SameBytes rb rb' ↔ rb.len < rb.cap := by
  rw [len_lt_cap_iff]
  constructor
  · rintro ⟨-, hlen⟩
    by_contra hfull
    rw [Bool.not_eq_false] at hfull
    have hzero : rb'.len = 0 := (rb'.len_eq_zero_iff hf).2 (by rw [hw, hr, rb.full_eq hfull])
    have hpos := rb.cap_pos
    rw [hzero, len, hfull, if_pos rfl] at hlen
    omega
  · intro hfull
    exact sameBytes_of_eq hb hr hw (hf.trans hfull.symm)

theorem sameBytes_readNoBlock (rb : RingBuffer) : SameBytes rb (rb.readNoBlock 0).1 ↔ rb.len < rb.cap := by
  have hpos : 0 < rb.cap := rb.cap_pos
  rw [readNoBlock]
  split_ifs with h
  · exact iff_of_true (SameBytes.refl rb) (by omega)
  · dsimp only
    rw [(readLocked_zero rb).1]
    exact sameBytes_readLocked rfl rfl rfl rfl

theorem sameBytes_writeLocked {rb rb' : RingBuffer} (hfull : rb.full = false) (hb : rb'.buf = rb.buf)
    (hr : rb'.r = rb.r) (hw : rb'.w = rb.w) (hf : rb'.full = if rb.w = rb.r then true else rb.full) :
    SameBytes rb rb' ↔ 0 < rb.len := by
  have hzero := rb.len_eq_zero_iff hfull
  have hlt := rb.len_lt_cap_iff.2 hfull
  constructor
  · rintro ⟨-, hlen⟩
    by_contra h0
    rw [if_pos (hzero.1 (by omega))] at hf
    rw [len, hf, if_pos rfl, hb] at hlen
    rw [cap] at hlt
    omega
  · intro hpos
    rw [if_neg fun hwr => by have := hzero.2 hwr; omega] at hf
    exact sameBytes_of_eq hb hr hw hf

end RingBuffer

/-! ### The calls -/

section
open Machine RingBuffer

theorem sameBytes_lockedRead (s : Machine RingBuffer ℕ) (g : ℕ) :
    SameBytes s.buf (lockedRead ringOps s g 0).buf ↔ s.buf.len < s.buf.cap := by
  have hpos : 0 < s.buf.cap := s.buf.cap_pos
  rw [lockedRead]
  split_ifs with hlen hclosed
  · dsimp only [ringOps, finish, setCall]
    rw [(readLocked_zero s.buf).1]
    exact sameBytes_readLocked rfl rfl rfl rfl
  · exact iff_of_true (SameBytes.refl _) (lt_of_le_of_lt (Nat.le_of_not_lt hlen) hpos)
  · exact iff_of_true (SameBytes.refl _) (lt_of_le_of_lt (Nat.le_of_not_lt hlen) hpos)

theorem sameBytes_machine_readNoBlock (s : Machine RingBuffer ℕ) (g : ℕ) :
    SameBytes s.buf (Machine.readNoBlock ringOps s g 0).buf ↔ s.buf.len < s.buf.cap := by
  have hpos : 0 < s.buf.cap := s.buf.cap_pos
  rw [Machine.readNoBlock]
  split_ifs with hlen
  · exact iff_of_true (SameBytes.refl _) (lt_of_le_of_lt (le_of_eq hlen) hpos)
  · dsimp only [ringOps, finish, setCall]
    rw [(readLocked_zero s.buf).1]
    exact sameBytes_readLocked rfl rfl rfl rfl

theorem sameBytes_machine_writeNoBlock (s : Machine RingBuffer ℕ) (g : ℕ) :
    SameBytes s.buf (Machine.writeNoBlock ringOps s g []).buf ↔ s.buf.closed = true ∨ 0 < s.buf.len := by
  have hpos : 0 < s.buf.cap := s.buf.cap_pos
  have hsum := s.buf.len_add_free
  rw [Machine.writeNoBlock]
  split_ifs with hclosed hfree
  · exact iff_of_true (SameBytes.refl _) (.inl hclosed)
  · have hfree : s.buf.free = 0 := hfree
    exact iff_of_true (SameBytes.refl _) (.inr (by omega))
  · have hfree : ¬s.buf.free = 0 := hfree
    obtain ⟨hb, hr, hw, hf, -⟩ := s.buf.writeLocked_nil
    have hopen : ¬s.buf.closed = true := hclosed
    rw [or_iff_right hopen]
    exact sameBytes_writeLocked (s.buf.len_lt_cap_iff.1 (by omega)) hb hr hw hf

/-- CORRECT: `Read`, `ReadNoBlock` and `WriteNoBlock` with an empty slice return no bytes. The first two
    leave the stored bytes as they are exactly if the buffer is not exactly full, the third exactly if
    the buffer is closed or not empty; and an empty `TCPConn.Read` keeps the received data exactly if
    the receive buffer is not full. -/
theorem empty_slice_harmless_iff (s : Machine RingBuffer ℕ) (g : ℕ) :
    (((lockedRead ringOps s g 0).log = s.log ∨ (lockedRead ringOps s g 0).log = s.log ++ [(g, .took [])] ∨
        (lockedRead ringOps s g 0).log = s.log ++ [(g, .eof)]) ∧
      (Machine.readNoBlock ringOps s g 0).log = s.log ++ [(g, .took [])] ∧
      (Machine.writeNoBlock ringOps s g []).log = s.log ++ [(g, .wrote 0)] ∧
      (SameBytes s.buf (lockedRead ringOps s g 0).buf ↔ s.buf.len < s.buf.cap) ∧
      (SameBytes s.buf (Machine.readNoBlock ringOps s g 0).buf ↔ s.buf.len < s.buf.cap) ∧
      (SameBytes s.buf (Machine.writeNoBlock ringOps s g []).buf ↔ s.buf.closed = true ∨ 0 < s.buf.len)) ∧
    ∀ s s' : Sys, s.step (.readCall 0) = some s' →
      (SameBytes s.conn.rx.readBuf s'.conn.rx.readBuf ↔ s.conn.rx.readBuf.len < s.conn.rx.readBuf.cap) := by
  refine ⟨⟨?_, ?_, ?_, sameBytes_lockedRead s g, sameBytes_machine_readNoBlock s g,
    sameBytes_machine_writeNoBlock s g⟩, fun s s' hs => ?_⟩
  · rw [lockedRead]
    split_ifs
    · refine .inr (.inl ?_)
      dsimp only [ringOps, finish, setCall]
      rw [(readLocked_zero s.buf).2]
    · exact .inr (.inr rfl)
    · exact .inl rfl
  · rw [Machine.readNoBlock]
    split_ifs
    · rfl
    · dsimp only [ringOps, finish, setCall]
      rw [(readLocked_zero s.buf).2]
  · rw [Machine.writeNoBlock]
    split_ifs
    · rfl
    · rfl
    · dsimp only [ringOps, finish, setCall]
      rw [s.buf.writeLocked_nil.2.2.2.2]
  · rw [Sys.step] at hs
    split_ifs at hs
    rw [Sys.appStep, if_neg (Nat.lt_irrefl 0)] at hs
    split_ifs at hs
    cases hs
    exact sameBytes_readNoBlock _

/-- One byte in a buffer of two. -/
theorem empty_slice_harmless_sample :
    let s : Machine RingBuffer ℕ := start ((RingBuffer.new 2 (by decide)).writeNoBlock [7]).1
    SameBytes s.buf (lockedRead ringOps s 0 0).buf ∧ SameBytes s.buf (Machine.writeNoBlock ringOps s 0 []).buf := by
  intro s
  obtain ⟨⟨-, -, -, hread, -, hwrite⟩, -⟩ := empty_slice_harmless_iff s 0
  exact ⟨hread.2 (by decide), hwrite.2 (.inr (by decide))⟩

/-- A full buffer is empty after an empty read, and an empty one holds two bytes after an empty
    write. -/
theorem empty_slice_moves_data :
    let full := ((RingBuffer.new 2 (by decide)).writeNoBlock [1, 2]).1
    full.contents = [1, 2] ∧ (full.readNoBlock 0).1.contents = [] ∧
      ((RingBuffer.new 2 (by decide)).writeNoBlock []).1.contents = [0, 0] := by
  decide

end
end Netstack.Tcp
