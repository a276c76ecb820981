import Mathlib.Data.List.Basic
import Mathlib.Tactic

/-! Copying into a byte slice, and reading a slice of a stream.

    `blit dst i src` is the slice `dst` after `src` has been copied to index `i`; what does not fit
    is not copied, as with the builtin copy of a language with bounds-checked slices. A list of
    bytes is read off a stream at an offset when it is an initial segment of the rest of the stream
    there: `data <+: S.drop off`. -/

namespace Netstack.Copy

variable {α : Type*}

/-- `dst` after as much of `src` as fits has been copied over it from index `i` on. -/
def blit (dst : List α) (i : ℕ) (src : List α) : List α :=
  dst.take i ++ src.take (dst.length - i) ++ dst.drop (i + src.length)

@[simp] theorem length_blit {dst : List α} {i : ℕ} (src : List α) (h : i ≤ dst.length) :
    (blit dst i src).length = dst.length := by
  simp only [blit, List.length_append, List.length_take, List.length_drop]
  omega

/-- Outside the copied region nothing changes; inside it stands the source. -/
theorem getElem?_blit {dst : List α} {i : ℕ} (src : List α) (h : i + src.length ≤ dst.length)
    (j : ℕ) : (blit dst i src)[j]? = if i ≤ j ∧ j < i + src.length then src[j - i]? else dst[j]? := by
  have hsrc : src.take (dst.length - i) = src := List.take_of_length_le (by omega)
  have hlen : (dst.take i).length = i := by rw [List.length_take]; omega
  rw [blit, hsrc, List.append_assoc, List.getElem?_append, hlen]
  by_cases hj : j < i
  · rw [if_pos hj, List.getElem?_take, if_pos hj, if_neg (by omega)]
  · rw [if_neg hj, List.getElem?_append]
    by_cases hs : j - i < src.length
    · rw [if_pos hs, if_pos (by omega)]
    · rw [if_neg hs, if_neg (by omega), List.getElem?_drop]
      congr 1; omega

/-- A copy behind `a` leaves `a` alone. -/
theorem blit_append {a b : List α} (src : List α) (h : src.length ≤ b.length) :
    blit (a ++ b) a.length src = a ++ src ++ b.drop src.length := by
  rw [blit, List.take_left, List.length_append, Nat.add_sub_cancel_left, List.take_of_length_le h,
    List.drop_append, List.drop_of_length_le (Nat.le_add_right _ _), List.nil_append,
    Nat.add_sub_cancel_left]

/-- A copy into the first of two parts. -/
theorem blit_append_left {a : List α} {i : ℕ} (b src : List α) (h : i + src.length ≤ a.length) :
    blit (a ++ b) i src = blit a i src ++ b := by
  have hlen : (blit a i src).length = a.length := length_blit src (by omega)
  apply List.ext_getElem?
  intro j
  rw [getElem?_blit src (by rw [List.length_append]; omega), List.getElem?_append, List.getElem?_append,
    hlen, getElem?_blit src h]
  split_ifs <;> first | rfl | omega

/-- A copy into the second of two parts. -/
theorem blit_append_right {b : List α} {i : ℕ} (a src : List α) (h : i + src.length ≤ b.length) :
    blit (a ++ b) (a.length + i) src = a ++ blit b i src := by
  apply List.ext_getElem?
  intro j
  rw [getElem?_blit src (by rw [List.length_append]; omega), List.getElem?_append, List.getElem?_append,
    getElem?_blit src h]
  split_ifs <;> first | rfl | omega | (congr 1; omega)

/-- What lies in front of the copied region is as it was. -/
theorem take_blit {dst : List α} {i n : ℕ} (src : List α) (hn : n ≤ i) (hi : i ≤ dst.length) :
    (blit dst i src).take n = dst.take n := by
  have hlen : (dst.take i).length = i := by rw [List.length_take]; omega
  rw [blit, List.append_assoc, List.take_append_of_le_length (by omega), List.take_take,
    min_eq_left hn]

/-- What lies behind the copied region is as it was. -/
theorem drop_blit {dst : List α} {i k : ℕ} (src : List α) (h : i + src.length ≤ k)
    (hi : i + src.length ≤ dst.length) : (blit dst i src).drop k = dst.drop k := by
  apply List.ext_getElem?
  intro j
  rw [List.getElem?_drop, List.getElem?_drop, getElem?_blit src hi, if_neg (by omega)]

/-- Cutting off what lies behind the copied region. -/
theorem take_blit_of_le {dst : List α} {i n : ℕ} (src : List α) (hn : i + src.length ≤ n)
    (hi : i + src.length ≤ dst.length) : (blit dst i src).take n = blit (dst.take n) i src := by
  apply List.ext_getElem?
  intro j
  rw [getElem?_blit src (by rw [List.length_take]; omega), List.getElem?_take, List.getElem?_take,
    getElem?_blit src hi]
  split_ifs <;> first | rfl | omega

/-- A second copy to the same place replaces the first. -/
theorem blit_blit {dst : List α} {i : ℕ} {x y : List α} (hxy : x.length = y.length)
    (hi : i + x.length ≤ dst.length) : blit (blit dst i x) i y = blit dst i y := by
  apply List.ext_getElem?
  intro j
  have hlen : (blit dst i x).length = dst.length := length_blit x (by omega)
  rw [getElem?_blit y (by omega), getElem?_blit y (by omega), getElem?_blit x hi]
  split_ifs with h1 h2 h2
  · rfl
  · omega
  · rfl

/-! ### Reading a stream at an offset -/

theorem isPrefix_drop {data S : List α} {off : ℕ} (h : data <+: S.drop off) (n : ℕ) :
    data.drop n <+: S.drop (off + n) := by
  simpa [List.drop_drop] using h.drop n

/-- Two consecutive reads are one read. -/
theorem append_isPrefix_drop {a b S : List α} {off : ℕ} (ha : a <+: S.drop off)
    (hb : b <+: S.drop (off + a.length)) : a ++ b <+: S.drop off := by
  obtain ⟨t, ht⟩ := ha
  have hrest : S.drop (off + a.length) = t := by
    rw [← List.drop_drop, ← ht, List.drop_left]
  rw [hrest] at hb
  rw [← ht]
  exact (List.prefix_append_right_inj a).2 hb

/-- A read at the end of what has been read so far extends it. -/
theorem append_isPrefix {a b S : List α} (ha : a <+: S) (hb : b <+: S.drop a.length) :
    a ++ b <+: S := by
  simpa using @append_isPrefix_drop α a b S 0 (by simpa using ha) (by simpa using hb)

/-- A property of byte runs at stream offsets that passes to parts of a run and to runs joined. -/
structure Sliceable (Q : ℕ → List α → Prop) : Prop where
  nil : ∀ off : ℕ, Q off []
  drop : ∀ {off : ℕ} {data : List α} (n : ℕ), Q off data → Q (off + n) (data.drop n)
  take : ∀ {off : ℕ} {data : List α} (n : ℕ), Q off data → Q off (data.take n)
  append : ∀ {off : ℕ} {a b : List α}, Q off a → Q (off + a.length) b → Q off (a ++ b)

/-- Holding of every run is such a property. -/
theorem sliceable_true : Sliceable fun (_ : ℕ) (_ : List α) => True :=
  ⟨fun _ => trivial, fun _ _ => trivial, fun _ _ => trivial, fun _ _ => trivial⟩

/-- So is being read off the stream `S`. -/
theorem sliceable_reads (S : List α) : Sliceable fun off data => data <+: S.drop off where
  nil _ := List.nil_prefix
  drop n h := isPrefix_drop h n
  take n h := (List.take_prefix n _).trans h
  append ha hb := append_isPrefix_drop ha hb

end Netstack.Copy
