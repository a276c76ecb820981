import Mathlib.Tactic
import Mathlib.Data.List.SplitLengths

/-! Cutting a stretch of data into pieces of one size.

    `pieces m n` are the sizes when `n` is cut into pieces of `m` and a last one of what is left. The
    cut itself is `List.splitLengths`; a list of blocks, each cut into pieces of its own, can be cut
    block by block or piece by piece, and `regroup` says how the two fit together. -/

namespace Netstack.Pieces

variable {α : Type*}

/-- The sizes of the pieces of `n` cut by `m`. -/
def pieces (m n : ℕ) : List ℕ := List.replicate (n / m) m ++ if n % m = 0 then [] else [n % m]

theorem pieces_of_dvd {m n : ℕ} (h : m ∣ n) : pieces m n = List.replicate (n / m) m := by
  rw [pieces, if_pos (Nat.mod_eq_zero_of_dvd h), List.append_nil]

@[simp] theorem pieces_zero (m : ℕ) : pieces m 0 = [] := by simp [pieces]

theorem pieces_of_lt {m n : ℕ} (hn : 0 < n) (h : n < m) : pieces m n = [n] := by
  rw [pieces, Nat.div_eq_of_lt h, Nat.mod_eq_of_lt h, if_neg (by omega)]
  rfl

theorem pieces_of_le {m n : ℕ} (hm : 0 < m) (h : m ≤ n) : pieces m n = m :: pieces m (n - m) := by
  have hdiv : n / m = (n - m) / m + 1 := Nat.div_eq_sub_div hm h
  rw [pieces, pieces, hdiv, List.replicate_succ, List.cons_append, Nat.mod_eq_sub_mod h]

@[simp] theorem sum_pieces (m n : ℕ) : (pieces m n).sum = n := by
  have hdiv := Nat.div_add_mod' n m
  rw [pieces, List.sum_append, List.sum_replicate, smul_eq_mul]
  split_ifs with hr
  · rw [hr] at hdiv
    exact hdiv
  · rw [List.sum_singleton]
    exact hdiv

/-! ### Cutting a list -/

theorem splitLengths_append (sz sz' : List ℕ) (l : List α) :
    (sz ++ sz').splitLengths l = sz.splitLengths l ++ sz'.splitLengths (l.drop sz.sum) := by
  induction sz generalizing l with
  | nil => simp
  | cons n sz ih => rw [List.cons_append, List.splitLengths_cons, ih, List.splitLengths_cons,
      List.drop_drop, List.sum_cons, List.cons_append]

/-- Only the first bytes matter, as many as the pieces have. -/
theorem splitLengths_take (sz : List ℕ) (l : List α) :
    sz.splitLengths (l.take sz.sum) = sz.splitLengths l := by
  induction sz generalizing l with
  | nil => rfl
  | cons n sz ih =>
    rw [List.splitLengths_cons, List.splitLengths_cons, List.sum_cons, List.take_take,
      min_eq_left (Nat.le_add_right _ _), List.drop_take, Nat.add_sub_cancel_left, ih]

/-- The blocks of `l`, each cut into its pieces. -/
def regroup : List (List ℕ) → List α → List (List (List α))
  | [], _ => []
  | b :: blocks, l => b.splitLengths (l.take b.sum) :: regroup blocks (l.drop b.sum)

/-- Piece by piece. -/
theorem flatten_regroup (blocks : List (List ℕ)) (l : List α) :
    (regroup blocks l).flatten = blocks.flatten.splitLengths l := by
  induction blocks generalizing l with
  | nil => rfl
  | cons b blocks ih =>
    rw [regroup, List.flatten_cons, ih, splitLengths_take, List.flatten_cons, splitLengths_append]

/-- Block by block. -/
theorem map_flatten_regroup (blocks : List (List ℕ)) (l : List α) :
    (regroup blocks l).map List.flatten = (blocks.map List.sum).splitLengths l := by
  induction blocks generalizing l with
  | nil => rfl
  | cons b blocks ih =>
    rw [regroup, List.map_cons, ih, List.map_cons, List.splitLengths_cons,
      List.flatten_splitLengths _ _ (List.length_take_le _ _)]

theorem mem_regroup {blocks : List (List ℕ)} (hne : ∀ b ∈ blocks, b ≠ []) {l : List α} :
    ∀ x ∈ regroup blocks l, x ≠ [] := by
  induction blocks generalizing l with
  | nil => simp [regroup]
  | cons b blocks ih =>
    intro x hx
    rcases List.mem_cons.1 hx with rfl | hx
    · have hb := hne b (List.mem_cons_self ..)
      rw [← List.length_pos_iff, List.length_splitLengths]
      exact List.length_pos_iff.2 hb
    · exact ih (fun b hb => hne b (List.mem_cons_of_mem _ hb)) x hx

end Netstack.Pieces
