import Netstack.Lib.Copy
import Netstack.Tcp.Frame

/-! The retransmission queue as a stretch of the send stream.

    `Chain b x l n` reads the queue back as ranges of stream offsets: the entries follow each other
    without a gap from offset `x` to offset `n`, a FIN counts for one and comes last. Whatever an
    acknowledgment drops, a chain is left; only where it starts is decided by 32-bit comparisons, and
    these are wrong only on a queue of `2 ^ 31` bytes or more. -/

namespace Netstack.Tcp
open Netstack.Header Netstack.Serial Netstack.Copy

/-- How much of the sequence space an entry takes. -/
def UnackedSegment.width (e : UnackedSegment) : ℕ := if e.fin then 1 else e.data.length

/-- The bytes of a queue. -/
def payloads (l : List UnackedSegment) : List UInt8 := l.flatMap UnackedSegment.data

@[simp] theorem payloads_nil : payloads [] = [] := rfl

@[simp] theorem payloads_cons (e : UnackedSegment) (l : List UnackedSegment) :
    payloads (e :: l) = e.data ++ payloads l := rfl

@[simp] theorem payloads_append (l l' : List UnackedSegment) :
    payloads (l ++ l') = payloads l ++ payloads l' := List.flatMap_append

/-- The entries take the offsets from `x` to `n`, in order and without a gap. -/
def Chain (b : UInt32) : ℕ → List UnackedSegment → ℕ → Prop
  | x, [], n => x = n
  | x, e :: rest, n => e.seq = seqAt b x ∧ 0 < e.width ∧ e.width < 2 ^ 31 ∧
      (e.fin = true → e.data = [] ∧ rest = []) ∧ Chain b (x + e.width) rest n

section
variable {b : UInt32} {x n m : ℕ}

theorem segEnd_eq {e : UnackedSegment} (he : e.seq = seqAt b x) : e.segEnd = seqAt b (x + e.width) := by
  rw [UnackedSegment.segEnd, UnackedSegment.width, he]
  split
  · exact (seqAt_succ b x).symm
  · exact (seqAt_add b x _).symm

theorem Chain.le : ∀ {l : List UnackedSegment} {x : ℕ}, Chain b x l n → x ≤ n
  | [], _, h => le_of_eq h
  | _ :: _, _, ⟨_, _, _, _, h⟩ => le_trans (Nat.le_add_right _ _) h.le

theorem Chain.lt {e : UnackedSegment} {l : List UnackedSegment} (h : Chain b x (e :: l) n) :
    x + e.width ≤ n := h.2.2.2.2.le

theorem Chain.width_pos {e : UnackedSegment} : ∀ {l : List UnackedSegment} {x : ℕ},
    Chain b x l n → e ∈ l → 0 < e.width
  | [], _, _, he => by cases he
  | _ :: _, _, ⟨_, hpos, _, _, hrest⟩, he => by
      rcases List.mem_cons.1 he with rfl | he
      · exact hpos
      · exact hrest.width_pos he

/-- A FIN is the last entry. -/
theorem Chain.fin_seq {e : UnackedSegment} : ∀ {l : List UnackedSegment} {x : ℕ},
    Chain b x l n → e ∈ l → e.fin = true → ∃ m, n = m + 1 ∧ e.seq = seqAt b m
  | [], _, _, he, _ => by cases he
  | e' :: l, x, ⟨hseq, _, _, hlast, hrest⟩, he, hfin => by
      rcases List.mem_cons.1 he with rfl | he
      · rw [(hlast hfin).2, UnackedSegment.width, if_pos hfin] at hrest
        exact ⟨x, hrest.symm, hseq⟩
      · exact hrest.fin_seq he hfin

theorem Chain.append {l' : List UnackedSegment} : ∀ {l : List UnackedSegment} {x : ℕ},
    Chain b x l m → (∀ e ∈ l, e.fin = false) → Chain b m l' n → Chain b x (l ++ l') n
  | [], _, h, _, h' => h.symm ▸ h'
  | e :: l, _, ⟨h1, h2, h3, _, h5⟩, hf, h' => by
      have he : e.fin = false := hf e (List.mem_cons_self ..)
      refine ⟨h1, h2, h3, fun ht => ?_, h5.append (fun e he => hf e (List.mem_cons_of_mem _ he)) h'⟩
      rw [he] at ht
      cases ht

/-- Without a FIN the chain is as long as its bytes. -/
theorem Chain.length : ∀ {l : List UnackedSegment} {x : ℕ}, Chain b x l n →
    (∀ e ∈ l, e.fin = false) → x + (payloads l).length = n
  | [], _, h, _ => h
  | e :: l, x, ⟨_, _, _, _, h⟩, hf => by
      have hw : e.width = e.data.length := by
        rw [UnackedSegment.width, hf e (List.mem_cons_self ..), if_neg (by simp)]
      have ih := h.length fun e he => hf e (List.mem_cons_of_mem _ he)
      rw [payloads_cons, List.length_append, ← Nat.add_assoc, ← hw]
      exact ih

/-- Every entry holds the bytes of the stream at its own offset. -/
theorem Chain.mem {W t : List UInt8} {e : UnackedSegment} : ∀ {l : List UnackedSegment} {x : ℕ},
    Chain b x l n → payloads l ++ t = W.drop x → e ∈ l → ∃ o, e.seq = seqAt b o ∧ e.data <+: W.drop o
  | e' :: l, x, ⟨h1, _, _, h4, h5⟩, hW, he => by
      rcases List.mem_cons.1 he with rfl | he
      · exact ⟨x, h1, ⟨_, by rw [← hW, payloads_cons, List.append_assoc]⟩⟩
      · cases hf : e'.fin with
        | true => rw [(h4 hf).2] at he; cases he
        | false =>
          have hw : e'.width = e'.data.length := by rw [UnackedSegment.width, hf, if_neg (by simp)]
          refine h5.mem (t := t) ?_ he
          rw [hw, ← List.drop_drop, ← hW, payloads_cons, List.append_assoc, List.drop_left]

/-- What a retransmission does not change of an entry. -/
def UnackedSegment.sent (e : UnackedSegment) : UInt32 × List UInt8 × Bool := (e.seq, e.data, e.fin)

theorem Chain.congr : ∀ {l l' : List UnackedSegment} {x : ℕ},
    l.map UnackedSegment.sent = l'.map UnackedSegment.sent → Chain b x l n → Chain b x l' n
  | [], [], _, _, h => h
  | e :: l, e' :: l', x, hl, ⟨h1, h2, h3, h4, h5⟩ => by
      simp only [List.map_cons, List.cons.injEq, UnackedSegment.sent, Prod.mk.injEq] at hl
      obtain ⟨⟨hs, hd, hf⟩, hl⟩ := hl
      have hw : e'.width = e.width := by rw [UnackedSegment.width, UnackedSegment.width, hf, hd]
      refine ⟨hs ▸ h1, hw ▸ h2, hw ▸ h3, fun ht => ?_, hw ▸ Chain.congr hl h5⟩
      obtain ⟨hnil, hlast⟩ := h4 (hf.trans ht)
      refine ⟨hd ▸ hnil, ?_⟩
      rw [hlast] at hl
      exact (List.map_eq_nil_iff.1 hl.symm)

theorem payloads_congr {l l' : List UnackedSegment}
    (h : l.map UnackedSegment.sent = l'.map UnackedSegment.sent) : payloads l = payloads l' := by
  have hd := congrArg (List.flatMap fun p : UInt32 × List UInt8 × Bool => p.2.1) h
  rw [List.flatMap_map, List.flatMap_map] at hd
  exact hd

theorem mem_of_sent {l l' : List UnackedSegment} {e : UnackedSegment}
    (h : l.map UnackedSegment.sent = l'.map UnackedSegment.sent) (he : e ∈ l) :
    ∃ e' ∈ l', e'.sent = e.sent := by
  have := List.mem_map_of_mem (f := UnackedSegment.sent) he
  rw [h] at this
  exact List.mem_map.1 this

/-- The entries of a GSO batch continue the chain. -/
theorem chain_gsoSegments {mss : ℕ} (hmss : 0 < mss) (t : ℤ) : ∀ (fuel x : ℕ) (data : List UInt8),
    data.length ≤ fuel → data.length < 2 ^ 31 →
    Chain b x (gsoSegments mss t fuel (seqAt b x) data) (x + data.length) ∧
    payloads (gsoSegments mss t fuel (seqAt b x) data) = data ∧
    ∀ e ∈ gsoSegments mss t fuel (seqAt b x) data, e.fin = false
  | 0, x, [], _, _ => ⟨rfl, rfl, by simp [gsoSegments]⟩
  | fuel + 1, x, [], _, _ => ⟨rfl, rfl, by simp [gsoSegments]⟩
  | fuel + 1, x, d :: data, hf, hlt => by
      have hchunk : ((d :: data).take mss).length = min mss (d :: data).length := List.length_take
      have hpos : 0 < (d :: data).length := Nat.succ_pos _
      have hrest : ((d :: data).drop mss).length = (d :: data).length - mss := List.length_drop
      obtain ⟨h1, h2, h3⟩ := chain_gsoSegments hmss t fuel (x + ((d :: data).take mss).length)
        ((d :: data).drop mss) (by omega) (by omega)
      rw [gsoSegments, ← seqAt_add]
      refine ⟨⟨rfl, ?_, ?_, (fun h => by cases h), ?_⟩, ?_, ?_⟩
      · show 0 < ((d :: data).take mss).length
        omega
      · show ((d :: data).take mss).length < 2 ^ 31
        omega
      · rw [show x + ((d :: data).take mss).length + ((d :: data).drop mss).length
          = x + (d :: data).length by omega] at h1
        exact h1
      · rw [payloads_cons, h2]
        exact List.take_append_drop ..
      · intro e he
        rcases List.mem_cons.1 he with rfl | he
        · rfl
        · exact h3 e he

theorem dropAcked_subset (ack : UInt32) : ∀ l : List UnackedSegment, dropAcked ack l ⊆ l
  | [] => List.Subset.refl _
  | e :: l => by
      rw [dropAcked]
      split_ifs
      · exact List.Subset.refl _
      · exact List.Subset.trans (dropAcked_subset ack l) (List.subset_cons_self e l)
      · exact List.Subset.refl _

/-- `removeAcked` leaves a chain that starts later, at most at the acknowledged offset `u`. Unless
    `u` is `2 ^ 31` or more past its start, `u` lies in the first entry. -/
theorem dropAcked_chain {W t : List UInt8} {u : ℕ} : ∀ {l : List UnackedSegment} {x : ℕ},
    Chain b x l n → payloads l ++ t = W.drop x → (∀ e ∈ l, e.fin = true → t = []) → x ≤ u → u ≤ n →
    ∃ x', x ≤ x' ∧ x' ≤ u ∧ Chain b x' (dropAcked (seqAt b u) l) n ∧
      payloads (dropAcked (seqAt b u) l) ++ t = W.drop x' ∧
      (∀ e ∈ (dropAcked (seqAt b u) l).head?, u < x' + e.width ∨ x' + 2 ^ 31 ≤ u)
  | [], x, h, hW, _, hxu, _ => ⟨x, le_refl x, hxu, h, hW, by simp [dropAcked]⟩
  | e :: l, x, ⟨h1, h2, h3, h4, h5⟩, hW, ht, hxu, hun => by
      have hsame : (u < x + e.width ∨ x + 2 ^ 31 ≤ u) → ∃ x', x ≤ x' ∧ x' ≤ u ∧
          Chain b x' (e :: l) n ∧ payloads (e :: l) ++ t = W.drop x' ∧
          (∀ e' ∈ (e :: l).head?, u < x' + e'.width ∨ x' + 2 ^ 31 ≤ u) := fun hu =>
        ⟨x, le_refl x, hxu, ⟨h1, h2, h3, h4, h5⟩, hW, by simpa using hu⟩
      have hdrop : x + e.width ≤ u → ∃ x', x ≤ x' ∧ x' ≤ u ∧
          Chain b x' (dropAcked (seqAt b u) l) n ∧
          payloads (dropAcked (seqAt b u) l) ++ t = W.drop x' ∧
          (∀ e ∈ (dropAcked (seqAt b u) l).head?, u < x' + e.width ∨ x' + 2 ^ 31 ≤ u) := by
        intro hend
        have hW' : payloads l ++ t = W.drop (x + e.width) := by
          cases hf : e.fin with
          | true =>
            obtain ⟨hnil, hlast⟩ := h4 hf
            have ht' := ht e (List.mem_cons_self ..) hf
            rw [payloads_cons, hnil, hlast, ht'] at hW
            rw [hlast, ht', ← List.drop_drop, ← hW]
            simp
          | false =>
            have hw : e.width = e.data.length := by rw [UnackedSegment.width, hf, if_neg (by simp)]
            rw [hw, ← List.drop_drop, ← hW, payloads_cons, List.append_assoc, List.drop_left]
        obtain ⟨x', g1, g2, g3⟩ := dropAcked_chain h5 hW'
          (fun e he => ht e (List.mem_cons_of_mem _ he)) hend hun
        exact ⟨x', by omega, g2, g3⟩
      rw [dropAcked, segEnd_eq h1, h1]
      rcases Nat.lt_or_ge u (x + 2 ^ 31) with hnear | hfar
      · -- the comparisons are right
        have heq : (seqAt b (x + e.width) == seqAt b u) = decide (x + e.width = u) := by
          rw [beq_eq_decide]
          exact decide_eq_decide.2 (seqAt_inj b (by omega) (by omega))
        rw [seqGreaterThan_seqAt b hnear (by omega), seqLessThan_seqAt b (by omega) (by omega), heq]
        split_ifs with hle hend
        · exact hsame (.inl (by simp at hle; omega))
        · exact hdrop (by simp at hend; omega)
        · exact hsame (.inl (by simp at hend; omega))
      · -- too far ahead to compare: whether an entry is dropped or not, it has been acknowledged
        split_ifs
        · exact hsame (.inr hfar)
        · exact hdrop (by omega)
        · exact hsame (.inr hfar)

end
end Netstack.Tcp
