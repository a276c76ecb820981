import Mathlib.Tactic

/-! Loops that run until their body says stop.

    The body returns the new state and whether to go round again; the loop is cut off by `fuel`, and
    a run that uses it up ends in `stuck s`, which marks it. When a measure falls with every turn
    that goes round, enough fuel means that the mark is never reached. -/

namespace Netstack.Loop

variable {σ : Type*}

/-- Runs `body` until it says stop, at most `fuel` times. -/
def loop (body : σ → σ × Bool) (stuck : σ → σ) : ℕ → σ → σ
  | 0, s => stuck s
  | fuel + 1, s => if (body s).2 then loop body stuck fuel (body s).1 else (body s).1

/-- Loop rule: `I` holds before each turn, `J` after the last one, and the measure bounds the
    turns. -/
theorem loop_rule {body : σ → σ × Bool} {stuck : σ → σ} {I J : σ → Prop} (measure : σ → ℕ)
    (again : ∀ s, I s → (body s).2 = true → I (body s).1 ∧ measure (body s).1 < measure s)
    (stop : ∀ s, I s → (body s).2 = false → J (body s).1) :
    ∀ (fuel : ℕ) (s : σ), I s → measure s < fuel → J (loop body stuck fuel s)
  | 0, s, _, h => absurd h (Nat.not_lt_zero _)
  | fuel + 1, s, hs, h => by
      rw [loop]
      cases hb : (body s).2 with
      | true =>
        obtain ⟨hI, hm⟩ := again s hs hb
        exact loop_rule measure again stop fuel _ hI (by omega)
      | false => exact stop s hs hb

/-- A reflexive and transitive relation that holds over each turn, and over the mark, holds over the
    loop. -/
theorem loop_rel {body : σ → σ × Bool} {stuck : σ → σ} (R : σ → σ → Prop)
    (trans : ∀ {a b c}, R a b → R b c → R a c) (hbody : ∀ s, R s (body s).1)
    (hstuck : ∀ s, R s (stuck s)) (fuel : ℕ) (s : σ) : R s (loop body stuck fuel s) := by
  induction fuel generalizing s with
  | zero => exact hstuck s
  | succ fuel ih =>
    rw [loop]
    split
    · exact trans (hbody s) (ih _)
    · exact hbody s

/-- Two loops in step: related states stay related, and stop together. -/
theorem loop_pair {τ : Type*} {body : σ → σ × Bool} {stuck : σ → σ} {body' : τ → τ × Bool}
    {stuck' : τ → τ} (R : σ → τ → Prop)
    (hbody : ∀ {s t}, R s t → R (body s).1 (body' t).1 ∧ (body' t).2 = (body s).2)
    (hstuck : ∀ {s t}, R s t → R (stuck s) (stuck' t)) (fuel : ℕ) :
    ∀ {s : σ} {t : τ}, R s t → R (loop body stuck fuel s) (loop body' stuck' fuel t) := by
  induction fuel with
  | zero => exact hstuck
  | succ fuel ih =>
    intro s t h
    obtain ⟨hnext, hflag⟩ := hbody h
    rw [loop, loop, hflag]
    split
    · exact ih hnext
    · exact hnext

end Netstack.Loop
