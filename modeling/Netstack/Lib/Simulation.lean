import Netstack.Lib.Trace

/-! Simulation of one event system by another.

    A relation between the states of two systems is a simulation if every step of the first that
    meets its side condition is answered by a step of the second, with related events and related
    states after it. Whole runs are then answered by whole runs. -/

namespace Netstack.Simulation

variable {σ τ ε δ : Type*} {step : σ → ε → Option σ} {ok : σ → ε → Prop} {step' : τ → δ → Option τ}

/-- `s'` is what the events `es` lead to from `s`, by steps that all meet `ok`. -/
inductive Run (step : σ → ε → Option σ) (ok : σ → ε → Prop) : σ → List ε → σ → Prop
  | nil (s : σ) : Run step ok s [] s
  | cons {s s' s'' : σ} {e : ε} {es : List ε} : ok s e → step s e = some s' →
      Run step ok s' es s'' → Run step ok s (e :: es) s''

/-- Every step of the first system is answered by one of the second, on the event `g e`. -/
def Simulates (step : σ → ε → Option σ) (ok : σ → ε → Prop) (step' : τ → δ → Option τ)
    (R : σ → τ → Prop) (g : ε → δ) : Prop :=
  ∀ {s : σ} {t : τ} {e : ε} {s' : σ}, R s t → ok s e → step s e = some s' →
    ∃ t', step' t (g e) = some t' ∧ R s' t'

/-- A whole run is answered by a whole run. -/
theorem Simulates.run {R : σ → τ → Prop} {g : ε → δ} (h : Simulates step ok step' R g) {s s' : σ}
    {es : List ε} (hr : Run step ok s es s') : ∀ {t : τ}, R s t →
    ∃ t', Run step' (fun _ _ => True) t (es.map g) t' ∧ R s' t' := by
  induction hr with
  | nil s => exact fun {t} hst => ⟨t, .nil t, hst⟩
  | cons hok hstep _ ih =>
    intro t hst
    obtain ⟨t₁, ht₁, hst₁⟩ := h hst hok hstep
    obtain ⟨t', hrun, hend⟩ := ih hst₁
    exact ⟨t', .cons trivial ht₁ hrun, hend⟩

/-- What holds at the start and is kept by each step holds at the end of a run. -/
theorem Run.invariant {I : σ → Prop} (hstep : ∀ s e s', I s → ok s e → step s e = some s' → I s')
    {s s' : σ} {es : List ε} (h : Run step ok s es s') : I s → I s' := by
  induction h with
  | nil => exact id
  | cons hok he _ ih => exact fun hs => ih (hstep _ _ _ hs hok he)

/-- A weaker side condition allows more runs. -/
theorem Run.mono {ok' : σ → ε → Prop} (hok : ∀ s e, ok s e → ok' s e) {s s' : σ} {es : List ε}
    (h : Run step ok s es s') : Run step ok' s es s' := by
  induction h with
  | nil s => exact .nil s
  | cons hse he _ ih => exact .cons (hok _ _ hse) he ih

/-- A run found by executing a list of events. -/
theorem run_of_exec [∀ s e, Decidable (ok s e)] : ∀ {es : List ε} {s s' : σ},
    Trace.exec step ok s es = some s' → Run step ok s es s'
  | [], s, s', h => by
      rw [Trace.exec] at h
      exact Option.some.inj h ▸ .nil s
  | e :: es, s, s', h => by
      rw [Trace.exec] at h
      split_ifs at h with hok
      obtain ⟨s₁, hs₁, hrest⟩ := Option.bind_eq_some_iff.1 h
      exact .cons hok hs₁ (run_of_exec hrest)

/-- A run found by executing a list of events, with a decidable fact about its end. -/
theorem exists_run_exec (step : σ → ε → Option σ) (ok : σ → ε → Prop) [∀ s e, Decidable (ok s e)]
    (s : σ) (es : List ε) (P : σ → Prop) [DecidablePred P]
    (h : (Trace.exec step ok s es).any (fun s => P s) = true) :
    ∃ s', Run step ok s es s' ∧ P s' := by
  cases he : Trace.exec step ok s es with
  | none => rw [he] at h; cases h
  | some s' => rw [he] at h; exact ⟨s', run_of_exec he, of_decide_eq_true h⟩

end Netstack.Simulation
