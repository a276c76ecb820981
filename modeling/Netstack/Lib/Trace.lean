import Mathlib.Tactic

/-! Runs of a deterministic event system.

    A system is a partial step function: `step s e = none` when event `e` cannot happen in `s`. A
    run may be held to a side condition `ok` on the state before each step and the event taken. An
    invariant is then two small facts, one about the initial states and one about a single step. -/

namespace Netstack.Trace

variable {σ ε : Type*} {init : σ → Prop} {step : σ → ε → Option σ} {ok : σ → ε → Prop}

/-- The states of all runs from `init` whose every step meets `ok`. -/
inductive Reach (init : σ → Prop) (step : σ → ε → Option σ) (ok : σ → ε → Prop) : σ → Prop
  | start {s : σ} : init s → Reach init step ok s
  | next {s s' : σ} {e : ε} :
      Reach init step ok s → ok s e → step s e = some s' → Reach init step ok s'

/-- Invariant rule: true at the start and kept by each step, so true throughout. -/
theorem Reach.invariant {I : σ → Prop} (h0 : ∀ s, init s → I s)
    (hstep : ∀ s e s', I s → ok s e → step s e = some s' → I s') {s : σ}
    (h : Reach init step ok s) : I s := by
  induction h with
  | start hs => exact h0 _ hs
  | next _ hok he ih => exact hstep _ _ _ ih hok he

/-- A weaker side condition allows more runs. -/
theorem Reach.mono {ok' : σ → ε → Prop} (hok : ∀ s e, ok s e → ok' s e) {s : σ}
    (h : Reach init step ok s) : Reach init step ok' s := by
  induction h with
  | start hs => exact .start hs
  | next _ hse he ih => exact .next ih (hok _ _ hse) he

/-- More initial states allow more runs. -/
theorem Reach.mono_init {init' : σ → Prop} (hinit : ∀ s, init s → init' s) {s : σ}
    (h : Reach init step ok s) : Reach init' step ok s := by
  induction h with
  | start hs => exact .start (hinit _ hs)
  | next _ hok he ih => exact .next ih hok he

/-- Runs a list of events from `s`; `none` if one of them cannot happen or is not `ok`. -/
def exec (step : σ → ε → Option σ) (ok : σ → ε → Prop) [∀ s e, Decidable (ok s e)] :
    σ → List ε → Option σ
  | s, [] => some s
  | s, e :: es => if ok s e then (step s e).bind fun s' => exec step ok s' es else none

/-- What a list of events leads to is reached. -/
theorem reach_exec [∀ s e, Decidable (ok s e)] : ∀ (es : List ε) {s s' : σ},
    Reach init step ok s → exec step ok s es = some s' → Reach init step ok s'
  | [], s, s', h, he => by
      rw [exec] at he; exact Option.some.inj he ▸ h
  | e :: es, s, s', h, he => by
      rw [exec] at he
      by_cases hok : ok s e
      · rw [if_pos hok] at he
        obtain ⟨s₁, hs₁, he₁⟩ := Option.bind_eq_some_iff.1 he
        exact reach_exec es (.next h hok hs₁) he₁
      · rw [if_neg hok] at he; cases he

/-- A state found by running a list of events is reached. -/
theorem exists_reach_exec [∀ s e, Decidable (ok s e)] {s : σ} (hs : init s) (es : List ε)
    {P : σ → Prop} [DecidablePred P] (h : (exec step ok s es).any (fun s => P s) = true) :
    ∃ s', Reach init step ok s' ∧ P s' := by
  cases he : exec step ok s es with
  | none => rw [he] at h; cases h
  | some s' => rw [he] at h; exact ⟨s', reach_exec es (.start hs) he, of_decide_eq_true h⟩

/-- A step found by running a list of events and then one more. -/
theorem exists_step_exec [∀ s e, Decidable (ok s e)] {s : σ} (hs : init s) (es : List ε) (e : ε)
    {P : σ → σ → Prop} [∀ s s', Decidable (P s s')]
    (h : (exec step ok s es).any (fun s => ok s e ∧ (step s e).any (fun s' => P s s') = true) = true) :
    ∃ s₁ s₂, Reach init step ok s₁ ∧ ok s₁ e ∧ step s₁ e = some s₂ ∧ P s₁ s₂ := by
  obtain ⟨s₁, hr, hok, hany⟩ := exists_reach_exec hs es h
  cases he : step s₁ e with
  | none => rw [he] at hany; cases hany
  | some s₂ =>
    rw [he] at hany
    exact ⟨s₁, s₂, hr, hok, he, of_decide_eq_true hany⟩

/-! ### Ghost state -/

/-- The system with a ghost: `obs` updates it from the states before and after each step. -/
def watch {γ : Type*} (step : σ → ε → Option σ) (obs : σ → σ → γ → γ) (w : σ × γ) (e : ε) :
    Option (σ × γ) :=
  (step w.1 e).map fun s' => (s', obs w.1 s' w.2)

theorem watch_eq_some {γ : Type*} {obs : σ → σ → γ → γ} {w w' : σ × γ} {e : ε} :
    watch step obs w e = some w' ↔ step w.1 e = some w'.1 ∧ w'.2 = obs w.1 w'.1 w.2 := by
  rw [watch, Option.map_eq_some_iff]
  constructor
  · rintro ⟨s', he, rfl⟩
    exact ⟨he, rfl⟩
  · rintro ⟨he, hg⟩
    exact ⟨w'.1, he, by rw [← hg]⟩

/-- The ghost constrains nothing: without it the run is a run of the system. -/
theorem Reach.unwatch {γ : Type*} {obs : σ → σ → γ → γ} {g₀ : γ} {ok : σ × γ → ε → Prop}
    {w : σ × γ} (h : Reach (fun w => init w.1 ∧ w.2 = g₀) (watch step obs) ok w) :
    Reach init step (fun _ _ => True) w.1 := by
  induction h with
  | start hs => exact .start hs.1
  | next _ _ he ih => exact .next ih trivial (watch_eq_some.1 he).1

end Netstack.Trace
