import VllmSloProxy.Lib.Run

/-!
# Ghosts that watch a system

A ghost is state beside a system: it records what the steps do, and steps may be ruled out by what
it knows.  A watched system has runs of the system only, so what holds of these holds of it.
-/

namespace Transition

variable {σ ε γ : Type*}

structure Watched (σ γ : Type*) where
  state : σ
  ghost : γ

/-- A step that the ghost allows, and what the ghost is afterwards. -/
def watch (step : σ → ε → Option σ) (allows : Watched σ γ → ε → Bool)
    (update : Watched σ γ → σ → γ) (w : Watched σ γ) (e : ε) : Option (Watched σ γ) :=
  if allows w e then (step w.state e).map fun s => ⟨s, update w s⟩ else none

variable {step : σ → ε → Option σ} {allows : Watched σ γ → ε → Bool}
  {update : Watched σ γ → σ → γ} {w w' : Watched σ γ} {e : ε} {es : List ε}

theorem watch_eq_some : watch step allows update w e = some w' ↔
    allows w e = true ∧ ∃ s, step w.state e = some s ∧ w' = ⟨s, update w s⟩ := by
  unfold watch
  split
  · rename_i hallows
    rw [Option.map_eq_some_iff]
    exact ⟨fun ⟨s, hstep, heq⟩ => ⟨hallows, s, hstep, heq.symm⟩,
      fun ⟨_, s, hstep, heq⟩ => ⟨s, hstep, heq.symm⟩⟩
  · rename_i hallows
    exact ⟨fun h => (nomatch h), fun h => absurd h.1 hallows⟩

/-- Every run of the watched system is one of the system. -/
theorem run_of_watch (h : run (watch step allows update) w es = some w') :
    run step w.state es = some w'.state := by
  induction es generalizing w with
  | nil => exact congrArg (fun w => some w.state) (Option.some.inj h)
  | cons e es ih =>
      obtain ⟨w₁, hfirst, hrest⟩ := Option.bind_eq_some_iff.mp h
      obtain ⟨-, s, hstep, rfl⟩ := watch_eq_some.mp hfirst
      rw [run_cons, hstep]
      exact ih hrest

end Transition
