import VllmSloProxy.Lib.Run

/-!
# Forward simulation

One system simulates another when each step of the other is matched by a run of its own.  The events
of both are restricted, so a system that misbehaves after some event can be left out.
-/

namespace Transition

variable {σ ε τ δ : Type*}

/-- Some run of events that all meet `ok`. -/
def Reaches (step : σ → ε → Option σ) (ok : ε → Prop) (s s' : σ) : Prop :=
  ∃ es, (∀ e ∈ es, ok e) ∧ run step s es = some s'

variable {step : σ → ε → Option σ} {ok : ε → Prop} {s s' s'' : σ}

theorem Reaches.refl (s : σ) : Reaches step ok s s :=
  ⟨[], fun _ hmem => (nomatch hmem), rfl⟩

theorem Reaches.trans (h : Reaches step ok s s') (h' : Reaches step ok s' s'') :
    Reaches step ok s s'' := by
  obtain ⟨es, hes, hrun⟩ := h
  obtain ⟨fs, hfs, hrun'⟩ := h'
  refine ⟨es ++ fs, fun e hmem => (List.mem_append.mp hmem).elim (hes e) (hfs e), ?_⟩
  rw [run_append, hrun]
  exact hrun'

theorem Reaches.single {e : ε} (hok : ok e) (hstep : step s e = some s') :
    Reaches step ok s s' := by
  refine ⟨[e], fun e' hmem => List.mem_singleton.mp hmem ▸ hok, ?_⟩
  rw [run_cons, hstep]
  rfl

/-- Each step that meets `ok` of the first system, from states that meet an invariant, is matched by
a run of the second. -/
def Simulates (step : σ → ε → Option σ) (ok : ε → Prop) (p : σ → Prop)
    (step' : τ → δ → Option τ) (ok' : δ → Prop) (rel : σ → τ → Prop) : Prop :=
  ∀ s t e s', p s → rel s t → ok e → step s e = some s' → ∃ t', Reaches step' ok' t t' ∧ rel s' t'

variable {p : σ → Prop} {step' : τ → δ → Option τ} {ok' : δ → Prop} {rel : σ → τ → Prop} {t : τ}

/-- A run of the first system is matched by a run of the second. -/
theorem Simulates.run {es : List ε} (h : Simulates step ok p step' ok' rel)
    (hp : ∀ s e s', p s → ok e → step s e = some s' → p s') (hs : p s) (hrel : rel s t)
    (hok : ∀ e ∈ es, ok e) (hrun : run step s es = some s') :
    ∃ t', Reaches step' ok' t t' ∧ rel s' t' := by
  induction es generalizing s t with
  | nil => exact ⟨t, Reaches.refl t, Option.some.inj hrun ▸ hrel⟩
  | cons e es ih =>
      obtain ⟨s₁, hstep, hrest⟩ := Option.bind_eq_some_iff.mp hrun
      have he := hok e List.mem_cons_self
      obtain ⟨t₁, hreaches, hrel₁⟩ := h s t e s₁ hs hrel he hstep
      obtain ⟨t', hreaches', hrel'⟩ := ih (hp s e s₁ hs he hstep) hrel₁
        (fun e' hmem => hok e' (List.mem_cons_of_mem e hmem)) hrest
      exact ⟨t', hreaches.trans hreaches', hrel'⟩

end Transition
