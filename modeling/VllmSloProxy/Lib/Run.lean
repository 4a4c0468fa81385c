import Mathlib.Data.List.Induction

/-!
# Runs of a partial step function

A system is a step function `σ → ε → Option σ`: `none` says that the event is not enabled.  A run
is a list of events, each enabled where it fires.  The rules below turn facts about one step into
facts about whole runs, also for runs whose steps are restricted by a condition.
-/

namespace Transition

variable {σ ε : Type*}

def run (step : σ → ε → Option σ) : σ → List ε → Option σ
  | s, [] => some s
  | s, e :: es => (step s e).bind fun s' => run step s' es

/-- `p` holds in every state that the run passes through, the first one included. -/
def Always (step : σ → ε → Option σ) (p : σ → Prop) (s : σ) (es : List ε) : Prop :=
  ∀ pre s', pre <+: es → run step s pre = some s' → p s'

/-- Every event of the run meets `ok` in the state in which it fires. -/
def Meets (step : σ → ε → Option σ) (ok : σ → ε → Prop) : σ → List ε → Prop
  | _, [] => True
  | s, e :: es => ok s e ∧ ∀ s', step s e = some s' → Meets step ok s' es

variable {step : σ → ε → Option σ} {ok : σ → ε → Prop} {p q : σ → Prop}

@[simp] theorem run_nil (s : σ) : run step s [] = some s := rfl

@[simp] theorem run_cons (s : σ) (e : ε) (es : List ε) :
    run step s (e :: es) = (step s e).bind fun s' => run step s' es := rfl

theorem run_append (s : σ) (es fs : List ε) :
    run step s (es ++ fs) = (run step s es).bind fun s' => run step s' fs := by
  induction es generalizing s with
  | nil => rfl
  | cons e es ih =>
      rw [List.cons_append, run_cons, run_cons, Option.bind_assoc]
      exact congrArg _ (funext fun s' => ih s')

theorem run_snoc_eq_some {s s'' : σ} {e : ε} {es : List ε} :
    run step s (es ++ [e]) = some s'' ↔
      ∃ s', run step s es = some s' ∧ step s' e = some s'' := by
  rw [run_append, Option.bind_eq_some_iff]
  simp only [run_cons, run_nil, Option.bind_fun_some]

@[simp] theorem meets_nil (s : σ) : Meets step ok s [] := trivial

instance decidableMeets [∀ s e, Decidable (ok s e)] (s : σ) (es : List ε) :
    Decidable (Meets step ok s es) :=
  match es with
  | [] => .isTrue trivial
  | e :: es =>
      match h : step s e with
      | none => decidable_of_iff (ok s e) (by simp [Meets, h])
      | some s' =>
          have := decidableMeets s' es
          decidable_of_iff (ok s e ∧ Meets step ok s' es) (by simp [Meets, h])

theorem meets_append {s : σ} {es fs : List ε} :
    Meets step ok s (es ++ fs) ↔
      Meets step ok s es ∧ ∀ s', run step s es = some s' → Meets step ok s' fs := by
  induction es generalizing s with
  | nil => simp
  | cons e es ih =>
      simp only [List.cons_append, Meets, ih, run_cons, Option.bind_eq_some_iff]
      constructor
      · rintro ⟨hok, hrest⟩
        exact ⟨⟨hok, fun s' hs => (hrest s' hs).1⟩,
          fun s'' ⟨s', hs, hrun⟩ => (hrest s' hs).2 s'' hrun⟩
      · rintro ⟨⟨hok, hes⟩, hfs⟩
        exact ⟨hok, fun s' hs => ⟨hes s' hs, fun s'' hrun => hfs s'' ⟨s', hs, hrun⟩⟩⟩

theorem meets_snoc {s : σ} {e : ε} {es : List ε} :
    Meets step ok s (es ++ [e]) ↔
      Meets step ok s es ∧ ∀ s', run step s es = some s' → ok s' e := by
  rw [meets_append]
  simp [Meets]

theorem meets_of_forall {s : σ} {es : List ε} (h : ∀ a, ∀ e ∈ es, ok a e) :
    Meets step ok s es := by
  induction es generalizing s with
  | nil => trivial
  | cons e es ih =>
      exact ⟨h s e List.mem_cons_self,
        fun _ _ => ih fun a e' hmem => h a e' (List.mem_cons_of_mem e hmem)⟩

theorem Meets.mono {ok' : σ → ε → Prop} {s : σ} {es : List ε} (h : Meets step ok s es)
    (hok : ∀ a e, ok a e → ok' a e) : Meets step ok' s es := by
  induction es generalizing s with
  | nil => trivial
  | cons e es ih => exact ⟨hok s e h.1, fun s' hs => ih (h.2 s' hs)⟩

-- Every step of a run is taken in the state that the events before it have led to.
theorem meets_reached (s : σ) (es : List ε) :
    Meets step (fun a e => ∃ pre, pre ++ [e] <+: es ∧ run step s pre = some a) s es := by
  induction es using List.reverseRecOn with
  | nil => trivial
  | append_singleton es e ih =>
      refine meets_snoc.mpr ⟨ih.mono ?_, fun s' hrun => ⟨es, List.prefix_refl _, hrun⟩⟩
      rintro a e' ⟨pre, hpre, hrun⟩
      exact ⟨pre, hpre.trans (List.prefix_append _ _), hrun⟩

theorem run_total (htotal : ∀ a e, ∃ b, step a e = some b) (s : σ) (es : List ε) :
    ∃ s', run step s es = some s' := by
  induction es generalizing s with
  | nil => exact ⟨s, rfl⟩
  | cons e es ih =>
      obtain ⟨a, ha⟩ := htotal s e
      rw [run_cons, ha]
      exact ih a

-- What one step keeps where it meets a condition, a run keeps whose steps all meet it.
theorem meets_induct {s s' : σ} {es : List ε} (hrun : run step s es = some s')
    (hmeets : Meets step ok s es) (hs : p s)
    (hstep : ∀ a e b, p a → ok a e → step a e = some b → p b) : p s' := by
  induction es generalizing s with
  | nil => exact Option.some.inj hrun ▸ hs
  | cons e es ih =>
      obtain ⟨a, ha, hrest⟩ := Option.bind_eq_some_iff.mp hrun
      exact ih hrest (hmeets.2 a ha) (hstep s e a hs hmeets.1 ha)

-- The same without a condition.
theorem run_induct {s s' : σ} {es : List ε} (hrun : run step s es = some s') (hs : p s)
    (hstep : ∀ a e b, p a → step a e = some b → p b) : p s' := by
  have hmeets : Meets step (fun _ _ => True) s es := meets_of_forall fun _ _ _ => trivial
  exact meets_induct hrun hmeets hs fun a e b ha _ => hstep a e b ha

-- An invariant may also speak of the events that led to the state.
theorem run_history {I : List ε → σ → Prop} {s s' : σ} {es : List ε}
    (hrun : run step s es = some s') (hs : I [] s)
    (hstep : ∀ es a e b, I es a → step a e = some b → I (es ++ [e]) b) : I es s' := by
  induction es using List.reverseRecOn generalizing s' with
  | nil => exact Option.some.inj hrun ▸ hs
  | append_singleton es e ih =>
      obtain ⟨a, ha, hlast⟩ := run_snoc_eq_some.mp hrun
      exact hstep es a e s' (ih ha) hlast

/-- What the steps of a run show, in order. -/
def shown {β : Type*} (step : σ → ε → Option σ) (shows : σ → ε → σ → List β) : σ → List ε → List β
  | _, [] => []
  | s, e :: es => (step s e).elim [] fun s' => shows s e s' ++ shown step shows s' es

-- An invariant may speak of what the run has shown so far.
theorem run_shown {β : Type*} {shows : σ → ε → σ → List β} {I : List β → σ → Prop} {s s' : σ}
    {es : List ε} {log : List β} (hrun : run step s es = some s') (hmeets : Meets step ok s es)
    (hs : I log s)
    (hstep : ∀ log a e b, I log a → ok a e → step a e = some b → I (log ++ shows a e b) b) :
    I (log ++ shown step shows s es) s' := by
  induction es generalizing s log with
  | nil =>
      rw [shown, List.append_nil]
      exact Option.some.inj hrun ▸ hs
  | cons e es ih =>
      obtain ⟨a, ha, hrest⟩ := Option.bind_eq_some_iff.mp hrun
      rw [shown, ha, Option.elim_some, ← List.append_assoc]
      exact ih hrest (hmeets.2 a ha) (hstep log s e a hs hmeets.1 ha)

theorem Always.last {s s' : σ} {es : List ε} (h : Always step p s es)
    (hrun : run step s es = some s') : p s' :=
  h es s' (List.prefix_refl es) hrun

theorem Always.mono {s : σ} {es : List ε} (h : Always step p s es) (hpq : ∀ a, p a → q a) :
    Always step q s es :=
  fun pre s' hpre hrun => hpq s' (h pre s' hpre hrun)

theorem meets_of_initial {s : σ} {pre es : List ε} (h : Meets step ok s es) (hpre : pre <+: es) :
    Meets step ok s pre := by
  obtain ⟨rest, rfl⟩ := hpre
  exact (meets_append.mp h).1

theorem always_of_meets {s : σ} {es : List ε} (hmeets : Meets step ok s es) (hs : p s)
    (hstep : ∀ a e b, p a → ok a e → step a e = some b → p b) : Always step p s es :=
  fun _ _ hpre hrun => meets_induct hrun (meets_of_initial hmeets hpre) hs hstep

theorem meets_and {ok' : σ → ε → Prop} {s : σ} {es : List ε} (h : Meets step ok s es)
    (h' : Meets step ok' s es) : Meets step (fun a e => ok a e ∧ ok' a e) s es := by
  induction es generalizing s with
  | nil => trivial
  | cons e es ih =>
      exact ⟨⟨h.1, h'.1⟩, fun s' hs => ih (h.2 s' hs) (h'.2 s' hs)⟩

-- Two conditions that an invariant makes the same, and that keep it.
theorem meets_congr {ok' : σ → ε → Prop} {s : σ} {es : List ε} (hs : q s)
    (hiff : ∀ a e, q a → (ok a e ↔ ok' a e))
    (hkeep : ∀ a e b, q a → ok' a e → step a e = some b → q b) :
    Meets step ok s es ↔ Meets step ok' s es := by
  induction es generalizing s with
  | nil => exact Iff.rfl
  | cons e es ih =>
      constructor
      · rintro ⟨hok, hrest⟩
        have hok' := (hiff s e hs).mp hok
        exact ⟨hok', fun s' hstep => (ih (hkeep s e s' hs hok' hstep)).mp (hrest s' hstep)⟩
      · rintro ⟨hok', hrest⟩
        refine ⟨(hiff s e hs).mpr hok', fun s' hstep => ?_⟩
        exact (ih (hkeep s e s' hs hok' hstep)).mpr (hrest s' hstep)

/-- In runs whose steps meet an assumption, a step condition is exact for a property when it keeps
an invariant that gives the property, and a step outside the condition breaks the property at
once. -/
theorem always_iff_meets_of {asm : σ → ε → Prop} {s s' : σ} {es : List ε}
    (hrun : run step s es = some s') (hasm : Meets step asm s es) (hs : q s)
    (hgood : ∀ a, q a → p a)
    (hkeep : ∀ a e b, q a → asm a e → ok a e → step a e = some b → q b)
    (hbreak : ∀ a e b, q a → asm a e → ¬ ok a e → step a e = some b → ¬ p b) :
    Always step p s es ↔ Meets step ok s es := by
  have hkeep' : ∀ a e b, q a → asm a e ∧ ok a e → step a e = some b → q b :=
    fun a e b ha hok => hkeep a e b ha hok.1 hok.2
  refine ⟨fun halways => ?_, fun hmeets =>
    (always_of_meets (meets_and hasm hmeets) hs hkeep').mono hgood⟩
  induction es using List.reverseRecOn generalizing s' with
  | nil => trivial
  | append_singleton es e ih =>
      obtain ⟨a, ha, hlast⟩ := run_snoc_eq_some.mp hrun
      obtain ⟨hasm', hstep⟩ := meets_snoc.mp hasm
      have hinit : Meets step ok s es :=
        ih ha hasm' fun pre b hpre hb => halways pre b (hpre.trans (List.prefix_append _ _)) hb
      refine meets_snoc.mpr ⟨hinit, fun a' ha' => ?_⟩
      have hq : q a' := meets_induct ha' (meets_and hasm' hinit) hs hkeep'
      have haa : a = a' := Option.some.inj (ha.symm.trans ha')
      subst haa
      by_contra hbad
      exact hbreak a e s' hq (hstep a ha) hbad hlast (halways.last hrun)

-- The same without an assumption.
theorem always_iff_meets {s s' : σ} {es : List ε} (hrun : run step s es = some s') (hs : q s)
    (hgood : ∀ a, q a → p a)
    (hkeep : ∀ a e b, q a → ok a e → step a e = some b → q b)
    (hbreak : ∀ a e b, q a → ¬ ok a e → step a e = some b → ¬ p b) :
    Always step p s es ↔ Meets step ok s es := by
  have hasm : Meets step (fun _ _ => True) s es := meets_of_forall fun _ _ _ => trivial
  exact always_iff_meets_of hrun hasm hs hgood (fun a e b ha _ => hkeep a e b ha)
    fun a e b ha _ => hbreak a e b ha

/-- When an invariant tells which events are enabled, a run goes through with the invariant all
along exactly when every event meets that condition. -/
theorem enabled_iff_meets {s : σ} {es : List ε} (hs : q s)
    (henabled : ∀ a e, q a → ((∃ b, step a e = some b) ↔ ok a e))
    (hkeep : ∀ a e b, q a → step a e = some b → q b) :
    (∀ pre, pre <+: es → ∃ s', run step s pre = some s' ∧ q s') ↔ Meets step ok s es := by
  induction es generalizing s with
  | nil =>
      refine ⟨fun _ => trivial, fun _ pre hpre => ⟨s, ?_, hs⟩⟩
      rw [List.prefix_nil.mp hpre]
      rfl
  | cons e es ih =>
      constructor
      · intro hall
        obtain ⟨s₁, hrun, -⟩ := hall [e] (List.prefix_append [e] es)
        obtain ⟨a, ha, -⟩ := Option.bind_eq_some_iff.mp hrun
        refine ⟨(henabled s e hs).mp ⟨a, ha⟩, fun s' hstep => ?_⟩
        refine (ih (hkeep s e s' hs hstep)).mp fun pre hpre => ?_
        obtain ⟨b, hb, hq⟩ := hall (e :: pre) ((List.prefix_cons_inj e).mpr hpre)
        rw [run_cons, hstep] at hb
        exact ⟨b, hb, hq⟩
      · rintro ⟨hok, hrest⟩ pre hpre
        cases pre with
        | nil => exact ⟨s, rfl, hs⟩
        | cons e' pre =>
            obtain ⟨rfl, hinit⟩ := List.cons_prefix_cons.mp hpre
            obtain ⟨a, ha⟩ := (henabled s e' hs).mpr hok
            obtain ⟨b, hb, hq⟩ := (ih (hkeep s e' a hs ha)).mpr (hrest a ha) pre hinit
            exact ⟨b, by rw [run_cons, ha]; exact hb, hq⟩

end Transition
