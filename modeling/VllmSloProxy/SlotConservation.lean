import VllmSloProxy.PermitObjects

/-!
# Slots are conserved

The counts of a limiter agree with the permit objects and with the answers it gave, in every state
that any sequence of limiter and permit operations reaches.
-/

namespace VllmSloProxy

open Population Transition

variable {ι κ : Type}

namespace InflightLimiter

/-- What no operation changes, and that only `close` closes. -/
structure Evolves (closes : Prop) (lim lim' : InflightLimiter κ) : Prop where
  maxInflight : lim'.maxInflight = lim.maxInflight
  maxQueueSize : lim'.maxQueueSize = lim.maxQueueSize
  closed : lim'.closed = true ↔ lim.closed = true ∨ closes

variable {closes : Prop}

/-- An operation other than `close`. -/
theorem Evolves.of_same {lim lim' : InflightLimiter κ} (hnot : ¬ closes)
    (hinflight : lim'.maxInflight = lim.maxInflight)
    (hqueue : lim'.maxQueueSize = lim.maxQueueSize) (hclosed : lim'.closed = lim.closed) :
    Evolves closes lim lim' := by
  refine ⟨hinflight, hqueue, ?_⟩
  rw [hclosed, or_iff_left hnot]

theorem Evolves.refl (hnot : ¬ closes) (lim : InflightLimiter κ) : Evolves closes lim lim :=
  .of_same hnot rfl rfl rfl

theorem Evolves.tryAcquireOrQueue (hnot : ¬ closes) (id : ι) (lim : InflightLimiter κ) :
    Evolves closes lim (lim.tryAcquireOrQueue id).2 := by
  rcases lim.tryAcquireOrQueue_cases id with
    ⟨-, heq⟩ | ⟨-, -, heq⟩ | ⟨-, -, -, heq⟩ | ⟨-, -, -, heq⟩ <;> rw [heq] <;>
    exact .of_same hnot rfl rfl rfl

theorem Evolves.tryPromoteQueued (hnot : ¬ closes) (id : ι) (lim : InflightLimiter κ) :
    Evolves closes lim (lim.tryPromoteQueued id).2 := by
  rcases lim.tryPromoteQueued_cases id with ⟨-, heq⟩ | ⟨-, -, -, heq⟩ <;> rw [heq] <;>
    exact .of_same hnot rfl rfl rfl

theorem Evolves.cancelQueued (hnot : ¬ closes) (lim : InflightLimiter κ) :
    Evolves closes lim lim.cancelQueued.2 := by
  rcases lim.cancelQueued_cases with ⟨-, heq⟩ | ⟨-, heq⟩ <;> rw [heq] <;>
    exact .of_same hnot rfl rfl rfl

theorem Evolves.giveBack (hnot : ¬ closes) (lim : InflightLimiter κ) :
    Evolves closes lim lim.giveBack.1 :=
  .of_same hnot lim.giveBack_maxInflight lim.giveBack_maxQueueSize lim.giveBack_closed

theorem Evolves.close (hcloses : closes) (lim : InflightLimiter κ) :
    Evolves closes lim lim.close :=
  ⟨rfl, rfl, iff_of_true rfl (.inr hcloses)⟩

theorem closed_refuses {lim : InflightLimiter κ} (h : lim.closed = true) (id : ι) :
    (lim.tryAcquireOrQueue id).1.permit.valid = false ∧
      (lim.tryPromoteQueued id).1.valid = false := by
  constructor
  · simp only [tryAcquireOrQueue, h, if_true]
    rfl
  · simp only [tryPromoteQueued, h, true_or, if_true]
    rfl

end InflightLimiter

namespace PermitProcess

/-- The observations of one step, and that a callback runs only when it is the one in force. -/
structure Observed (w w' : PermitProcess ι κ) (obs : List (Observation ι κ)) : Prop where
  history : w'.history = w.history ++ obs
  inForce : ∀ l cb, .ranCallback l cb ∈ obs →
    ∃ lim, w.limiters l = some lim ∧ lim.onRelease = some cb

theorem Observed.silent {w w' : PermitProcess ι κ} (h : w'.history = w.history) :
    Observed w w' [] :=
  ⟨by rw [h, List.append_nil], fun _ _ hmem => absurd hmem List.not_mem_nil⟩

variable [DecidableEq ι]

open InflightLimiter (Evolves)

theorem releaseAt_limiters (w : PermitProcess ι κ) (i : Nat) (p : Permit ι) (l : ι) :
    (w.releaseAt i p).limiters l = w.limiters l ∨
      ∃ lim, w.limiters l = some lim ∧ (w.releaseAt i p).limiters l = some lim.giveBack.1 := by
  rcases w.releaseAt_cases i p with ⟨-, heq⟩ | ⟨l', lim, hl, -, heq⟩
  · exact .inl (by rw [heq]; rfl)
  · have hlim : (w.releaseAt i p).limiters =
        (w.setLimiter l' lim.giveBack.1).limiters := by
      rw [heq]
      cases lim.giveBack.2 <;> rfl
    rw [hlim]
    by_cases hne : l = l'
    · subst hne
      exact .inr ⟨lim, hl, setLimiter_self ..⟩
    · exact .inl (setLimiter_of_ne _ _ _ _ hne)

theorem releaseAt_evolves (w : PermitProcess ι κ) (i : Nat) (p : Permit ι) {l : ι}
    {lim' : InflightLimiter κ} {closes : Prop} (hnot : ¬ closes)
    (hl : (w.releaseAt i p).limiters l = some lim') :
    ∃ lim, w.limiters l = some lim ∧ Evolves closes lim lim' := by
  rcases w.releaseAt_limiters i p l with heq | ⟨lim, hlim, heq⟩
  · exact ⟨lim', heq ▸ hl, .refl hnot lim'⟩
  · obtain rfl := Option.some.inj (heq.symm.trans hl)
    exact ⟨lim, hlim, .giveBack hnot lim⟩

theorem setLimiter_evolves {w : PermitProcess ι κ} {l k : ι} {lim lim' lim₁ : InflightLimiter κ}
    {closes : Prop} (hl : w.limiters l = some lim) (hself : k = l → Evolves closes lim lim₁)
    (hother : k ≠ l → ¬ closes) (hk : (w.setLimiter l lim₁).limiters k = some lim') :
    ∃ lim, w.limiters k = some lim ∧ Evolves closes lim lim' := by
  by_cases hne : k = l
  · subst hne
    obtain rfl := Option.some.inj ((setLimiter_self w k lim₁).symm.trans hk)
    exact ⟨lim, hl, hself rfl⟩
  · rw [setLimiter_of_ne _ _ _ _ hne] at hk
    exact ⟨lim', hk, .refl (hother hne) lim'⟩

theorem step_evolves {w w' : PermitProcess ι κ} {op : LimiterOp ι κ} (hstep : w.step op = some w')
    {k : ι} {lim' : InflightLimiter κ} (hk : w'.limiters k = some lim') :
    ∃ lim, w.limiters k = some lim ∧ Evolves (op = .close k) lim lim' := by
  cases op with
  | tryAcquireOrQueue l =>
      obtain ⟨lim, hl, heq⟩ := Option.bind_eq_some_iff.mp hstep
      obtain rfl := Option.some.inj heq
      exact setLimiter_evolves hl (fun _ => .tryAcquireOrQueue (by simp) l lim) (by simp) hk
  | tryPromoteQueued l =>
      obtain ⟨lim, hl, heq⟩ := Option.bind_eq_some_iff.mp hstep
      obtain rfl := Option.some.inj heq
      exact setLimiter_evolves hl (fun _ => .tryPromoteQueued (by simp) l lim) (by simp) hk
  | cancelQueued l =>
      obtain ⟨lim, hl, heq⟩ := Option.bind_eq_some_iff.mp hstep
      obtain rfl := Option.some.inj heq
      exact setLimiter_evolves hl (fun _ => .cancelQueued (by simp) lim) (by simp) hk
  -- the only operation that closes, and it closes the limiter that it names
  | close l =>
      obtain ⟨lim, hl, heq⟩ := Option.bind_eq_some_iff.mp hstep
      obtain rfl := Option.some.inj heq
      refine setLimiter_evolves hl (fun hsame => .close (by rw [hsame]) lim)
        (fun hne hclose => ?_) hk
      exact hne (LimiterOp.close.inj hclose).symm
  | setOnRelease l callback =>
      obtain ⟨lim, hl, heq⟩ := Option.bind_eq_some_iff.mp hstep
      obtain rfl := Option.some.inj heq
      have hev : Evolves (LimiterOp.setOnRelease l callback = .close k) lim
          (lim.setOnRelease callback) := .of_same (by simp) rfl rfl rfl
      exact setLimiter_evolves hl (fun _ => hev) (by simp) hk
  -- a limiter that is still there was not the one destroyed
  | destroyLimiter l =>
      obtain ⟨lim, hl, heq⟩ := Option.bind_eq_some_iff.mp hstep
      obtain rfl := Option.some.inj heq
      by_cases hne : k = l
      · subst hne
        simp at hk
      · exact ⟨lim', by simpa [hne] using hk, .refl (by simp) lim'⟩
  | defaultConstruct =>
      obtain rfl := Option.some.inj hstep
      exact ⟨lim', hk, .refl (by simp) lim'⟩
  | moveConstruct src =>
      obtain ⟨p, hp, heq⟩ := Option.bind_eq_some_iff.mp hstep
      obtain rfl := Option.some.inj heq
      exact ⟨lim', hk, .refl (by simp) lim'⟩
  -- a move assignment releases what the destination held
  | moveAssign dst src =>
      obtain ⟨q, hq, hrest⟩ := Option.bind_eq_some_iff.mp hstep
      obtain ⟨p, hp, heq⟩ := Option.bind_eq_some_iff.mp hrest
      split at heq
      · obtain rfl := Option.some.inj heq
        exact ⟨lim', hk, .refl (by simp) lim'⟩
      · obtain rfl := Option.some.inj heq
        exact releaseAt_evolves w dst q (by simp) hk
  | release i =>
      obtain ⟨p, hp, heq⟩ := Option.bind_eq_some_iff.mp hstep
      obtain rfl := Option.some.inj heq
      exact releaseAt_evolves w i p (by simp) hk
  | destroy i =>
      obtain ⟨p, hp, heq⟩ := Option.bind_eq_some_iff.mp hstep
      obtain rfl := Option.some.inj heq
      exact releaseAt_evolves w i p (by simp) hk

theorem Observed.one {w w' : PermitProcess ι κ} {o : Observation ι κ}
    (h : w'.history = w.history ++ [o]) (ho : ∀ l, isRun l o = false) : Observed w w' [o] := by
  refine ⟨h, fun l cb hmem => ?_⟩
  have hrun := ho l
  rw [← List.mem_singleton.mp hmem] at hrun
  simp [isRun] at hrun

theorem releaseAt_observed (w : PermitProcess ι κ) (i : Nat) (p : Permit ι) :
    ∃ obs, Observed w (w.releaseAt i p) obs := by
  rcases w.releaseAt_cases i p with ⟨-, heq⟩ | ⟨l, lim, hl, -, heq⟩
  · exact ⟨[], .silent (by rw [heq]; rfl)⟩
  · cases hcb : lim.giveBack.2 with
    | none => exact ⟨[], .silent (by rw [heq, hcb]; rfl)⟩
    | some cb =>
        refine ⟨[.ranCallback l cb], by rw [heq, hcb]; rfl, fun l' cb' hmem => ?_⟩
        obtain ⟨rfl, rfl⟩ := Observation.ranCallback.inj (List.mem_singleton.mp hmem)
        refine ⟨lim, hl, ?_⟩
        unfold InflightLimiter.giveBack at hcb
        split at hcb
        · exact absurd hcb (by simp)
        · exact hcb

theorem step_observed {w w' : PermitProcess ι κ} {op : LimiterOp ι κ}
    (hstep : w.step op = some w') : ∃ obs, Observed w w' obs := by
  cases op with
  | tryAcquireOrQueue l | tryPromoteQueued l | cancelQueued l =>
      obtain ⟨lim, hl, heq⟩ := Option.bind_eq_some_iff.mp hstep
      obtain rfl := Option.some.inj heq
      exact ⟨_, .one rfl fun _ => rfl⟩
  | close l | setOnRelease l callback | destroyLimiter l | moveConstruct src =>
      obtain ⟨lim, hl, heq⟩ := Option.bind_eq_some_iff.mp hstep
      obtain rfl := Option.some.inj heq
      exact ⟨[], .silent rfl⟩
  | defaultConstruct =>
      obtain rfl := Option.some.inj hstep
      exact ⟨[], .silent rfl⟩
  | moveAssign dst src =>
      obtain ⟨q, hq, hrest⟩ := Option.bind_eq_some_iff.mp hstep
      obtain ⟨p, hp, heq⟩ := Option.bind_eq_some_iff.mp hrest
      split at heq
      · obtain rfl := Option.some.inj heq
        exact ⟨[], .silent rfl⟩
      · obtain rfl := Option.some.inj heq
        obtain ⟨obs, hobs⟩ := w.releaseAt_observed dst q
        exact ⟨obs, hobs.history, hobs.inForce⟩
  | release i | destroy i =>
      obtain ⟨p, hp, heq⟩ := Option.bind_eq_some_iff.mp hstep
      obtain rfl := Option.some.inj heq
      obtain ⟨obs, hobs⟩ := w.releaseAt_observed i p
      exact ⟨obs, hobs.history, hobs.inForce⟩

theorem init_conservation (size : ι → LimiterSize) (callback : ι → κ) :
    (init size callback).Conservation := by
  intro l lim hl
  obtain rfl := Option.some.inj hl
  exact ⟨rfl, Nat.zero_le _, fun _ => rfl, Nat.zero_le _, fun _ => rfl, rfl, rfl⟩

variable {size : ι → LimiterSize} {callback : ι → κ} {ops : List (LimiterOp ι κ)}
  {w : PermitProcess ι κ}

theorem run_conservation (hrun : run step (init size callback) ops = some w) : w.Conservation :=
  run_induct hrun (init_conservation size callback) fun _ _ _ h hstep => h.step hstep

theorem run_limits (hrun : run step (init size callback) ops = some w) {l : ι}
    {lim : InflightLimiter κ} (hl : w.limiters l = some lim) :
    lim.maxInflight = (size l).maxInflight ∧ lim.maxQueueSize = (size l).maxQueueSize := by
  have hall : ∀ lim, w.limiters l = some lim →
      lim.maxInflight = (size l).maxInflight ∧ lim.maxQueueSize = (size l).maxQueueSize := by
    refine run_induct (p := fun w => ∀ lim, w.limiters l = some lim →
      lim.maxInflight = (size l).maxInflight ∧ lim.maxQueueSize = (size l).maxQueueSize) hrun ?_ ?_
    · intro lim hl
      obtain rfl := Option.some.inj hl
      exact ⟨rfl, rfl⟩
    · intro a op b ha hstep lim' hl'
      obtain ⟨lim, hlim, hev⟩ := step_evolves hstep hl'
      rw [hev.maxInflight, hev.maxQueueSize]
      exact ha lim hlim
  exact hall lim hl

/-- A limiter is closed when `close` was called on it, and not before. -/
theorem run_closed_iff (hrun : run step (init size callback) ops = some w) {l : ι}
    {lim : InflightLimiter κ} (hl : w.limiters l = some lim) :
    lim.closed = true ↔ .close l ∈ ops := by
  have hall : ∀ lim, w.limiters l = some lim → (lim.closed = true ↔ .close l ∈ ops) := by
    refine run_history (I := fun ops w => ∀ lim, w.limiters l = some lim →
      (lim.closed = true ↔ .close l ∈ ops)) hrun ?_ ?_
    · intro lim hl
      obtain rfl := Option.some.inj hl
      simp
    · intro ops a op b ha hstep lim' hl'
      obtain ⟨lim, hlim, hev⟩ := step_evolves hstep hl'
      rw [hev.closed, ha lim hlim, List.mem_append, List.mem_singleton, eq_comm]
  exact hall lim hl

/-- In every reachable state the counts of a living limiter are those of the permit objects that own
its slots and of the answers it has given, from `close` on it hands out nothing, and every slot ever
handed out is either still owned or has been given back with exactly one run of the callback then in
force. -/
theorem slot_conservation (hrun : run step (init size callback) ops = some w) {l : ι}
    {lim : InflightLimiter κ} (hl : w.limiters l = some lim) :
    (lim.currentInflight = w.owners l ∧ lim.currentInflight ≤ (size l).maxInflight) ∧
    (lim.closed = true ↔ .close l ∈ ops) ∧
    (.close l ∉ ops → lim.queuedRequests + w.reservationsTaken l = w.queueResults l ∧
      lim.queuedRequests ≤ (size l).maxQueueSize) ∧
    (.close l ∈ ops → lim.queuedRequests = 0 ∧
      (lim.tryAcquireOrQueue l).1.permit.valid = false ∧
      (lim.tryPromoteQueued l).1.valid = false ∧
      ∀ op w' lim', w.step op = some w' → w'.limiters l = some lim' → lim'.closed = true) ∧
    w.callbackRuns l + w.owners l = w.grants l ∧
    (∀ op w', w.step op = some w' → ∃ obs, w'.history = w.history ++ obs ∧
      ∀ cb, .ranCallback l cb ∈ obs → lim.onRelease = some cb) := by
  have hc := run_conservation hrun l lim hl
  have hclosed := run_closed_iff hrun hl
  obtain ⟨hmax, hqueue⟩ := run_limits hrun hl
  refine ⟨⟨hc.owned, hmax ▸ hc.cap⟩, hclosed, fun hopen => ?_, fun hclose => ?_,
    hc.owned ▸ hc.returned, fun op w' hstep => ?_⟩
  · have hstill : lim.closed = false := Bool.eq_false_iff.mpr (mt hclosed.mp hopen)
    exact ⟨hc.reserved hstill, hqueue ▸ hc.room⟩
  · have hshut := hclosed.mpr hclose
    obtain ⟨hacquire, hpromote⟩ := InflightLimiter.closed_refuses hshut l
    refine ⟨hc.drained hshut, hacquire, hpromote, fun op w' lim' hstep hl' => ?_⟩
    obtain ⟨lim₀, hl₀, hev⟩ := step_evolves hstep hl'
    obtain rfl := Option.some.inj (hl.symm.trans hl₀)
    exact hev.closed.mpr (.inl hshut)
  · obtain ⟨obs, hobs⟩ := step_observed hstep
    refine ⟨obs, hobs.history, fun cb hmem => ?_⟩
    obtain ⟨lim₀, hl₀, hcb⟩ := hobs.inForce l cb hmem
    obtain rfl := Option.some.inj (hl.symm.trans hl₀)
    exact hcb

/-- One slot is admitted, moved over an empty permit and given back by destruction; a second one is
out and a request waits when the limiter is closed, and nothing is handed out after that. -/
def closeWhileOwned : List (LimiterOp Unit Unit) :=
  [.tryAcquireOrQueue (), .defaultConstruct, .moveAssign 1 0, .release 0, .destroy 1,
    .tryAcquireOrQueue (), .tryAcquireOrQueue (), .close (), .tryAcquireOrQueue (),
    .tryPromoteQueued ()]

theorem slot_conservation_closeWhileOwned :
    ∃ w lim, run step (init (fun _ => ⟨1, 1, Nat.one_pos⟩) fun _ => ()) closeWhileOwned = some w ∧
      w.limiters () = some lim ∧ lim.currentInflight = w.owners () ∧ w.owners () = 1 ∧
      lim.queuedRequests = 0 ∧ w.queueResults () = 1 ∧
      (lim.tryAcquireOrQueue ()).1.permit.valid = false ∧
      w.callbackRuns () + w.owners () = w.grants () ∧ w.callbackRuns () = 1 := by
  refine ⟨_, _, rfl, rfl, ?_⟩
  have h := slot_conservation (l := ()) (w := _)
    (show run step (init (fun _ => ⟨1, 1, Nat.one_pos⟩) fun _ => ()) closeWhileOwned =
      some _ from rfl)
    rfl
  have hclosed := h.2.2.2.1 (by decide)
  exact ⟨h.1.1, by decide, hclosed.1, by decide, hclosed.2.1, h.2.2.2.2.1, by decide⟩

end PermitProcess

end VllmSloProxy
