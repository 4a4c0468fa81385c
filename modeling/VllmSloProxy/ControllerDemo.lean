import VllmSloProxy.AdmissionArithmetic

/-!
# The controller demo

`main.cpp`: a loop that puts one request after the other to the admission policy and never takes one
back.  The config, the samples and the requests in flight at the start are parameters here; what the
loop prints is the list of results.  Every operation on `int` is checked.
-/

namespace VllmSloProxy

structure ControllerDemo (F : Type) where
  policy : AdmissionPolicy F
  inflight : Int
  queued : Int := 0
  results : List AdmissionResult := []

namespace AdmissionResult

def isAdmitted (result : AdmissionResult) : Bool := result.decision = .admitted

def isQueue (result : AdmissionResult) : Bool := result.decision = .queue

end AdmissionResult

namespace AdmissionPolicy

variable {F : Type} {p : AdmissionPolicy F} {softOverload criticalOverload : Bool}
  {state : AdmissionRequestState}

/-- A request is let in only below the limit, and neither let in nor queued when the queue is full.
-/
theorem decisionFor_cases (softOverload criticalOverload : Bool) (state : AdmissionRequestState)
    (p : AdmissionPolicy F) :
    p.decisionFor softOverload criticalOverload state = .reject ∨
      (p.decisionFor softOverload criticalOverload state = .queue ∧
        state.currentQueueSize < p.config.maxQueueSize) ∨
      (p.decisionFor softOverload criticalOverload state = .admitted ∧
        state.currentQueueSize < p.config.maxQueueSize ∧
        state.currentInflight < p.recommendedMaxInflight) := by
  unfold decisionFor
  by_cases hreject : (criticalOverload || state.currentQueueSize ≥ p.config.maxQueueSize) = true
  · rw [if_pos hreject]
    exact .inl rfl
  · have hroom : state.currentQueueSize < p.config.maxQueueSize := by
      simp at hreject
      omega
    rw [if_neg hreject]
    by_cases hqueue : (softOverload || state.currentInflight ≥ p.recommendedMaxInflight) = true
    · rw [if_pos hqueue]
      exact .inr (.inl ⟨rfl, hroom⟩)
    · have hslot : state.currentInflight < p.recommendedMaxInflight := by
        simp at hqueue
        omega
      rw [if_neg hqueue]
      exact .inr (.inr ⟨rfl, hroom, hslot⟩)

theorem decisionFor_full (softOverload criticalOverload : Bool)
    (hfull : p.config.maxQueueSize ≤ state.currentQueueSize) :
    p.decisionFor softOverload criticalOverload state = .reject := by
  unfold decisionFor
  rw [if_pos]
  simp [hfull]

variable [LT F] [LE F] [DecidableLT F] [DecidableLE F] [Mul F] [IntCast F] [OfScientific F]

/-- Below the largest `int` the recommendation can always be increased. -/
theorem evaluateInt_eq (h : p.InRange) (hcounts : CountsAccepted p.config)
    (hfits : FitsInt p.config) (hlt : p.config.maxInflight < CInt.maxValue)
    (metrics : MetricsSnapshot F) (state : AdmissionRequestState) :
    p.evaluateInt metrics state = some (p.evaluate metrics state) := by
  have hbelow : p.recommendedMaxInflight ≠ CInt.maxValue := (h.recommended.2.trans_lt hlt).ne
  unfold evaluateInt evaluate
  split
  · rfl
  · dsimp only
    rw [updateRecommendationInt_eq h hcounts hfits, if_neg (by simp [raisesLargest, hbelow])]
    rfl

end AdmissionPolicy

namespace ControllerDemo

variable {F : Type} {config : AdmissionPolicyConfig F} {start : Int} {d : ControllerDemo F}

/-- The counters of the loop count the answers, and from a full queue on every answer is no. -/
structure Counts (config : AdmissionPolicyConfig F) (start : Int) (d : ControllerDemo F) :
    Prop where
  config_eq : d.policy.config = config
  inRange : d.policy.InRange
  inflight : d.inflight = start + d.results.countP AdmissionResult.isAdmitted
  queued : d.queued = d.results.countP AdmissionResult.isQueue
  inflight_le : d.inflight ≤ max start config.maxInflight
  queued_le : d.queued ≤ config.maxQueueSize
  full : ∀ first last, d.results = first ++ last →
    (first.countP AdmissionResult.isQueue : Int) = config.maxQueueSize →
    ∀ result ∈ last, result.decision = .reject

/-- One more answer, which is no if the queue is full. -/
theorem Counts.full_snoc (h : Counts config start d) {result : AdmissionResult}
    (hreject : d.queued = config.maxQueueSize → result.decision = .reject)
    (first last : List AdmissionResult) (heq : d.results ++ [result] = first ++ last)
    (hfull : (first.countP AdmissionResult.isQueue : Int) = config.maxQueueSize) :
    ∀ r ∈ last, r.decision = .reject := by
  induction last using List.reverseRecOn with
  | nil => exact fun r hmem => absurd hmem List.not_mem_nil
  | append_singleton last lastResult _ =>
      rw [← List.append_assoc] at heq
      obtain ⟨hresults, hlast⟩ := List.append_inj' heq rfl
      have hearlier := h.full first last hresults hfull
      have hnone : last.countP AdmissionResult.isQueue = 0 := by
        apply List.countP_eq_zero.mpr
        intro r hmem
        simp [AdmissionResult.isQueue, hearlier r hmem]
      have hqueued : d.queued = config.maxQueueSize := by
        rw [h.queued, hresults, List.countP_append, hnone, Nat.add_zero, hfull]
      intro r hmem
      rcases List.mem_append.mp hmem with hmem | hmem
      · exact hearlier r hmem
      · rw [List.mem_singleton.mp hmem, ← List.singleton_inj.mp hlast]
        exact hreject hqueued

variable [LT F] [LE F] [DecidableLT F] [DecidableLE F] [Mul F] [IntCast F] [OfScientific F]

/-- One round of the loop; an overflow has no result. -/
def round (config : AdmissionPolicyConfig F) (d : ControllerDemo F) (sample : MetricsSnapshot F) :
    Option (Except String (ControllerDemo F)) := do
  let state : AdmissionRequestState :=
    { currentInflight := d.inflight, currentQueueSize := d.queued }
  match ← d.policy.evaluateInt sample state with
  | (_, .error message) => return .error message
  | (policy, .ok result) =>
      let d := { d with policy, results := d.results ++ [result] }
      match result.decision with
      | .admitted =>
          let more ← CInt.add d.inflight 1
          return .ok { d with inflight := min more result.recommendedMaxInflight }
      | .queue =>
          let more ← CInt.add d.queued 1
          return .ok { d with queued := min more config.maxQueueSize }
      | .reject => return .ok d

def rounds (config : AdmissionPolicyConfig F) (d : ControllerDemo F) :
    List (MetricsSnapshot F) → Option (Except String (ControllerDemo F))
  | [] => some (.ok d)
  | sample :: samples => do
      match ← round config d sample with
      | .error message => return .error message
      | .ok d => rounds config d samples

def main (config : AdmissionPolicyConfig F) (inflight : Int) (samples : List (MetricsSnapshot F)) :
    Option (Except String (ControllerDemo F)) :=
  match AdmissionPolicy.create config with
  | .error message => some (.error message)
  | .ok policy => rounds config { policy, inflight } samples

/-- No round throws or overflows, and the two minima of the loop never cut anything off. -/
theorem Counts.round (h : Counts config start d) (hcounts : CountsAccepted config)
    (hfits : FitsInt config) (hlt : config.maxInflight < CInt.maxValue) (hstart : 0 ≤ start)
    (sample : MetricsSnapshot F) :
    ∃ d', round config d sample = some (.ok d') ∧ Counts config start d' ∧
      d'.results.length = d.results.length + 1 := by
  have hinflight := h.inflight
  have hqueued := h.queued
  have hinflight_le := h.inflight_le
  have hqueued_le := h.queued_le
  have hstate : ¬ (d.inflight < 0 ∨ d.queued < 0) := by omega
  have hupdates := AdmissionPolicy.updateRecommendation_updates (d.policy.isSoftOverload sample)
    (d.policy.isCriticalOverload sample) (d.policy.isRecoverySample sample) d.policy
  have hqueue := hfits.maxQueueSize.2
  unfold ControllerDemo.round
  dsimp only
  rw [AdmissionPolicy.evaluateInt_eq h.inRange (h.config_eq ▸ hcounts) (h.config_eq ▸ hfits)
    (h.config_eq ▸ hlt)]
  unfold AdmissionPolicy.evaluate
  simp only [if_neg hstate, Option.bind_eq_bind, Option.bind_some]
  generalize d.policy.updateRecommendation _ _ _ = policy at *
  have hconfig : policy.config = config := hupdates.config_eq.trans h.config_eq
  have hrange : policy.InRange := hupdates.inRange (h.config_eq ▸ hcounts) h.inRange
  have hlimit : policy.recommendedMaxInflight ≤ config.maxInflight := hconfig ▸ hrange.recommended.2
  have hreject : d.queued = config.maxQueueSize →
      policy.decisionFor (d.policy.isSoftOverload sample) (d.policy.isCriticalOverload sample)
        { currentInflight := d.inflight, currentQueueSize := d.queued } = .reject := by
    intro hfull
    apply AdmissionPolicy.decisionFor_full
    rw [hconfig, ← hfull]
  rcases AdmissionPolicy.decisionFor_cases (d.policy.isSoftOverload sample)
    (d.policy.isCriticalOverload sample)
    { currentInflight := d.inflight, currentQueueSize := d.queued } policy with
    hd | ⟨hd, hroom⟩ | ⟨hd, -, hslot⟩
  all_goals
    rw [hd] at hreject ⊢
  · -- Reject: neither counter moves
    refine ⟨_, rfl, ?_, List.length_append⟩
    refine ⟨hconfig, hrange, ?_, ?_, hinflight_le, hqueued_le, h.full_snoc fun _ => rfl⟩
    · simpa [AdmissionResult.isAdmitted] using hinflight
    · simpa [AdmissionResult.isQueue] using hqueued
  · -- Queue: there was a free place, so `std::min` keeps the sum
    have hmin : min (d.queued + 1) config.maxQueueSize = d.queued + 1 := by
      rw [hconfig] at hroom
      exact min_eq_left hroom
    have hmore : CInt.add d.queued 1 = some (d.queued + 1) := by
      rw [hconfig] at hroom
      exact CInt.checked_of_nonneg (by omega) (Int.le_trans hroom hqueue)
    dsimp only
    rw [hmore]
    refine ⟨_, rfl, ?_, List.length_append⟩
    refine ⟨hconfig, hrange, ?_, ?_, hinflight_le, ?_, h.full_snoc hreject⟩
    · simpa [AdmissionResult.isAdmitted] using hinflight
    · show min (d.queued + 1) config.maxQueueSize = _
      rw [hmin, hqueued, List.countP_append]
      rfl
    · exact min_le_right _ _
  · -- Admit: there was a free slot under the recommendation of this sample
    have hmin : min (d.inflight + 1) policy.recommendedMaxInflight = d.inflight + 1 :=
      min_eq_left hslot
    have hmore : CInt.add d.inflight 1 = some (d.inflight + 1) := by
      have hbelow : d.inflight < policy.recommendedMaxInflight := hslot
      exact CInt.checked_of_nonneg (by omega) (by omega)
    dsimp only
    rw [hmore]
    refine ⟨_, rfl, ?_, List.length_append⟩
    refine ⟨hconfig, hrange, ?_, ?_, ?_, hqueued_le, h.full_snoc hreject⟩
    · show min (d.inflight + 1) policy.recommendedMaxInflight = _
      rw [hmin, hinflight, List.countP_append, Nat.cast_add, ← Int.add_assoc]
      rfl
    · simpa [AdmissionResult.isQueue] using hqueued
    · show min (d.inflight + 1) policy.recommendedMaxInflight ≤ _
      exact (min_le_right _ _).trans (hlimit.trans (le_max_right _ _))

theorem Counts.rounds (h : Counts config start d) (hcounts : CountsAccepted config)
    (hfits : FitsInt config) (hlt : config.maxInflight < CInt.maxValue) (hstart : 0 ≤ start)
    (samples : List (MetricsSnapshot F)) :
    ∃ d', ControllerDemo.rounds config d samples = some (.ok d') ∧ Counts config start d' ∧
      d'.results.length = d.results.length + samples.length := by
  induction samples generalizing d with
  | nil => exact ⟨d, rfl, h, rfl⟩
  | cons sample samples ih =>
      obtain ⟨d₁, hround, hcounts₁, hlength⟩ := h.round hcounts hfits hlt hstart sample
      obtain ⟨d', hrounds, hcounts', hlength'⟩ := ih hcounts₁
      refine ⟨d', ?_, hcounts', ?_⟩
      · rw [ControllerDemo.rounds, hround]
        exact hrounds
      · rw [hlength', hlength, List.length_cons]
        omega

/-- For every config that the policy accepts, with a limit below the largest `int`, and all samples,
the loop answers each of them: it neither throws nor overflows.  It keeps no more requests in flight
than `max_inflight` or than there were at the start, and queues no more than `max_queue_size`, its
counters are exact, and once the queue is full every answer is no. -/
theorem main_bounded {p : AdmissionPolicy F} (hcreate : AdmissionPolicy.create config = .ok p)
    (hfits : FitsInt config) (hlt : config.maxInflight < CInt.maxValue) (hstart : 0 ≤ start)
    (samples : List (MetricsSnapshot F)) :
    ∃ d, main config start samples = some (.ok d) ∧ d.results.length = samples.length ∧
      d.inflight = start + d.results.countP AdmissionResult.isAdmitted ∧
      d.queued = d.results.countP AdmissionResult.isQueue ∧
      d.inflight ≤ max start config.maxInflight ∧ d.queued ≤ config.maxQueueSize ∧
      ∀ first last, d.results = first ++ last →
        (first.countP AdmissionResult.isQueue : Int) = config.maxQueueSize →
        ∀ result ∈ last, result.decision = .reject := by
  obtain ⟨haccepted, hp⟩ := AdmissionPolicy.create_ok hcreate
  have hinit : Counts config start { policy := p, inflight := start } := by
    refine ⟨by rw [hp], .create hcreate, by simp, by simp, le_max_left _ _,
      haccepted.maxQueueSize, ?_⟩
    intro first last heq _ result hmem
    rw [(List.append_eq_nil_iff.mp heq.symm).2] at hmem
    cases hmem
  obtain ⟨d, hrounds, h, hlength⟩ :=
    hinit.rounds haccepted.toCountsAccepted hfits hlt hstart samples
  refine ⟨d, ?_, hlength.trans (Nat.zero_add _), h.inflight, h.queued, h.inflight_le, h.queued_le,
    h.full⟩
  unfold main
  rw [hcreate]
  exact hrounds

/-- The config of the program. -/
def demoConfig : AdmissionPolicyConfig ℚ where
  minInflight := 2
  maxInflight := 8
  maxQueueSize := 4
  targetP95TtftMs := 800.0
  criticalP95TtftMs := 1600.0
  maxKvCacheUsageRatio := 0.85
  maxGpuMemoryUsageRatio := 0.90
  maxWaitingRequests := 8
  recoveryRatio := 0.75
  cooldownSamples := 2

/-- The samples of the program. -/
def demoSamples : List (MetricsSnapshot ℚ) :=
  [⟨420.0, 0, 0.30, 0.40, 0.00⟩, ⟨760.0, 1, 0.70, 0.75, 0.00⟩, ⟨980.0, 3, 0.88, 0.82, 0.00⟩,
    ⟨1720.0, 4, 0.92, 0.95, 0.02⟩, ⟨650.0, 1, 0.55, 0.60, 0.00⟩, ⟨430.0, 0, 0.35, 0.45, 0.00⟩,
    ⟨390.0, 0, 0.32, 0.38, 0.00⟩]

theorem main_bounded_demoSamples : ∃ d, main demoConfig 2 demoSamples = some (.ok d) ∧
    d.results.length = 7 ∧ d.inflight ≤ 8 ∧ d.queued ≤ 4 := by
  have hcreate : AdmissionPolicy.create demoConfig = .ok ⟨demoConfig, 8, 0, 0⟩ := by
    decide +kernel
  obtain ⟨d, hmain, hlength, -, -, hinflight, hqueued, -⟩ :=
    main_bounded hcreate ⟨by decide, by decide, by decide, by decide, by decide⟩ (by decide)
      (show (0 : Int) ≤ 2 by decide) demoSamples
  exact ⟨d, hmain, hlength, hinflight, hqueued⟩

end ControllerDemo

end VllmSloProxy
