import VllmSloProxy.AdmissionHysteresis
import VllmSloProxy.InflightLimiter

/-!
# A healthy system

How fast the policy gives back what an overload has taken, and what it decides while nothing is
overloaded.
-/

namespace VllmSloProxy

variable {F : Type}

/-- `evaluate` throws on a negative counter. -/
def AdmissionRequestState.valid (state : AdmissionRequestState) : Bool :=
  0 ≤ state.currentInflight && 0 ≤ state.currentQueueSize

theorem AdmissionRequestState.valid_iff {state : AdmissionRequestState} :
    state.valid = true ↔ ¬ (state.currentInflight < 0 ∨ state.currentQueueSize < 0) := by
  simp only [valid, Bool.and_eq_true, decide_eq_true_eq, not_or, Int.not_lt]

namespace AdmissionPolicy

-- 1. Recovery in closed form.

/-- The recovery samples counted since the last rise, were the count never reset, after `n` more. -/
def counted (q : AdmissionPolicy F) (n : Nat) : Int :=
  q.consecutiveRecoverySamples + max 0 (n - q.cooldownRemaining)

/-- Where `n` recovery samples take the policy `q`. -/
def recoveredAfter (q : AdmissionPolicy F) (n : Nat) : AdmissionPolicy F where
  config := q.config
  recommendedMaxInflight :=
    min q.config.maxInflight (q.recommendedMaxInflight + q.counted n / q.config.cooldownSamples)
  cooldownRemaining := max 0 (q.cooldownRemaining - n)
  consecutiveRecoverySamples := q.counted n % q.config.cooldownSamples

variable {q : AdmissionPolicy F} {n : Nat}

theorem counted_of_le (h : n ≤ q.cooldownRemaining) :
    q.counted n = q.consecutiveRecoverySamples := by
  unfold counted
  omega

theorem counted_of_lt (h : q.cooldownRemaining < n) :
    q.counted n = q.consecutiveRecoverySamples + n - q.cooldownRemaining := by
  unfold counted
  omega

theorem counted_succ (h : q.cooldownRemaining ≤ n) : q.counted (n + 1) = q.counted n + 1 := by
  unfold counted
  omega

-- Division by the period when one more is counted: the remainder grows, or it wraps.
theorem ediv_emod_succ {m c : Int} (hc : 0 < c) (h : m % c + 1 < c) :
    (m + 1) / c = m / c ∧ (m + 1) % c = m % c + 1 := by
  have hlow : 0 ≤ m % c := Int.emod_nonneg m (by omega)
  have hsplit := Int.mul_ediv_add_emod m c
  rw [Int.ediv_emod_unique hc]
  exact ⟨by omega, by omega, h⟩

theorem ediv_emod_wrap {m c : Int} (hc : 0 < c) (h : c ≤ m % c + 1) :
    (m + 1) / c = m / c + 1 ∧ (m + 1) % c = 0 := by
  have hlt : m % c < c := Int.emod_lt_of_pos m hc
  have hsplit := Int.mul_ediv_add_emod m c
  rw [Int.ediv_emod_unique hc]
  refine ⟨?_, Int.le_refl 0, hc⟩
  rw [Int.mul_add, Int.mul_one]
  omega

theorem recoveredAfter_of_le (hq : q.InRange) (h : n ≤ q.cooldownRemaining) :
    q.recoveredAfter n = { q with cooldownRemaining := q.cooldownRemaining - n } := by
  obtain ⟨⟨-, hr⟩, -, ⟨hk, hk'⟩, -⟩ := hq
  have hcool : max 0 (q.cooldownRemaining - n) = q.cooldownRemaining - n := by omega
  unfold recoveredAfter
  rw [counted_of_le h, Int.ediv_eq_zero_of_lt hk hk', Int.emod_eq_of_lt hk hk', Int.add_zero,
    Int.min_eq_right hr, hcool]

/-- One more recovery sample, in the three phases of a recovery. -/
theorem updateRecommendation_recoveredAfter (hq : q.InRange) (hcounts : CountsAccepted q.config) :
    (q.recoveredAfter n).updateRecommendation false false true = q.recoveredAfter (n + 1) := by
  have hc := hcounts.cooldownSamples
  have hnext := updateRecommendation_updates false false true (q.recoveredAfter n)
  generalize (q.recoveredAfter n).updateRecommendation false false true = next at hnext ⊢
  cases hnext with
  | halved hcritical => cases hcritical
  | lowered _ hsoft => cases hsoft
  | broken _ _ hrecovery => cases hrecovery
  | cooled _ hcooling =>
      have hlt : n < q.cooldownRemaining := by
        dsimp only [recoveredAfter] at hcooling
        omega
      rw [recoveredAfter_of_le hq hlt, recoveredAfter_of_le hq (by omega)]
      dsimp only
      congr 1
      omega
  | counted _ hcool _ hmore =>
      dsimp only [recoveredAfter] at hcool hmore ⊢
      have hsucc := ediv_emod_succ hc hmore
      have hpast : q.cooldownRemaining ≤ n := by omega
      rw [counted_succ hpast, hsucc.1, hsucc.2]
      congr 1
      omega
  | raised _ hcool _ henough =>
      dsimp only [recoveredAfter] at hcool henough ⊢
      have hsucc := ediv_emod_wrap hc henough
      have hpast : q.cooldownRemaining ≤ n := by omega
      rw [counted_succ hpast, hsucc.1, hsucc.2]
      congr 1 <;> omega

theorem recoveredAfter_recommended (hq : q.InRange) :
    (q.recoveredAfter n).recommendedMaxInflight =
      if n ≤ q.cooldownRemaining then q.recommendedMaxInflight
      else min q.config.maxInflight (q.recommendedMaxInflight +
        (q.consecutiveRecoverySamples + n - q.cooldownRemaining) / q.config.cooldownSamples) := by
  split
  · rename_i hle
    rw [recoveredAfter_of_le hq hle]
  · rename_i hgt
    rw [recoveredAfter, counted_of_lt (by omega)]

/-- Enough samples to lift the smallest recommendation to the largest, and one period more. -/
theorem recoveredAfter_restores (hq : q.InRange) (hcounts : CountsAccepted q.config)
    (hn : q.config.cooldownSamples * (1 + q.config.maxInflight - q.config.minInflight) ≤ n) :
    (q.recoveredAfter n).recommendedMaxInflight = q.config.maxInflight := by
  obtain ⟨⟨hr, -⟩, ⟨-, hd⟩, ⟨hk, -⟩, -⟩ := hq
  have hc := hcounts.cooldownSamples
  have hperiods : q.config.cooldownSamples * (q.config.maxInflight - q.config.minInflight) ≤
      q.counted n := by
    have hsplit : q.config.cooldownSamples * (1 + q.config.maxInflight - q.config.minInflight) =
        q.config.cooldownSamples + q.config.cooldownSamples *
          (q.config.maxInflight - q.config.minInflight) := by
      rw [Int.add_sub_assoc, Int.mul_add, Int.mul_one]
    unfold counted
    omega
  have hlift : q.config.maxInflight - q.config.minInflight ≤
      q.counted n / q.config.cooldownSamples :=
    Int.le_ediv_of_mul_le hc (by rw [Int.mul_comm]; exact hperiods)
  dsimp only [recoveredAfter]
  apply Int.min_eq_left
  omega

variable [LT F] [LE F] [DecidableLT F] [DecidableLE F] [Mul F] [IntCast F] [OfScientific F]
  {config : AdmissionPolicyConfig F} {p : AdmissionPolicy F}
  {history further calls : List (MetricsSnapshot F × AdmissionRequestState)}

/-- A recovery sample without any overload. -/
structure Recovering (q : AdmissionPolicy F) (metrics : MetricsSnapshot F) : Prop where
  recovery : q.isRecoverySample metrics = true
  notSoft : q.isSoftOverload metrics = false
  notCritical : q.isCriticalOverload metrics = false

/-- The calls that do not throw. -/
def answered (calls : List (MetricsSnapshot F × AdmissionRequestState)) : Nat :=
  calls.countP fun call => call.2.valid

theorem inRange_after (hcreate : create config = .ok p) :
    (p.after calls).InRange ∧ (p.after calls).config = config := by
  induction calls using List.reverseRecOn with
  | nil =>
      obtain ⟨-, rfl⟩ := create_ok hcreate
      exact ⟨InRange.create hcreate, rfl⟩
  | append_singleton calls call ih =>
      have hcounts : CountsAccepted (p.after calls).config :=
        ih.2 ▸ (create_ok hcreate).1.toCountsAccepted
      have hnext := ih.1.evaluate (c := call) hcounts
      rw [after_snoc]
      exact ⟨hnext.1, hnext.2.trans ih.2⟩

theorem after_eq_recoveredAfter (hq : q.InRange) (hcounts : CountsAccepted q.config)
    (hfurther : ∀ call ∈ further, q.Recovering call.1) :
    q.after further = q.recoveredAfter (answered further) := by
  induction further using List.reverseRecOn with
  | nil =>
      have hnone : ((0 : Nat) : Int) ≤ q.cooldownRemaining := hq.cooldown.1
      show q = q.recoveredAfter 0
      rw [recoveredAfter_of_le hq hnone, Int.natCast_zero, Int.sub_zero]
  | append_singleton further call ih =>
      obtain ⟨hrecovery, hsoft, hcritical⟩ :=
        hfurther call (List.mem_append_right _ (List.mem_singleton.mpr rfl))
      have hbefore := ih fun c hc => hfurther c (List.mem_append_left _ hc)
      rw [after_snoc, hbefore]
      unfold answered
      rw [List.countP_append, List.countP_singleton]
      by_cases hvalid : call.2.valid = true
      · -- the sample is judged by the configuration, which no call changes
        rw [if_pos hvalid, ← updateRecommendation_recoveredAfter hq hcounts, evaluate,
          if_neg (AdmissionRequestState.valid_iff.mp hvalid)]
        show updateRecommendation (q.isSoftOverload call.1) (q.isCriticalOverload call.1)
          (q.isRecoverySample call.1) _ = _
        rw [hrecovery, hsoft, hcritical]
      · -- the call throws
        have hthrows : call.2.currentInflight < 0 ∨ call.2.currentQueueSize < 0 := by
          by_contra hnot
          exact hvalid (AdmissionRequestState.valid_iff.mpr hnot)
        rw [if_neg hvalid, evaluate, if_pos hthrows, Nat.add_zero]

/-- From every state that a history reaches, the recommendation after any number of recovery
samples; one period for each step it was lowered by, and one for the cooldown, bring it back. -/
theorem recommendation_after_recovering (hcreate : create config = .ok p)
    (hfurther : ∀ call ∈ further, (p.after history).Recovering call.1) :
    let q := p.after history
    let n : Nat := answered further
    ((q.after further).recommendedMaxInflight =
        if n ≤ q.cooldownRemaining then q.recommendedMaxInflight
        else min config.maxInflight (q.recommendedMaxInflight +
          (q.consecutiveRecoverySamples + n - q.cooldownRemaining) / config.cooldownSamples)) ∧
      (config.cooldownSamples * (1 + config.maxInflight - config.minInflight) ≤ n →
        (q.after further).recommendedMaxInflight = config.maxInflight) := by
  intro q n
  obtain ⟨hrange, hconfig⟩ : q.InRange ∧ q.config = config := inRange_after hcreate
  have hcounts : CountsAccepted q.config := hconfig ▸ (create_ok hcreate).1.toCountsAccepted
  rw [after_eq_recoveredAfter hrange hcounts hfurther, ← hconfig]
  exact ⟨recoveredAfter_recommended hrange, recoveredAfter_restores hrange hcounts⟩

/-- Two soft overloads, then six healthy samples: two for the cooldown and two for each rise. -/
theorem recommendation_after_recovering_twice :
    ((after ⟨testConfig, 8, 0, 0⟩ [(softMetrics, {}), (softMetrics, {})]).after
      (List.replicate 6 (healthyMetrics, {}))).recommendedMaxInflight = 8 :=
  have hcreate : create testConfig = .ok ⟨testConfig, 8, 0, 0⟩ := by decide +kernel
  have hhealthy : ∀ call ∈ List.replicate 6 (healthyMetrics, ({} : AdmissionRequestState)),
      (after ⟨testConfig, 8, 0, 0⟩ [(softMetrics, {}), (softMetrics, {})]).Recovering call.1 := by
    intro call hcall
    rw [(List.mem_replicate.mp hcall).2]
    exact ⟨by decide +kernel, by decide +kernel, by decide +kernel⟩
  (recommendation_after_recovering hcreate hhealthy).1.trans (by decide +kernel)

-- 2. Decisions while nothing is overloaded.

variable {metrics : MetricsSnapshot F} {state : AdmissionRequestState} {ι κ : Type}

theorem evaluate_decision (hvalid : state.valid = true) (hsoft : q.isSoftOverload metrics = false)
    (hcritical : q.isCriticalOverload metrics = false) :
    ∃ result, (q.evaluate metrics state).2 = .ok result ∧
      result.recommendedMaxInflight = (q.evaluate metrics state).1.recommendedMaxInflight ∧
      result.decision = (q.evaluate metrics state).1.decisionFor false false state := by
  unfold evaluate
  rw [if_neg (AdmissionRequestState.valid_iff.mp hvalid), hsoft, hcritical]
  exact ⟨_, rfl, rfl, rfl⟩

/-- With free capacity and nobody waiting, the policy admits exactly when its queue can hold a
request at all; the limiter admits whatever the size of its queue. -/
theorem healthy_admitted_iff (hcreate : create config = .ok p)
    (hsoft : (p.after history).isSoftOverload metrics = false)
    (hcritical : (p.after history).isCriticalOverload metrics = false)
    (hqueue : state.currentQueueSize = 0) (hinflight : 0 ≤ state.currentInflight)
    (l : InflightLimiter κ) (id : ι) :
    (∃ result, ((p.after history).evaluate metrics state).2 = .ok result ∧
      (state.currentInflight < result.recommendedMaxInflight →
        (result.decision = .admitted ↔ 0 < config.maxQueueSize))) ∧
      (l.closed = false → l.currentInflight < l.maxInflight →
        (l.tryAcquireOrQueue id).1.decision = .admitted) := by
  refine ⟨?_, InflightLimiter.tryAcquireOrQueue_of_lt id⟩
  obtain ⟨hrange, hconfig⟩ : (p.after history).InRange ∧ (p.after history).config = config :=
    inRange_after hcreate
  have hcounts : CountsAccepted (p.after history).config :=
    hconfig ▸ (create_ok hcreate).1.toCountsAccepted
  have hvalid : state.valid = true := AdmissionRequestState.valid_iff.mpr (by omega)
  obtain ⟨result, hresult, hrecommended, hdecision⟩ := evaluate_decision hvalid hsoft hcritical
  refine ⟨result, hresult, fun hfree => ?_⟩
  have hnext := (hrange.evaluate (c := (metrics, state)) hcounts).2.trans hconfig
  rw [hdecision, decisionFor_empty_queue hqueue (hrecommended ▸ hfree), hnext]

theorem healthy_admitted_iff_testConfig :
    (∃ result, ((after ⟨testConfig, 8, 0, 0⟩ []).evaluate healthyMetrics {}).2 = .ok result ∧
      (0 < result.recommendedMaxInflight →
        (result.decision = .admitted ↔ 0 < testConfig.maxQueueSize))) ∧
      (({ maxInflight := 1, maxQueueSize := 0, maxInflight_pos := by decide } :
        InflightLimiter Unit).tryAcquireOrQueue ()).1.decision = .admitted :=
  have hcreate : create testConfig = .ok ⟨testConfig, 8, 0, 0⟩ := by decide +kernel
  have hidle : ({} : AdmissionRequestState).currentQueueSize = 0 := rfl
  have hboth := healthy_admitted_iff hcreate (by decide +kernel) (by decide +kernel)
    hidle (Int.le_refl 0)
    ({ maxInflight := 1, maxQueueSize := 0, maxInflight_pos := by decide } :
      InflightLimiter Unit) ()
  ⟨hboth.1, hboth.2 rfl (by decide)⟩

/-- A policy that does without a queue. -/
def queuelessConfig : AdmissionPolicyConfig ℚ := { testConfig with maxQueueSize := 0 }

/-- It is accepted, and rejects a healthy system's first request. -/
theorem healthy_rejected_without_queue :
    create queuelessConfig = .ok ⟨queuelessConfig, 8, 0, 0⟩ ∧
      isSoftOverload ⟨queuelessConfig, 8, 0, 0⟩ healthyMetrics = false ∧
      isCriticalOverload ⟨queuelessConfig, 8, 0, 0⟩ healthyMetrics = false ∧
      (evaluate healthyMetrics {} ⟨queuelessConfig, 8, 0, 0⟩).2 =
        .ok { decision := .reject, recommendedMaxInflight := 8 } := by
  decide +kernel

end AdmissionPolicy

end VllmSloProxy
