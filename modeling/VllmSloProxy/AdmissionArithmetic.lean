import VllmSloProxy.AdmissionPolicy

/-!
# The admission policy in `int` arithmetic

`update_recommendation` with every operation on `int` checked.  The recommendation is increased
before it is clamped, so the one operation that can overflow is the increase at the largest `int`.
-/

namespace VllmSloProxy

open Transition

variable {F : Type}

/-- The `int` fields of a configuration hold values of that type. -/
structure FitsInt (config : AdmissionPolicyConfig F) : Prop where
  minInflight : CInt.Fits config.minInflight
  maxInflight : CInt.Fits config.maxInflight
  maxQueueSize : CInt.Fits config.maxQueueSize
  maxWaitingRequests : CInt.Fits config.maxWaitingRequests
  cooldownSamples : CInt.Fits config.cooldownSamples

namespace AdmissionPolicy

def updateRecommendationInt (softOverload criticalOverload recovery : Bool)
    (p : AdmissionPolicy F) : Option (AdmissionPolicy F) := do
  if criticalOverload then
    let half ← CInt.div p.recommendedMaxInflight 2
    return { p with
      recommendedMaxInflight := max p.config.minInflight half
      cooldownRemaining := p.config.cooldownSamples
      consecutiveRecoverySamples := 0 }
  else if softOverload then
    let less ← CInt.sub p.recommendedMaxInflight 1
    return { p with
      recommendedMaxInflight := max p.config.minInflight less
      cooldownRemaining := p.config.cooldownSamples
      consecutiveRecoverySamples := 0 }
  else if 0 < p.cooldownRemaining then
    let remaining ← CInt.sub p.cooldownRemaining 1
    return { p with cooldownRemaining := remaining }
  else if !recovery then
    return { p with consecutiveRecoverySamples := 0 }
  else
    let samples ← CInt.add p.consecutiveRecoverySamples 1
    let p := { p with consecutiveRecoverySamples := samples }
    if p.consecutiveRecoverySamples ≥ p.config.cooldownSamples then
      let more ← CInt.add p.recommendedMaxInflight 1
      return { p with
        recommendedMaxInflight := min p.config.maxInflight more
        consecutiveRecoverySamples := 0 }
    else return p

/-- The update would increase a recommendation that is the largest `int` already. -/
def raisesLargest (softOverload criticalOverload recovery : Bool) (p : AdmissionPolicy F) : Bool :=
  !softOverload && !criticalOverload && recovery && p.cooldownRemaining = 0 &&
    p.consecutiveRecoverySamples + 1 = p.config.cooldownSamples &&
    p.recommendedMaxInflight = CInt.maxValue

variable {p p' : AdmissionPolicy F} {softOverload criticalOverload recovery : Bool}

theorem InRange.bounds (h : p.InRange) (hcounts : CountsAccepted p.config)
    (hfits : FitsInt p.config) :
    0 < p.recommendedMaxInflight ∧ p.recommendedMaxInflight ≤ CInt.maxValue ∧
      p.config.cooldownSamples ≤ CInt.maxValue := by
  have hmin := hcounts.minInflight
  have hmax := hfits.maxInflight.2
  have hr := h.recommended
  exact ⟨by omega, by omega, hfits.cooldownSamples.2⟩

/-- No other operation overflows, and then machine arithmetic is exact. -/
theorem updateRecommendationInt_eq (h : p.InRange) (hcounts : CountsAccepted p.config)
    (hfits : FitsInt p.config) :
    p.updateRecommendationInt softOverload criticalOverload recovery =
      if p.raisesLargest softOverload criticalOverload recovery then none
      else some (p.updateRecommendation softOverload criticalOverload recovery) := by
  obtain ⟨hpos, hr, hcooldown⟩ := h.bounds hcounts hfits
  obtain ⟨-, ⟨hd, hd'⟩, ⟨hk, hk'⟩, -⟩ := h
  have hhalf := half_le hpos
  unfold updateRecommendationInt updateRecommendation raisesLargest
  cases criticalOverload with
  | true =>
      have hdiv : CInt.div p.recommendedMaxInflight 2 = some (p.recommendedMaxInflight.tdiv 2) :=
        CInt.checked_of_nonneg (by omega) (by omega)
      simp [hdiv]
  | false =>
      cases softOverload with
      | true =>
          have hsub : CInt.sub p.recommendedMaxInflight 1 = some (p.recommendedMaxInflight - 1) :=
            CInt.checked_of_nonneg (by omega) (by omega)
          simp [hsub]
      | false =>
          by_cases hcooling : 0 < p.cooldownRemaining
          · have hsub : CInt.sub p.cooldownRemaining 1 = some (p.cooldownRemaining - 1) :=
              CInt.checked_of_nonneg (by omega) (by omega)
            -- while the policy cools down it raises nothing
            have hne : p.cooldownRemaining ≠ 0 := by omega
            simp [hsub, hcooling, hne]
          · cases recovery with
            | false => simp [hcooling]
            | true =>
                have hadd : CInt.add p.consecutiveRecoverySamples 1 =
                    some (p.consecutiveRecoverySamples + 1) :=
                  CInt.checked_of_nonneg (by omega) (by omega)
                have hcool : p.cooldownRemaining = 0 := by omega
                by_cases henough : p.config.cooldownSamples ≤ p.consecutiveRecoverySamples + 1
                · have heq : p.consecutiveRecoverySamples + 1 = p.config.cooldownSamples := by omega
                  by_cases hlargest : p.recommendedMaxInflight = CInt.maxValue
                  · -- the increase comes before the clamp
                    have hnone : CInt.add CInt.maxValue 1 = none := rfl
                    simp [hadd, hcool, heq, hlargest, hnone]
                  · have hmore : CInt.add p.recommendedMaxInflight 1 =
                        some (p.recommendedMaxInflight + 1) :=
                      CInt.checked_of_nonneg (by omega) (by omega)
                    simp [hadd, hcool, heq, hlargest, hmore]
                · have hne : p.consecutiveRecoverySamples + 1 ≠ p.config.cooldownSamples := by omega
                  simp [hadd, hcool, henough, hne]

variable [LT F] [LE F] [DecidableLT F] [DecidableLE F] [Mul F] [IntCast F] [OfScientific F]

def evaluateInt (metrics : MetricsSnapshot F) (state : AdmissionRequestState)
    (p : AdmissionPolicy F) : Option (AdmissionPolicy F × Except String AdmissionResult) := do
  if state.currentInflight < 0 ∨ state.currentQueueSize < 0 then
    return (p, .error "request state counters must be non-negative")
  else
    let softOverload := p.isSoftOverload metrics
    let criticalOverload := p.isCriticalOverload metrics
    let recovery := p.isRecoverySample metrics
    let p ← p.updateRecommendationInt softOverload criticalOverload recovery
    return (p, .ok {
      decision := p.decisionFor softOverload criticalOverload state
      recommendedMaxInflight := p.recommendedMaxInflight
      overloaded := softOverload || criticalOverload
      critical := criticalOverload })

/-- One call; an overflow has no result. -/
def evaluateStep (p : AdmissionPolicy F) (call : MetricsSnapshot F × AdmissionRequestState) :
    Option (AdmissionPolicy F) :=
  (p.evaluateInt call.1 call.2).map Prod.fst

/-- The call is about to overflow. -/
def overflows (p : AdmissionPolicy F) (call : MetricsSnapshot F × AdmissionRequestState) : Bool :=
  0 ≤ call.2.currentInflight && 0 ≤ call.2.currentQueueSize &&
    p.raisesLargest (p.isSoftOverload call.1) (p.isCriticalOverload call.1)
      (p.isRecoverySample call.1)

variable {config : AdmissionPolicyConfig F} {call : MetricsSnapshot F × AdmissionRequestState}

theorem evaluateStep_eq (h : p.InRange) (hcounts : CountsAccepted p.config)
    (hfits : FitsInt p.config) :
    p.evaluateStep call =
      if p.overflows call then none else some (p.evaluate call.1 call.2).1 := by
  unfold evaluateStep evaluateInt overflows evaluate
  by_cases hstate : call.2.currentInflight < 0 ∨ call.2.currentQueueSize < 0
  · have hnot : ¬ (0 ≤ call.2.currentInflight ∧ 0 ≤ call.2.currentQueueSize) := by omega
    rw [if_pos hstate, if_pos hstate]
    simp [hnot]
  · have hvalid : 0 ≤ call.2.currentInflight ∧ 0 ≤ call.2.currentQueueSize := by omega
    rw [if_neg hstate, if_neg hstate]
    dsimp only
    rw [updateRecommendationInt_eq h hcounts hfits]
    simp only [hvalid, decide_true, Bool.true_and]
    split <;> rfl

theorem InRange.evaluate {c : MetricsSnapshot F × AdmissionRequestState} (h : p.InRange)
    (hcounts : CountsAccepted p.config) :
    (p.evaluate c.1 c.2).1.InRange ∧ (p.evaluate c.1 c.2).1.config = p.config := by
  rcases evaluate_cases c.1 c.2 p with ⟨-, heq⟩ | ⟨-, hupdates⟩
  · rw [heq]
    exact ⟨h, rfl⟩
  · exact ⟨hupdates.inRange hcounts h, hupdates.config_eq⟩

/-- In every state that a sequence of calls reaches the counters are in range and no operation has
overflowed, exactly when no call is about to increase a recommendation that is the largest `int`. -/
theorem inRange_iff_not_overflows {calls : List (MetricsSnapshot F × AdmissionRequestState)}
    (hcreate : create config = .ok p) (hfits : FitsInt config) :
    (∀ pre, pre <+: calls → ∃ p', run evaluateStep p pre = some p' ∧
        (p'.config = config ∧ p'.InRange)) ↔
      Meets evaluateStep (fun p call => p.overflows call = false) p calls := by
  have haccepted := (create_ok hcreate).1
  have hconfig : p.config = config := by rw [(create_ok hcreate).2]
  have hstep {a : AdmissionPolicy F} (ha : a.config = config ∧ a.InRange)
      (call : MetricsSnapshot F × AdmissionRequestState) : a.evaluateStep call =
        if a.overflows call then none else some (a.evaluate call.1 call.2).1 :=
    evaluateStep_eq ha.2 (ha.1 ▸ haccepted.toCountsAccepted) (ha.1 ▸ hfits)
  refine enabled_iff_meets ⟨hconfig, InRange.create hcreate⟩ (fun a call ha => ?_)
    fun a call b ha hb => ?_
  · rw [hstep ha]
    cases a.overflows call <;> simp
  · rw [hstep ha] at hb
    split at hb
    · cases hb
    · obtain rfl := Option.some.inj hb
      have hnext : (a.evaluate call.1 call.2).1.InRange ∧
          (a.evaluate call.1 call.2).1.config = a.config :=
        ha.2.evaluate (ha.1 ▸ haccepted.toCountsAccepted)
      exact ⟨hnext.2.trans ha.1, hnext.1⟩

-- Concrete configurations and samples.

def testConfig : AdmissionPolicyConfig ℚ where
  minInflight := 2
  maxInflight := 8
  maxQueueSize := 2
  targetP95TtftMs := 100.0
  criticalP95TtftMs := 200.0
  maxKvCacheUsageRatio := 0.80
  maxGpuMemoryUsageRatio := 0.85
  maxWaitingRequests := 4
  recoveryRatio := 0.70
  cooldownSamples := 2

def healthyMetrics : MetricsSnapshot ℚ where
  p95TtftMs := 50.0
  waitingRequests := 0
  kvCacheUsageRatio := 0.30
  gpuMemoryUsageRatio := 0.40
  errorRate := 0.0

def softMetrics : MetricsSnapshot ℚ := { healthyMetrics with p95TtftMs := 120.0 }

/-- The calls of the test, up to the rise at its end. -/
def softThenHealthy : List (MetricsSnapshot ℚ × AdmissionRequestState) :=
  [(softMetrics, {}), (healthyMetrics, {}), (healthyMetrics, {}), (healthyMetrics, {}),
    (healthyMetrics, {})]

theorem inRange_softThenHealthy :
    Meets evaluateStep (fun p call => p.overflows call = false) ⟨testConfig, 8, 0, 0⟩
        softThenHealthy ∧
      ∀ pre, pre <+: softThenHealthy → ∃ p', run evaluateStep ⟨testConfig, 8, 0, 0⟩ pre = some p' ∧
        (p'.config = testConfig ∧ p'.InRange) := by
  have hmeets : Meets evaluateStep (fun p call => p.overflows call = false)
      ⟨testConfig, 8, 0, 0⟩ softThenHealthy := by decide +kernel
  have hfits : FitsInt testConfig := ⟨by decide, by decide, by decide, by decide, by decide⟩
  exact ⟨hmeets, (inRange_iff_not_overflows (by decide +kernel) hfits).mpr hmeets⟩

/-- The largest cap that an `int` holds. -/
def largestConfig : AdmissionPolicyConfig ℚ :=
  { testConfig with maxInflight := CInt.maxValue, cooldownSamples := 1 }

theorem not_inRange_largest :
    create largestConfig = .ok ⟨largestConfig, CInt.maxValue, 0, 0⟩ ∧
      (run evaluateStep ⟨largestConfig, CInt.maxValue, 0, 0⟩ [(healthyMetrics, {})]).isNone := by
  decide +kernel

end AdmissionPolicy

end VllmSloProxy
