import Mathlib.Algebra.Order.Field.Rat
import Mathlib.Data.Rat.Cast.Order
import VllmSloProxy.Lib.CInt
import VllmSloProxy.Lib.Run

/-!
# The admission policy

`admission_policy.cpp`.  The type `F` stands for `double`: any type with the comparisons, the
product and the literals that the code uses, so that NaN and rounding are covered where nothing more
is assumed of it.  An `int` is an exact integer, and `update_recommendation` is also given in
machine arithmetic.
-/

namespace VllmSloProxy

inductive AdmissionDecision where
  | admitted
  | queue
  | reject
  deriving DecidableEq, Repr

/-- The fields of a sample that the policy reads. -/
structure MetricsSnapshot (F : Type) where
  p95TtftMs : F
  waitingRequests : Int := 0
  kvCacheUsageRatio : F
  gpuMemoryUsageRatio : F
  errorRate : F
  deriving DecidableEq

structure AdmissionPolicyConfig (F : Type) where
  minInflight : Int := 1
  maxInflight : Int := 8
  maxQueueSize : Int := 16
  targetP95TtftMs : F
  criticalP95TtftMs : F
  maxKvCacheUsageRatio : F
  maxGpuMemoryUsageRatio : F
  maxWaitingRequests : Int := 16
  recoveryRatio : F
  cooldownSamples : Int := 3
  deriving DecidableEq

structure AdmissionRequestState where
  currentInflight : Int := 0
  currentQueueSize : Int := 0
  deriving DecidableEq, Repr

structure AdmissionResult where
  decision : AdmissionDecision := .admitted
  recommendedMaxInflight : Int := 1
  overloaded : Bool := false
  critical : Bool := false
  deriving DecidableEq, Repr

structure AdmissionPolicy (F : Type) where
  config : AdmissionPolicyConfig F
  recommendedMaxInflight : Int
  cooldownRemaining : Int := 0
  consecutiveRecoverySamples : Int := 0
  deriving DecidableEq

variable {F : Type}

/-- What the constructor has checked of the `int` fields. -/
structure CountsAccepted (config : AdmissionPolicyConfig F) : Prop where
  minInflight : 0 < config.minInflight
  maxInflight : config.minInflight ≤ config.maxInflight
  maxQueueSize : 0 ≤ config.maxQueueSize
  maxWaitingRequests : 0 ≤ config.maxWaitingRequests
  cooldownSamples : 0 < config.cooldownSamples

namespace AdmissionPolicy

def updateRecommendation (softOverload criticalOverload recovery : Bool)
    (p : AdmissionPolicy F) : AdmissionPolicy F :=
  if criticalOverload then
    { p with
      recommendedMaxInflight := max p.config.minInflight (p.recommendedMaxInflight.tdiv 2)
      cooldownRemaining := p.config.cooldownSamples
      consecutiveRecoverySamples := 0 }
  else if softOverload then
    { p with
      recommendedMaxInflight := max p.config.minInflight (p.recommendedMaxInflight - 1)
      cooldownRemaining := p.config.cooldownSamples
      consecutiveRecoverySamples := 0 }
  else if 0 < p.cooldownRemaining then
    { p with cooldownRemaining := p.cooldownRemaining - 1 }
  else if !recovery then
    { p with consecutiveRecoverySamples := 0 }
  else
    let p := { p with consecutiveRecoverySamples := p.consecutiveRecoverySamples + 1 }
    if p.consecutiveRecoverySamples ≥ p.config.cooldownSamples then
      { p with
        recommendedMaxInflight := min p.config.maxInflight (p.recommendedMaxInflight + 1)
        consecutiveRecoverySamples := 0 }
    else p

/-- What `evaluate` decides once the recommendation has been updated. -/
def decisionFor (softOverload criticalOverload : Bool) (state : AdmissionRequestState)
    (p : AdmissionPolicy F) : AdmissionDecision :=
  if criticalOverload || state.currentQueueSize ≥ p.config.maxQueueSize then .reject
  else if softOverload || state.currentInflight ≥ p.recommendedMaxInflight then .queue
  else .admitted

variable {p p' : AdmissionPolicy F} {softOverload criticalOverload recovery : Bool}

/-- The queue test comes first, and without overload it is a test of the limit alone. -/
theorem decisionFor_empty_queue {state : AdmissionRequestState}
    (hqueue : state.currentQueueSize = 0)
    (hfree : state.currentInflight < p.recommendedMaxInflight) :
    p.decisionFor false false state = .admitted ↔ 0 < p.config.maxQueueSize := by
  unfold decisionFor
  rw [hqueue]
  by_cases hlimit : 0 < p.config.maxQueueSize
  · have hroom : ¬ p.config.maxQueueSize ≤ 0 := by omega
    have hslot : ¬ p.recommendedMaxInflight ≤ state.currentInflight := by omega
    simp [hlimit, hroom, hslot]
  · have hfull : p.config.maxQueueSize ≤ 0 := by omega
    simp [hlimit, hfull]

/-- Everything that one update can do. -/
inductive Updates (softOverload criticalOverload recovery : Bool) (p : AdmissionPolicy F) :
    AdmissionPolicy F → Prop where
  | halved (hcritical : criticalOverload = true) :
      Updates softOverload criticalOverload recovery p { p with
        recommendedMaxInflight := max p.config.minInflight (p.recommendedMaxInflight.tdiv 2)
        cooldownRemaining := p.config.cooldownSamples
        consecutiveRecoverySamples := 0 }
  | lowered (hcritical : criticalOverload = false) (hsoft : softOverload = true) :
      Updates softOverload criticalOverload recovery p { p with
        recommendedMaxInflight := max p.config.minInflight (p.recommendedMaxInflight - 1)
        cooldownRemaining := p.config.cooldownSamples
        consecutiveRecoverySamples := 0 }
  | cooled (hquiet : (softOverload || criticalOverload) = false)
      (hcooling : 0 < p.cooldownRemaining) :
      Updates softOverload criticalOverload recovery p { p with
        cooldownRemaining := p.cooldownRemaining - 1 }
  | broken (hquiet : (softOverload || criticalOverload) = false)
      (hcool : ¬ 0 < p.cooldownRemaining) (hrecovery : recovery = false) :
      Updates softOverload criticalOverload recovery p { p with consecutiveRecoverySamples := 0 }
  | counted (hquiet : (softOverload || criticalOverload) = false)
      (hcool : ¬ 0 < p.cooldownRemaining) (hrecovery : recovery = true)
      (hmore : p.consecutiveRecoverySamples + 1 < p.config.cooldownSamples) :
      Updates softOverload criticalOverload recovery p { p with
        consecutiveRecoverySamples := p.consecutiveRecoverySamples + 1 }
  | raised (hquiet : (softOverload || criticalOverload) = false)
      (hcool : ¬ 0 < p.cooldownRemaining) (hrecovery : recovery = true)
      (henough : p.config.cooldownSamples ≤ p.consecutiveRecoverySamples + 1) :
      Updates softOverload criticalOverload recovery p { p with
        recommendedMaxInflight := min p.config.maxInflight (p.recommendedMaxInflight + 1)
        consecutiveRecoverySamples := 0 }

theorem updateRecommendation_updates (softOverload criticalOverload recovery : Bool)
    (p : AdmissionPolicy F) :
    Updates softOverload criticalOverload recovery p
      (p.updateRecommendation softOverload criticalOverload recovery) := by
  unfold updateRecommendation
  cases hcritical : criticalOverload with
  | true => exact .halved rfl
  | false =>
      cases hsoft : softOverload with
      | true => exact .lowered rfl rfl
      | false =>
          rw [if_neg Bool.false_ne_true, if_neg Bool.false_ne_true]
          split
          · rename_i hcooling
            exact .cooled rfl hcooling
          · rename_i hcool
            cases hrecovery : recovery with
            | false => exact .broken rfl hcool rfl
            | true =>
                rw [Bool.not_true, if_neg Bool.false_ne_true]
                dsimp only
                split
                · rename_i henough
                  exact .raised rfl hcool rfl henough
                · rename_i hmore
                  exact .counted rfl hcool rfl (Int.lt_of_not_ge hmore)

/-- The ranges of the counters. -/
structure InRange (p : AdmissionPolicy F) : Prop where
  recommended : p.config.minInflight ≤ p.recommendedMaxInflight ∧
    p.recommendedMaxInflight ≤ p.config.maxInflight
  cooldown : 0 ≤ p.cooldownRemaining ∧ p.cooldownRemaining ≤ p.config.cooldownSamples
  consecutive : 0 ≤ p.consecutiveRecoverySamples ∧
    p.consecutiveRecoverySamples < p.config.cooldownSamples
  cooling : 0 < p.cooldownRemaining → p.consecutiveRecoverySamples = 0

theorem Updates.config_eq (h : Updates softOverload criticalOverload recovery p p') :
    p'.config = p.config := by
  cases h <;> rfl

-- Halving cannot overshoot: the recommendation is positive.
theorem half_le {r : Int} (hr : 0 < r) : r.tdiv 2 ≤ r - 1 ∧ 0 ≤ r.tdiv 2 := by
  rw [Int.tdiv_eq_ediv_of_nonneg (by omega)]
  omega

theorem Updates.inRange (h : Updates softOverload criticalOverload recovery p p')
    (hcounts : CountsAccepted p.config) (hp : p.InRange) : p'.InRange := by
  obtain ⟨hmin, hmax, -, -, hcooldown⟩ := hcounts
  obtain ⟨⟨hr, hr'⟩, ⟨hd, hd'⟩, ⟨hk, hk'⟩, hcooling⟩ := hp
  cases h with
  | halved =>
      have hhalf := half_le (r := p.recommendedMaxInflight) (by omega)
      refine ⟨⟨?_, ?_⟩, ⟨?_, ?_⟩, ⟨?_, ?_⟩, fun _ => rfl⟩ <;> dsimp only <;> omega
  | lowered => refine ⟨⟨?_, ?_⟩, ⟨?_, ?_⟩, ⟨?_, ?_⟩, fun _ => rfl⟩ <;> dsimp only <;> omega
  | cooled hquiet hcool =>
      exact ⟨⟨hr, hr'⟩, ⟨by dsimp only; omega, by dsimp only; omega⟩, ⟨hk, hk'⟩,
        fun _ => hcooling hcool⟩
  | broken => exact ⟨⟨hr, hr'⟩, ⟨hd, hd'⟩, ⟨Int.le_refl 0, hcooldown⟩, fun _ => rfl⟩
  | counted hquiet hcool _ hmore =>
      exact ⟨⟨hr, hr'⟩, ⟨hd, hd'⟩, ⟨by dsimp only; omega, hmore⟩, fun h => absurd h hcool⟩
  | raised =>
      exact ⟨⟨by dsimp only; omega, by dsimp only; omega⟩, ⟨hd, hd'⟩, ⟨Int.le_refl 0, hcooldown⟩,
        fun _ => rfl⟩

end AdmissionPolicy

variable [LT F] [LE F] [DecidableLT F] [DecidableLE F] [Mul F] [IntCast F] [OfScientific F]

def validateRatio (value : F) (name : String) : Except String Unit :=
  if value < 0.0 ∨ 1.0 < value then throw (name ++ " must be in [0, 1]") else return ()

/-- What the constructor has checked. -/
structure Accepted (config : AdmissionPolicyConfig F) : Prop extends CountsAccepted config where
  targetP95TtftMs : ¬ config.targetP95TtftMs ≤ 0.0
  criticalP95TtftMs : ¬ config.criticalP95TtftMs < config.targetP95TtftMs
  maxKvCacheUsageRatio : ¬ (config.maxKvCacheUsageRatio < 0.0 ∨ 1.0 < config.maxKvCacheUsageRatio)
  maxGpuMemoryUsageRatio :
    ¬ (config.maxGpuMemoryUsageRatio < 0.0 ∨ 1.0 < config.maxGpuMemoryUsageRatio)
  recoveryRatio : ¬ (config.recoveryRatio ≤ 0.0 ∨ 1.0 ≤ config.recoveryRatio)

omit [LE F] [DecidableLE F] [Mul F] [IntCast F] in
theorem validateRatio_ok {value : F} {name : String} {u : Unit}
    (h : validateRatio value name = .ok u) : ¬ (value < 0.0 ∨ 1.0 < value) := by
  intro hout
  rw [validateRatio, if_pos hout] at h
  cases h

namespace AdmissionPolicy

def create (config : AdmissionPolicyConfig F) : Except String (AdmissionPolicy F) := do
  if config.minInflight ≤ 0 then throw "min_inflight must be positive"
  if config.maxInflight < config.minInflight then throw "max_inflight must be >= min_inflight"
  if config.maxQueueSize < 0 then throw "max_queue_size must be non-negative"
  if config.targetP95TtftMs ≤ 0.0 then throw "target_p95_ttft_ms must be positive"
  if config.criticalP95TtftMs < config.targetP95TtftMs then
    throw "critical_p95_ttft_ms must be >= target_p95_ttft_ms"
  validateRatio config.maxKvCacheUsageRatio "max_kv_cache_usage_ratio"
  validateRatio config.maxGpuMemoryUsageRatio "max_gpu_memory_usage_ratio"
  if config.maxWaitingRequests < 0 then throw "max_waiting_requests must be non-negative"
  if config.recoveryRatio ≤ 0.0 ∨ 1.0 ≤ config.recoveryRatio then
    throw "recovery_ratio must be in (0, 1)"
  if config.cooldownSamples ≤ 0 then throw "cooldown_samples must be positive"
  return { config, recommendedMaxInflight := config.maxInflight }

def isSoftOverload (p : AdmissionPolicy F) (metrics : MetricsSnapshot F) : Bool :=
  metrics.p95TtftMs ≥ p.config.targetP95TtftMs ||
    metrics.kvCacheUsageRatio ≥ p.config.maxKvCacheUsageRatio ||
    metrics.gpuMemoryUsageRatio ≥ p.config.maxGpuMemoryUsageRatio ||
    metrics.waitingRequests ≥ p.config.maxWaitingRequests

def isCriticalOverload (p : AdmissionPolicy F) (metrics : MetricsSnapshot F) : Bool :=
  metrics.p95TtftMs ≥ p.config.criticalP95TtftMs ||
    metrics.kvCacheUsageRatio ≥ 0.98 ||
    metrics.gpuMemoryUsageRatio ≥ 0.98 ||
    metrics.errorRate ≥ 0.10

def isRecoverySample (p : AdmissionPolicy F) (metrics : MetricsSnapshot F) : Bool :=
  metrics.p95TtftMs < p.config.targetP95TtftMs * p.config.recoveryRatio &&
    metrics.kvCacheUsageRatio < p.config.maxKvCacheUsageRatio * p.config.recoveryRatio &&
    metrics.gpuMemoryUsageRatio < p.config.maxGpuMemoryUsageRatio * p.config.recoveryRatio &&
    (metrics.waitingRequests : F) < (p.config.maxWaitingRequests : F) * p.config.recoveryRatio &&
    metrics.errorRate < 0.01

def evaluate (metrics : MetricsSnapshot F) (state : AdmissionRequestState)
    (p : AdmissionPolicy F) : AdmissionPolicy F × Except String AdmissionResult :=
  if state.currentInflight < 0 ∨ state.currentQueueSize < 0 then
    (p, .error "request state counters must be non-negative")
  else
    let softOverload := p.isSoftOverload metrics
    let criticalOverload := p.isCriticalOverload metrics
    let recovery := p.isRecoverySample metrics
    let p := p.updateRecommendation softOverload criticalOverload recovery
    (p, .ok {
      decision := p.decisionFor softOverload criticalOverload state
      recommendedMaxInflight := p.recommendedMaxInflight
      overloaded := softOverload || criticalOverload
      critical := criticalOverload })

variable {config : AdmissionPolicyConfig F} {p p' : AdmissionPolicy F}

omit [Mul F] [IntCast F] in
theorem create_ok (h : create config = .ok p) :
    Accepted config ∧ p = { config, recommendedMaxInflight := config.maxInflight } := by
  unfold create at h
  simp only [bind, Except.bind, pure, Except.pure, throw, throwThe, MonadExceptOf.throw] at h
  -- the check that throws ends the construction
  repeat' split at h
  all_goals try cases h
  rename_i hmin hmax hqueue htarget hcritical _ _ hkv _ _ hgpu hwaiting hrecovery hcooldown
  exact ⟨⟨⟨by omega, by omega, by omega, by omega, by omega⟩, htarget, hcritical,
    validateRatio_ok hkv, validateRatio_ok hgpu, hrecovery⟩, rfl⟩

omit [Mul F] [IntCast F] in
theorem InRange.create (h : create config = .ok p) : p.InRange := by
  obtain ⟨haccepted, rfl⟩ := create_ok h
  have hcooldown := haccepted.cooldownSamples
  exact ⟨⟨haccepted.maxInflight, Int.le_refl _⟩, ⟨Int.le_refl 0, by dsimp only; omega⟩,
    ⟨Int.le_refl 0, hcooldown⟩,
    fun _ => rfl⟩

/-- A call that throws leaves the policy alone; any other updates it by what it makes of the
sample. -/
theorem evaluate_cases (metrics : MetricsSnapshot F) (state : AdmissionRequestState)
    (p : AdmissionPolicy F) :
    ((state.currentInflight < 0 ∨ state.currentQueueSize < 0) ∧ (p.evaluate metrics state).1 = p) ∨
    (¬ (state.currentInflight < 0 ∨ state.currentQueueSize < 0) ∧
      Updates (p.isSoftOverload metrics) (p.isCriticalOverload metrics) (p.isRecoverySample metrics)
        p (p.evaluate metrics state).1) := by
  unfold evaluate
  by_cases hstate : state.currentInflight < 0 ∨ state.currentQueueSize < 0
  · rw [if_pos hstate]
    exact .inl ⟨hstate, rfl⟩
  · rw [if_neg hstate]
    exact .inr ⟨hstate, updateRecommendation_updates ..⟩

end AdmissionPolicy

end VllmSloProxy
