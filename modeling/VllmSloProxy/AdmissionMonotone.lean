import Mathlib.Tactic.Linarith
import VllmSloProxy.AdmissionHysteresis

/-!
# More load is never treated better

Two policies of one configuration see samples of which the second are never better.  The second
policy stays behind the first, although its counters go out of phase with those of the first.
-/

namespace VllmSloProxy

/-- `Admit`, then `Queue`, then `Reject`. -/
def AdmissionDecision.severity : AdmissionDecision → Nat
  | admitted => 0
  | queue => 1
  | reject => 2

/-- Every figure of the second sample is at least that of the first. -/
structure AtLeastAsBad (m m' : MetricsSnapshot ℚ) : Prop where
  p95TtftMs : m.p95TtftMs ≤ m'.p95TtftMs
  kvCacheUsageRatio : m.kvCacheUsageRatio ≤ m'.kvCacheUsageRatio
  gpuMemoryUsageRatio : m.gpuMemoryUsageRatio ≤ m'.gpuMemoryUsageRatio
  waitingRequests : m.waitingRequests ≤ m'.waitingRequests
  errorRate : m.errorRate ≤ m'.errorRate

/-- What the call returns. -/
def Evaluation.result (e : Evaluation ℚ) : Except String AdmissionResult :=
  (e.before.evaluate e.metrics e.state).2

/-- The second call recommends no more, and decides no milder. -/
structure NoBetter (e e' : Evaluation ℚ) : Prop where
  recommended : e'.after.recommendedMaxInflight ≤ e.after.recommendedMaxInflight
  throws : (∃ error, e.result = .error error) ↔ ∃ error, e'.result = .error error
  result : ∀ r r', e.result = .ok r → e'.result = .ok r' →
    r'.recommendedMaxInflight ≤ r.recommendedMaxInflight ∧
      r.decision.severity ≤ r'.decision.severity

namespace AdmissionPolicy

section Behind

variable {F : Type} {p p' q q' : AdmissionPolicy F}
  {soft critical recovery soft' critical' recovery' : Bool}

/-- The policy `p'` is behind `p`: it recommends no more, its last overload was no earlier, and
where both recommend the same below the cap, it has counted no more recovery samples. -/
structure Behind (p p' : AdmissionPolicy F) : Prop where
  config_eq : p'.config = p.config
  recommended : p'.recommendedMaxInflight ≤ p.recommendedMaxInflight
  cooldown : p.cooldownRemaining ≤ p'.cooldownRemaining
  consecutive : p'.recommendedMaxInflight = p.recommendedMaxInflight →
    p.recommendedMaxInflight < p.config.maxInflight →
      p'.consecutiveRecoverySamples ≤ p.consecutiveRecoverySamples

-- A policy that sees an overload falls behind any that was not behind it before.
theorem Behind.of_overload (hconfig : q'.config = q.config)
    (hrecommended : q'.recommendedMaxInflight ≤ q.recommendedMaxInflight)
    (hcooldown : q.cooldownRemaining ≤ q.config.cooldownSamples)
    (hreset : q'.cooldownRemaining = q'.config.cooldownSamples)
    (hnone : q'.consecutiveRecoverySamples = 0) (hcount : 0 ≤ q.consecutiveRecoverySamples) :
    Behind q q' :=
  ⟨hconfig, hrecommended, by rw [hreset, hconfig]; exact hcooldown,
    fun _ _ => hnone.trans_le hcount⟩

/-- A quiet update lowers nothing. -/
theorem Updates.le_of_quiet (h : Updates soft critical recovery p q) (hp : p.InRange)
    (hquiet : (soft || critical) = false) :
    p.recommendedMaxInflight ≤ q.recommendedMaxInflight := by
  have hmax := hp.recommended.2
  cases h with
  | halved hcritical => simp [hcritical] at hquiet
  | lowered _ hsoft => simp [hsoft] at hquiet
  | cooled => exact Int.le_refl p.recommendedMaxInflight
  | broken => exact Int.le_refl p.recommendedMaxInflight
  | counted => exact Int.le_refl p.recommendedMaxInflight
  | raised =>
      dsimp only
      omega

/-- The second policy sees an overload. -/
theorem Updates.recommended_le (h : Updates soft critical recovery p q)
    (h' : Updates soft' critical' recovery' p' q') (hbehind : Behind p p')
    (hcounts : CountsAccepted p.config) (hp : p.InRange) (hp' : p'.InRange)
    (hcritical : critical = true → critical' = true) (hover : (soft' || critical') = true) :
    q'.recommendedMaxInflight ≤ q.recommendedMaxInflight := by
  have hconfig := hbehind.config_eq
  have hr := hbehind.recommended
  have hmin := hcounts.minInflight
  have hlow' := hp'.recommended.1
  rw [hconfig] at hlow'
  have hhalf' := half_le (r := p'.recommendedMaxInflight) (by omega)
  by_cases hquiet : (soft || critical) = false
  · have hrises := h.le_of_quiet hp hquiet
    cases h' with
    | halved =>
        dsimp only
        rw [hconfig]
        omega
    | lowered =>
        dsimp only
        rw [hconfig]
        omega
    | _ hquiet' => rw [hquiet'] at hover; cases hover
  · cases h with
    | halved hcrit =>
        cases h' with
        | halved =>
            have hmono := Int.tdiv_le_tdiv (by decide : (0 : Int) < 2) hr
            dsimp only
            rw [hconfig]
            omega
        | lowered hcrit' => rw [hcritical hcrit] at hcrit'; cases hcrit'
        | _ hquiet' => rw [hquiet'] at hover; cases hover
    | lowered =>
        cases h' with
        | halved =>
            dsimp only
            rw [hconfig]
            omega
        | lowered =>
            dsimp only
            rw [hconfig]
            omega
        | _ hquiet' => rw [hquiet'] at hover; cases hover
    | _ hquiet' => exact absurd hquiet' hquiet

theorem Updates.behind (h : Updates soft critical recovery p q)
    (h' : Updates soft' critical' recovery' p' q') (hbehind : Behind p p')
    (hcounts : CountsAccepted p.config) (hp : p.InRange) (hp' : p'.InRange)
    (hsoft : soft = true → soft' = true) (hcritical : critical = true → critical' = true)
    (hrecovery : recovery' = true → recovery = true) : Behind q q' := by
  have hq : q.InRange := h.inRange hcounts hp
  have hqconfig : q'.config = q.config := by rw [h'.config_eq, h.config_eq, hbehind.config_eq]
  by_cases hover : (soft' || critical') = true
  · have hle := h.recommended_le h' hbehind hcounts hp hp' hcritical hover
    cases h' with
    | halved =>
        exact .of_overload hqconfig hle hq.cooldown.2 rfl rfl hq.consecutive.1
    | lowered =>
        exact .of_overload hqconfig hle hq.cooldown.2 rfl rfl hq.consecutive.1
    | _ hquiet' => rw [hquiet'] at hover; cases hover
  · -- then the first policy sees no overload either, and each counts on
    have hquiet : (soft || critical) = false := by
      cases soft <;> cases critical <;> simp_all
    obtain ⟨hconfig, hr, hd, hk⟩ := hbehind
    have hconfig' : p'.config.maxInflight = p.config.maxInflight ∧
        p'.config.cooldownSamples = p.config.cooldownSamples := by rw [hconfig]; exact ⟨rfl, rfl⟩
    obtain ⟨⟨hlow, hhigh⟩, ⟨hcd, hcd'⟩, ⟨hcount, hcount'⟩, hcooling⟩ := hp
    obtain ⟨-, -, ⟨hcount₁, hcount₁'⟩, hcooling₁⟩ := hp'
    cases h with
    | halved hcrit => simp [hcrit] at hquiet
    | lowered _ hs => simp [hs] at hquiet
    | cooled _ hcool =>
        -- the cooldown of the second is no shorter
        cases h' with
        | cooled => exact ⟨hqconfig, hr, by dsimp only; omega, hk⟩
        | halved hcrit => simp [hcrit] at hover
        | lowered _ hs => simp [hs] at hover
        | _ => omega
    | broken _ hcool hnone =>
        cases h' with
        | cooled _ hcool' =>
            exact ⟨hqconfig, hr, by dsimp only; omega, fun _ _ => by dsimp only; omega⟩
        | broken => exact ⟨hqconfig, hr, hd, fun _ _ => Int.le_refl 0⟩
        | halved hcrit => simp [hcrit] at hover
        | lowered _ hs => simp [hs] at hover
        | counted _ _ hsome => rw [hrecovery hsome] at hnone; cases hnone
        | raised _ _ hsome => rw [hrecovery hsome] at hnone; cases hnone
    | counted _ hcool _ hmore =>
        cases h' with
        | cooled _ hcool' =>
            exact ⟨hqconfig, hr, by dsimp only; omega, fun _ _ => by dsimp only; omega⟩
        | broken => exact ⟨hqconfig, hr, hd, fun _ _ => by dsimp only; omega⟩
        | counted =>
            refine ⟨hqconfig, hr, hd, fun heq hlt => ?_⟩
            have hle := hk heq hlt
            dsimp only
            omega
        | raised _ _ _ henough' =>
            -- the second rises first only where it recommends less
            have hbelow : p'.recommendedMaxInflight + 1 ≤ p.recommendedMaxInflight ∨
                p.recommendedMaxInflight = p.config.maxInflight := by
              by_contra hnot
              have hle := hk (by omega) (by omega)
              omega
            exact ⟨hqconfig, by dsimp only; omega, hd, fun _ _ => by dsimp only; omega⟩
        | halved hcrit => simp [hcrit] at hover
        | lowered _ hs => simp [hs] at hover
    | raised =>
        cases h' with
        | cooled _ hcool' =>
            refine ⟨hqconfig, by dsimp only; omega, by dsimp only; omega, fun heq hlt => ?_⟩
            dsimp only at heq hlt
            omega
        | broken => exact ⟨hqconfig, by dsimp only; omega, hd, fun _ _ => Int.le_refl 0⟩
        | counted =>
            refine ⟨hqconfig, by dsimp only; omega, hd, fun heq hlt => ?_⟩
            dsimp only at heq hlt
            omega
        | raised => exact ⟨hqconfig, by dsimp only; omega, hd, fun _ _ => Int.le_refl 0⟩
        | halved hcrit => simp [hcrit] at hover
        | lowered _ hs => simp [hs] at hover

end Behind

variable {config : AdmissionPolicyConfig ℚ} {p p' : AdmissionPolicy ℚ} {m m' : MetricsSnapshot ℚ}
  {state : AdmissionRequestState} {calls calls' : List (MetricsSnapshot ℚ × AdmissionRequestState)}

theorem isSoftOverload_of_worse (hconfig : p'.config = p.config) (hworse : AtLeastAsBad m m')
    (h : p.isSoftOverload m = true) : p'.isSoftOverload m' = true := by
  unfold isSoftOverload at h ⊢
  simp only [ge_iff_le, Bool.or_eq_true, decide_eq_true_eq] at h ⊢
  rw [hconfig]
  rcases h with ((h | h) | h) | h
  · exact .inl (.inl (.inl (h.trans hworse.p95TtftMs)))
  · exact .inl (.inl (.inr (h.trans hworse.kvCacheUsageRatio)))
  · exact .inl (.inr (h.trans hworse.gpuMemoryUsageRatio))
  · exact .inr (h.trans hworse.waitingRequests)

theorem isCriticalOverload_of_worse (hconfig : p'.config = p.config) (hworse : AtLeastAsBad m m')
    (h : p.isCriticalOverload m = true) : p'.isCriticalOverload m' = true := by
  unfold isCriticalOverload at h ⊢
  simp only [ge_iff_le, Bool.or_eq_true, decide_eq_true_eq] at h ⊢
  rw [hconfig]
  rcases h with ((h | h) | h) | h
  · exact .inl (.inl (.inl (h.trans hworse.p95TtftMs)))
  · exact .inl (.inl (.inr (h.trans hworse.kvCacheUsageRatio)))
  · exact .inl (.inr (h.trans hworse.gpuMemoryUsageRatio))
  · exact .inr (h.trans hworse.errorRate)

theorem isRecoverySample_of_worse (hconfig : p'.config = p.config) (hworse : AtLeastAsBad m m')
    (h : p'.isRecoverySample m' = true) : p.isRecoverySample m = true := by
  unfold isRecoverySample at h ⊢
  simp only [Bool.and_eq_true, decide_eq_true_eq] at h ⊢
  rw [hconfig] at h
  obtain ⟨⟨⟨⟨hp95, hkv⟩, hgpu⟩, hwaiting⟩, herror⟩ := h
  have hcast : (m.waitingRequests : ℚ) ≤ (m'.waitingRequests : ℚ) :=
    Int.cast_le.mpr hworse.waitingRequests
  exact ⟨⟨⟨⟨hworse.p95TtftMs.trans_lt hp95, hworse.kvCacheUsageRatio.trans_lt hkv⟩,
    hworse.gpuMemoryUsageRatio.trans_lt hgpu⟩, hcast.trans_lt hwaiting⟩,
    hworse.errorRate.trans_lt herror⟩

theorem severity_le {soft critical soft' critical' : Bool} (hconfig : p'.config = p.config)
    (hrecommended : p'.recommendedMaxInflight ≤ p.recommendedMaxInflight)
    (hsoft : soft = true → soft' = true) (hcritical : critical = true → critical' = true) :
    (p.decisionFor soft critical state).severity ≤
      (p'.decisionFor soft' critical' state).severity := by
  unfold decisionFor
  rw [hconfig]
  by_cases hreject : (critical || state.currentQueueSize ≥ p.config.maxQueueSize) = true
  · have hreject' : (critical' || state.currentQueueSize ≥ p.config.maxQueueSize) = true := by
      rw [Bool.or_eq_true] at hreject ⊢
      exact hreject.imp_left hcritical
    rw [if_pos hreject, if_pos hreject']
  · rw [if_neg hreject]
    by_cases hqueue : (soft || state.currentInflight ≥ p.recommendedMaxInflight) = true
    · have hqueue' : (soft' || state.currentInflight ≥ p'.recommendedMaxInflight) = true := by
        rw [Bool.or_eq_true, decide_eq_true_eq] at hqueue ⊢
        exact hqueue.imp hsoft hrecommended.trans
      rw [if_pos hqueue, if_pos hqueue']
      split <;> decide
    · rw [if_neg hqueue]
      exact Nat.zero_le _

/-- One call of each policy, the second with the worse sample. -/
theorem Behind.evaluate (h : Behind p p') (hcounts : CountsAccepted p.config) (hp : p.InRange)
    (hp' : p'.InRange) (hworse : AtLeastAsBad m m') :
    Behind (p.evaluate m state).1 (p'.evaluate m' state).1 ∧
      NoBetter ⟨p, m, state, (p.evaluate m state).1⟩ ⟨p', m', state, (p'.evaluate m' state).1⟩ := by
  have hsoft := isSoftOverload_of_worse h.config_eq hworse
  have hcritical := isCriticalOverload_of_worse h.config_eq hworse
  have hrecovery := isRecoverySample_of_worse h.config_eq hworse
  by_cases hstate : state.currentInflight < 0 ∨ state.currentQueueSize < 0
  · have hthrows (q : AdmissionPolicy ℚ) (n : MetricsSnapshot ℚ) :
        q.evaluate n state = (q, .error "request state counters must be non-negative") := by
      rw [AdmissionPolicy.evaluate, if_pos hstate]
    rw [hthrows, hthrows]
    refine ⟨h, h.recommended, ?_, fun r r' hr => ?_⟩
    · simp only [Evaluation.result, hthrows]
    · simp only [Evaluation.result, hthrows] at hr
      cases hr
  · have hreturns (q : AdmissionPolicy ℚ) (n : MetricsSnapshot ℚ) := by
      have heq := AdmissionPolicy.evaluate.eq_1 n state q
      rw [if_neg hstate] at heq
      exact heq
    have hbehind := (updateRecommendation_updates (p.isSoftOverload m) (p.isCriticalOverload m)
      (p.isRecoverySample m) p).behind (updateRecommendation_updates (p'.isSoftOverload m')
        (p'.isCriticalOverload m') (p'.isRecoverySample m') p') h hcounts hp hp' hsoft hcritical
          hrecovery
    rw [hreturns, hreturns]
    refine ⟨hbehind, hbehind.recommended, ?_, fun r r' hr hr' => ?_⟩
    · simp [Evaluation.result, hreturns]
    · simp only [Evaluation.result, hreturns] at hr hr'
      obtain rfl := Except.ok.inj hr
      obtain rfl := Except.ok.inj hr'
      exact ⟨hbehind.recommended,
        severity_le hbehind.config_eq hbehind.recommended hsoft hcritical⟩

theorem Behind.trace (h : Behind p p') (hcounts : CountsAccepted p.config) (hp : p.InRange)
    (hp' : p'.InRange)
    (hworse : List.Forall₂ (fun c c' => AtLeastAsBad c.1 c'.1 ∧ c'.2 = c.2) calls calls') :
    List.Forall₂ NoBetter (p.trace calls) (p'.trace calls') := by
  induction hworse generalizing p p' with
  | nil => exact .nil
  | @cons call call' calls calls' hcall _ ih =>
      obtain ⟨m, state⟩ := call
      obtain ⟨m', state'⟩ := call'
      obtain ⟨hbad, rfl⟩ := hcall
      have hcounts' : CountsAccepted p'.config := h.config_eq ▸ hcounts
      obtain ⟨hnext, hnobetter⟩ := h.evaluate hcounts hp hp' hbad
      have hrange : (p.evaluate m state').1.InRange ∧ (p.evaluate m state').1.config = p.config :=
        hp.evaluate (c := (m, state')) hcounts
      have hrange' := hp'.evaluate (c := (m', state')) hcounts'
      refine .cons hnobetter (ih hnext ?_ hrange.1 hrange'.1)
      rw [hrange.2]
      exact hcounts

/-- Of two runs from fresh policies of one configuration, with the same request states, the one with
the worse samples is treated no better at any step. -/
theorem noBetter_of_worse (hcreate : create config = .ok p)
    (hworse : List.Forall₂ (fun c c' => AtLeastAsBad c.1 c'.1 ∧ c'.2 = c.2) calls calls') :
    List.Forall₂ NoBetter (p.trace calls) (p.trace calls') := by
  obtain ⟨haccepted, heq⟩ := create_ok hcreate
  have hcounts : CountsAccepted p.config := by
    rw [heq]
    exact haccepted.toCountsAccepted
  exact Behind.trace ⟨rfl, Int.le_refl _, Int.le_refl _, fun _ _ => Int.le_refl _⟩ hcounts
    (InRange.create hcreate) (InRange.create hcreate) hworse

theorem noBetter_soft :
    List.Forall₂ NoBetter
      (trace ⟨testConfig, 8, 0, 0⟩ [(healthyMetrics, {}), (healthyMetrics, {})])
      (trace ⟨testConfig, 8, 0, 0⟩ [(softMetrics, {}), (healthyMetrics, {})]) :=
  have hcreate : create testConfig = .ok ⟨testConfig, 8, 0, 0⟩ := by decide +kernel
  noBetter_of_worse hcreate
    (.cons ⟨⟨by decide +kernel, by decide +kernel, by decide +kernel, by decide,
      by decide +kernel⟩, rfl⟩ (.cons ⟨⟨le_rfl, le_rfl, le_rfl, le_rfl, le_rfl⟩, rfl⟩ .nil))

end AdmissionPolicy

end VllmSloProxy
