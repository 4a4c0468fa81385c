import VllmSloProxy.Lib.Recent
import VllmSloProxy.AdmissionArithmetic

/-!
# When the recommendation rises

The policy lowers its recommendation at once and raises it slowly: only after a cooldown without any
overload, and then only after as many recovery samples in a row.
-/

namespace VllmSloProxy

open Recent

variable {F : Type} [LT F] [LE F] [DecidableLT F] [DecidableLE F] [Mul F] [IntCast F]
  [OfScientific F]

/-- One call of `evaluate`, with the policy before and after it. -/
structure Evaluation (F : Type) where
  before : AdmissionPolicy F
  metrics : MetricsSnapshot F
  state : AdmissionRequestState
  after : AdmissionPolicy F
  deriving DecidableEq

namespace Evaluation

def overloaded (e : Evaluation F) : Bool :=
  e.before.isSoftOverload e.metrics || e.before.isCriticalOverload e.metrics

def recovers (e : Evaluation F) : Bool :=
  e.before.isRecoverySample e.metrics && !e.overloaded

def Rises (e : Evaluation F) : Prop :=
  e.before.recommendedMaxInflight < e.after.recommendedMaxInflight

end Evaluation

namespace AdmissionPolicy

/-- The policy after some calls. -/
def after (p : AdmissionPolicy F) (calls : List (MetricsSnapshot F × AdmissionRequestState)) :
    AdmissionPolicy F :=
  calls.foldl (fun p call => (p.evaluate call.1 call.2).1) p

/-- The calls with the policy before and after each. -/
def trace (p : AdmissionPolicy F) :
    List (MetricsSnapshot F × AdmissionRequestState) → List (Evaluation F)
  | [] => []
  | call :: calls =>
      let p' := (p.evaluate call.1 call.2).1
      ⟨p, call.1, call.2, p'⟩ :: p'.trace calls

variable {config : AdmissionPolicyConfig F} {p q q' : AdmissionPolicy F}
  {calls : List (MetricsSnapshot F × AdmissionRequestState)}
  {call : MetricsSnapshot F × AdmissionRequestState} {past earlier : List (Evaluation F)}

theorem after_snoc : p.after (calls ++ [call]) = ((p.after calls).evaluate call.1 call.2).1 := by
  unfold after
  rw [List.foldl_append]
  rfl

theorem trace_snoc : p.trace (calls ++ [call]) =
    p.trace calls ++ [⟨p.after calls, call.1, call.2, p.after (calls ++ [call])⟩] := by
  induction calls generalizing p with
  | nil => rfl
  | cons first calls ih =>
      rw [List.cons_append, trace, trace, ih]
      rfl

/-- What the counters of the policy `q` say about the calls before. -/
structure Remembers (config : AdmissionPolicyConfig F) (past : List (Evaluation F))
    (q : AdmissionPolicy F) : Prop where
  config_eq : q.config = config
  inRange : q.InRange
  counted : Recently q.consecutiveRecoverySamples.toNat
    (fun e => e.recovers = true ∧ ¬ e.Rises) past
  calm : q.recommendedMaxInflight < q.config.maxInflight →
    Recently (q.config.cooldownSamples - q.cooldownRemaining + q.consecutiveRecoverySamples).toNat
      (fun e => e.overloaded = false) past

/-- A call that raises the recommendation. -/
structure RisesAfterCalm (config : AdmissionPolicyConfig F) (earlier : List (Evaluation F))
    (last : Evaluation F) : Prop where
  byOne : last.after.recommendedMaxInflight = last.before.recommendedMaxInflight + 1
  recovered : Recently config.cooldownSamples.toNat (fun e => e.recovers = true) (earlier ++ [last])
  calm : Recently (2 * config.cooldownSamples.toNat) (fun e => e.overloaded = false)
    (earlier ++ [last])
  spaced : Recently (config.cooldownSamples.toNat - 1) (fun e => ¬ e.Rises) earlier

theorem Updates.recently_recovered (h : Updates (q.isSoftOverload call.1)
      (q.isCriticalOverload call.1) (q.isRecoverySample call.1) q q') (hrange : q.InRange)
    (hcounted : Recently q.consecutiveRecoverySamples.toNat
      (fun e => e.recovers = true ∧ ¬ e.Rises) past) :
    Recently q'.consecutiveRecoverySamples.toNat (fun e => e.recovers = true ∧ ¬ e.Rises)
      (past ++ [⟨q, call.1, call.2, q'⟩]) := by
  have hk : 0 ≤ q.consecutiveRecoverySamples := hrange.consecutive.1
  cases h with
  | halved => exact recently_zero
  | lowered => exact recently_zero
  | cooled hquiet hcooling =>
      -- no recovery sample is counted while the policy cools down
      have hzero : q.consecutiveRecoverySamples = 0 := hrange.cooling hcooling
      show Recently q.consecutiveRecoverySamples.toNat _ _
      rw [hzero]
      exact recently_zero
  | broken => exact recently_zero
  | counted hquiet hcool hrecovery hmore =>
      have hsum : (q.consecutiveRecoverySamples + 1).toNat =
          q.consecutiveRecoverySamples.toNat + 1 := by omega
      show Recently (q.consecutiveRecoverySamples + 1).toNat _ _
      rw [hsum]
      refine hcounted.snoc ⟨?_, Int.lt_irrefl q.recommendedMaxInflight⟩
      simp [Evaluation.recovers, Evaluation.overloaded, hrecovery, hquiet]
  | raised => exact recently_zero

theorem Updates.recently_calm (h : Updates (q.isSoftOverload call.1) (q.isCriticalOverload call.1)
      (q.isRecoverySample call.1) q q') (hrange : q.InRange)
    (hcalm : q.recommendedMaxInflight < q.config.maxInflight →
      Recently (q.config.cooldownSamples - q.cooldownRemaining +
        q.consecutiveRecoverySamples).toNat (fun e => e.overloaded = false) past)
    (hbelow : q'.recommendedMaxInflight < q'.config.maxInflight) :
    Recently (q'.config.cooldownSamples - q'.cooldownRemaining +
      q'.consecutiveRecoverySamples).toNat (fun e => e.overloaded = false)
        (past ++ [⟨q, call.1, call.2, q'⟩]) := by
  obtain ⟨-, ⟨hd, hd'⟩, ⟨hk, hk'⟩, hcooling⟩ := hrange
  -- a call without overload lengthens the calm stretch by itself
  have hquietly {n : Nat} {after : AdmissionPolicy F}
      (hquiet : (q.isSoftOverload call.1 || q.isCriticalOverload call.1) = false)
      (hle : n ≤ (q.config.cooldownSamples - q.cooldownRemaining +
        q.consecutiveRecoverySamples).toNat + 1)
      (hbefore : q.recommendedMaxInflight < q.config.maxInflight) :
      Recently n (fun e => e.overloaded = false) (past ++ [⟨q, call.1, call.2, after⟩]) :=
    ((hcalm hbefore).snoc (a := (⟨q, call.1, call.2, after⟩ : Evaluation F)) hquiet).weaken hle
  have hzero {after : AdmissionPolicy F} (hcooldown : after.config.cooldownSamples =
      after.cooldownRemaining) (hnone : after.consecutiveRecoverySamples = 0) :
      Recently (after.config.cooldownSamples - after.cooldownRemaining +
        after.consecutiveRecoverySamples).toNat (fun e => e.overloaded = false)
        (past ++ [⟨q, call.1, call.2, after⟩]) := by
    rw [hcooldown, hnone, Int.sub_self]
    exact recently_zero
  cases h with
  | halved => exact hzero rfl rfl
  | lowered => exact hzero rfl rfl
  | cooled hquiet hcool => exact hquietly hquiet (by dsimp only; omega) hbelow
  | broken hquiet hcool => exact hquietly hquiet (by dsimp only; omega) hbelow
  | counted hquiet hcool hrecovery hmore => exact hquietly hquiet (by dsimp only; omega) hbelow
  | raised hquiet hcool hrecovery henough =>
      refine hquietly hquiet (by dsimp only; omega) ?_
      -- a rise that stays below the cap started below it
      dsimp only at hbelow
      omega

/-- One call that does not throw. -/
theorem Remembers.evaluate (h : Remembers config past q) (haccepted : Accepted config)
    (hvalid : ¬ (call.2.currentInflight < 0 ∨ call.2.currentQueueSize < 0)) :
    Remembers config (past ++ [⟨q, call.1, call.2, (q.evaluate call.1 call.2).1⟩])
      (q.evaluate call.1 call.2).1 := by
  rcases evaluate_cases call.1 call.2 q with ⟨hthrows, -⟩ | ⟨-, hupdates⟩
  · exact absurd hthrows hvalid
  · obtain ⟨rfl, hrange, hcounted, hcalm⟩ := h
    exact ⟨hupdates.config_eq, hupdates.inRange haccepted.toCountsAccepted hrange,
      hupdates.recently_recovered hrange hcounted, hupdates.recently_calm hrange hcalm⟩

theorem Remembers.after (hcreate : create config = .ok p)
    (hvalid : ∀ call ∈ calls, ¬ (call.2.currentInflight < 0 ∨ call.2.currentQueueSize < 0)) :
    Remembers config (p.trace calls) (p.after calls) := by
  induction calls using List.reverseRecOn with
  | nil =>
      obtain ⟨-, rfl⟩ := create_ok hcreate
      refine ⟨rfl, InRange.create hcreate, recently_zero, fun hbelow => ?_⟩
      exact absurd hbelow (Int.lt_irrefl config.maxInflight)
  | append_singleton calls call ih =>
      have hbefore := ih fun c hc => hvalid c (List.mem_append_left _ hc)
      rw [trace_snoc, after_snoc]
      exact hbefore.evaluate (create_ok hcreate).1
        (hvalid call (List.mem_append_right _ (List.mem_singleton.mpr rfl)))

/-- A call that raises the recommendation was the last of enough recovery samples. -/
theorem Remembers.rises (h : Remembers config past q) (haccepted : Accepted config)
    (hrises : (⟨q, call.1, call.2, (q.evaluate call.1 call.2).1⟩ : Evaluation F).Rises) :
    RisesAfterCalm config past ⟨q, call.1, call.2, (q.evaluate call.1 call.2).1⟩ := by
  obtain ⟨rfl, hrange, hcounted, hcalm⟩ := h
  unfold Evaluation.Rises at hrises
  have hmin := haccepted.minInflight
  have hlow := hrange.recommended.1
  have hk := hrange.consecutive
  rcases evaluate_cases call.1 call.2 q with ⟨-, heq⟩ | ⟨-, hupdates⟩
  · rw [heq] at hrises
    exact absurd hrises (Int.lt_irrefl _)
  · generalize (q.evaluate call.1 call.2).1 = q' at *
    cases hupdates with
    | halved =>
        have hhalf := half_le (r := q.recommendedMaxInflight) (by omega)
        dsimp only at hrises
        omega
    | lowered =>
        dsimp only at hrises
        omega
    | cooled => exact absurd hrises (Int.lt_irrefl _)
    | broken => exact absurd hrises (Int.lt_irrefl _)
    | counted => exact absurd hrises (Int.lt_irrefl _)
    | raised hquiet hcool hrecovery henough =>
        dsimp only at hrises
        have hbelow : q.recommendedMaxInflight < q.config.maxInflight := by omega
        have hd := hrange.cooldown.1
        refine ⟨by dsimp only; omega, ?_, ?_, ?_⟩
        · -- the samples that were counted, and this one
          refine ((hcounted.mono fun e he => he.1).snoc ?_).weaken (by omega)
          simp [Evaluation.recovers, Evaluation.overloaded, hrecovery, hquiet]
        · -- the cooldown, the samples that were counted, and this one
          have hnext := (hcalm hbelow).snoc (a := (⟨q, call.1, call.2, { q with
            recommendedMaxInflight := min q.config.maxInflight (q.recommendedMaxInflight + 1)
            consecutiveRecoverySamples := 0 }⟩ : Evaluation F)) hquiet
          exact hnext.weaken (by omega)
        · -- none of the counted samples was itself a rise
          exact (hcounted.mono fun e he => he.2).weaken (by omega)

/-- A recommendation rises by one, after `cooldown_samples` recovery samples in a row, twice as many
calls without overload and as many without another rise. -/
theorem risesAfterCalm (hcreate : create config = .ok p)
    (hvalid : ∀ call ∈ calls, ¬ (call.2.currentInflight < 0 ∨ call.2.currentQueueSize < 0))
    {last : Evaluation F} (htrace : p.trace calls = earlier ++ [last]) (hrises : last.Rises) :
    RisesAfterCalm config earlier last := by
  induction calls using List.reverseRecOn with
  | nil => simp [trace] at htrace
  | append_singleton calls call _ =>
      rw [trace_snoc, after_snoc] at htrace
      obtain ⟨rfl, hlast⟩ := List.append_inj' htrace rfl
      obtain rfl := (List.cons.inj hlast).1
      have hbefore := Remembers.after hcreate fun c hc => hvalid c (List.mem_append_left _ hc)
      exact hbefore.rises (create_ok hcreate).1 hrises

theorem risesAfterCalm_recovering :
    ∃ earlier last, trace ⟨testConfig, 8, 0, 0⟩ softThenHealthy = earlier ++ [last] ∧
      last.before.recommendedMaxInflight = 7 ∧ RisesAfterCalm testConfig earlier last :=
  have hcreate : create testConfig = .ok ⟨testConfig, 8, 0, 0⟩ := by decide +kernel
  have htrace : trace ⟨testConfig, 8, 0, 0⟩ softThenHealthy =
      trace ⟨testConfig, 8, 0, 0⟩ softThenHealthy.dropLast ++
        [⟨⟨testConfig, 7, 0, 1⟩, healthyMetrics, {}, ⟨testConfig, 8, 0, 0⟩⟩] := by decide +kernel
  ⟨_, _, htrace, rfl,
    risesAfterCalm hcreate (by decide +kernel) htrace (by unfold Evaluation.Rises; decide)⟩

end AdmissionPolicy

end VllmSloProxy
