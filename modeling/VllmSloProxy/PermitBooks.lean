import VllmSloProxy.Lib.Population
import VllmSloProxy.WorldSteps

/-!
# The books of the permits

Every permit that a session holds is a slot that the limiter counts as taken.  A handler gives back
no more than its session held and takes a slot only when one is free.
-/

namespace VllmSloProxy

open Context Transition Relation Population ProxySession

namespace World

/-- Every permit that a session holds is a slot taken, and no more slots are taken than exist. -/
structure PermitBooks (w : World) : Prop where
  held : w.sessions.countP permitValid ≤ w.server.limiter.currentInflight
  capped : w.server.limiter.currentInflight ≤ w.server.limiter.maxInflight

theorem PermitBooks.put {w : World} {c : Context} {s : ProxySession} (h : w.PermitBooks)
    (hget : w.sessions[c.id]? = some s)
    (hheld : share permitValid c.self + w.server.limiter.currentInflight ≤
      share permitValid s + c.server.limiter.currentInflight)
    (hcapped : c.server.limiter.currentInflight ≤ c.server.limiter.maxInflight) :
    (w.put c).PermitBooks := by
  refine ⟨?_, hcapped⟩
  have hset : (w.sessions.set c.id c.self).countP permitValid + share permitValid s =
      w.sessions.countP permitValid + share permitValid c.self := countP_set hget
  have hle : share permitValid s ≤ w.sessions.countP permitValid := share_le_countP hget
  have := h.held
  show (w.sessions.set c.id c.self).countP permitValid ≤ c.server.limiter.currentInflight
  omega

end World

namespace Context

variable {c c' c₁ : Context} {op next : Op} {r : Outcome}

theorem Prepares.permitValid (h : Prepares c c₁) : c₁.self.permitValid = c.self.permitValid := by
  unfold ProxySession.permitValid
  rw [h.permit]

/-- A session gives up no more slots than it held, and holds no more than it takes. -/
structure Balanced (c c' : Context) : Prop where
  held : share permitValid c'.self + c.server.limiter.currentInflight ≤
    share permitValid c.self + c'.server.limiter.currentInflight
  capped : c.server.limiter.currentInflight ≤ c.server.limiter.maxInflight →
    c'.server.limiter.currentInflight ≤ c'.server.limiter.maxInflight

theorem Balanced.of_eq (hpermit : c'.self.permitValid = c.self.permitValid)
    (hcurrent : c'.server.limiter.currentInflight = c.server.limiter.currentInflight)
    (hmax : c'.server.limiter.maxInflight = c.server.limiter.maxInflight) : Balanced c c' := by
  refine ⟨?_, fun h => by rw [hcurrent, hmax]; exact h⟩
  unfold share
  rw [hpermit, hcurrent]

theorem Balanced.trans (h : Balanced c c₁) (h' : Balanced c₁ c') : Balanced c c' := by
  refine ⟨?_, fun hle => h'.capped (h.capped hle)⟩
  have := h.held
  have := h'.held
  omega

theorem settle_balanced (ending : Ending) : Balanced c (c.settle ending) := by
  have hself : (c.settle ending).self.permitValid = false := by
    simp [settle_eq, ProxySession.permitValid]
  have hserver : (c.settle ending).server =
      c.self.permit.elim (c.recordedServer ending) (c.recordedServer ending).releasePermit := by
    rw [settle_eq]
  have hmax : (c.settle ending).server.limiter.maxInflight = c.server.limiter.maxInflight :=
    (settle_frame ending).server.maxInflight
  -- the slot comes back only if the permit owned one
  have hcurrent : c.server.limiter.currentInflight ≤
      share permitValid c.self + (c.settle ending).server.limiter.currentInflight ∧
      (c.settle ending).server.limiter.currentInflight ≤ c.server.limiter.currentInflight := by
    rw [hserver]
    cases hpermit : c.self.permit with
    | none =>
        rw [Option.elim_none, recordedServer_limiter]
        omega
    | some permit =>
        rw [Option.elim_some]
        rcases ProxyServer.releasePermit_cases permit (c.recordedServer ending) with
          ⟨h, -⟩ | ⟨howns, -, h⟩
        · rw [h, recordedServer_limiter]
          omega
        · have hvalid : c.self.permitValid = true := by
            rw [ProxySession.permitValid, hpermit]
            exact howns
          rw [h]
          simp only [recordedServer_limiter, InflightLimiter.giveBack_currentInflight,
            share_true hvalid]
          omega
  refine ⟨?_, fun hle => ?_⟩
  · rw [share_false hself]
    omega
  · rw [hmax]
    omega

theorem Ends.balanced {ending : Ending} (h : Ends ending c c') : Balanced c c' := by
  cases h with
  | already => exact .of_eq rfl rfl rfl
  | quietly => exact (settle_balanced ending).trans (.of_eq rfl rfl rfl)
  | withError => exact (settle_balanced ending).trans (.of_eq rfl rfl rfl)

theorem Prepares.balanced (h : Prepares c c₁) : Balanced c c₁ :=
  .of_eq h.permitValid (by rw [h.limiter]) (by rw [h.limiter])

theorem cancelQueued_currentInflight (l : InflightLimiter Task) :
    l.cancelQueued.2.currentInflight = l.currentInflight := by
  rcases l.cancelQueued_cases with ⟨-, h⟩ | ⟨-, h⟩ <;> rw [h]

theorem timeOut_balanced : Balanced c c.timeOut := by
  refine .of_eq ?_ ?_ timeOut_frame.server.maxInflight
  · rw [timeOut_self]
    rfl
  · unfold timeOut
    split
    · exact cancelQueued_currentInflight _
    · rfl

/-- A slot that was free is taken for a session that held none. -/
theorem startProxyRequest_balanced {limiter : InflightLimiter Task}
    (halive : c.server.alive = true) (hpermit : c.self.permit = none)
    (hcurrent : c.server.limiter.currentInflight = limiter.currentInflight + 1)
    (hmax : c.server.limiter.maxInflight = limiter.maxInflight)
    (hslot : limiter.currentInflight < limiter.maxInflight) :
    Balanced (c.setLimiter limiter) (c.startProxyRequest (Permit.owning ())) := by
  have hserver := startProxyRequest_server (Permit.owning ()) halive hpermit
  have hself : (c.startProxyRequest (Permit.owning ())).self.permitValid = true := by
    rw [startProxyRequest_eq _ halive hpermit]
    rfl
  refine ⟨?_, fun _ => ?_⟩
  · rw [share_true hself, hserver, hcurrent]
    show 1 + limiter.currentInflight ≤ _
    omega
  · rw [hserver, hcurrent, hmax]
    exact hslot

theorem Requested.balanced (h : Requested c c') (hpermit : c.self.permit = none) :
    Balanced c c' := by
  have hcounted : Balanced c c.counted := .of_eq rfl rfl rfl
  cases h with
  | unread => exact .of_eq rfl rfl rfl
  | refused _ hends => exact hends.balanced
  | health => exact .of_eq rfl rfl rfl
  | admitted halive _ hslot =>
      exact hcounted.trans (startProxyRequest_balanced (c := c.counted.setLimiter _) halive hpermit
        rfl rfl hslot)
  | queued => exact .of_eq rfl rfl rfl
  | turnedAway _ _ hends => exact hcounted.trans hends.balanced

theorem Handled.balanced (h : Handled op r c c')
    (hread : op = .readRequest → c.self.permit = none) :
    Balanced c c' := by
  cases h with
  | timer => exact .of_eq rfl rfl rfl
  | timedOut _ _ _ _ _ hends => exact timeOut_balanced.trans hends.balanced
  | expired _ _ _ _ hends => exact hends.balanced
  | read _ hop hrequested =>
      have hread' : Balanced c (c.setSelf { c.self with clientRequest := r.request }) :=
        .of_eq rfl rfl rfl
      exact hread'.trans (hrequested.balanced (hread hop))
  | wroteText => exact .of_eq rfl rfl rfl
  | wroteError => exact .of_eq rfl rfl rfl
  | ended _ _ _ _ _ hobserves hends => exact hobserves.prepares.balanced.trans hends.balanced
  | relayed _ _ hrelay => exact hrelay.prepares.balanced.trans (.of_eq rfl rfl rfl)

end Context

end VllmSloProxy
