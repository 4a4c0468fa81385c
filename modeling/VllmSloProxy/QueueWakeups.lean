import VllmSloProxy.QueueThreads

/-!
# Wake-ups of the queue under several worker threads

Whoever gives a slot back posts a promotion.  A session that was told to wait is not yet in the
queue, and a promotion that runs dry before it gets there is the one that it would have needed.
-/

namespace VllmSloProxy

open Transition Population

def Task.isEnqueue : Task → Bool
  | enqueue _ => true
  | _ => false

/-- Neither on the way to the queue nor about to call back. -/
def SessionPoint.aside : SessionPoint → Bool
  | told | posting _ => false
  | _ => true

namespace ThreadedSession

def isTold (s : ThreadedSession) : Bool := s.point = .told

/-- About to call back after it has released its slot. -/
def callsBack (s : ThreadedSession) : Bool :=
  match s.point with
  | .posting _ => true
  | _ => false

end ThreadedSession

namespace ThreadedProxy

open ThreadedSession

/-- Some session was told to wait and is still on its way to the queue. -/
def coming (w : ThreadedProxy) : Bool :=
  w.server.strand.any Task.isEnqueue || w.sessions.any isTold

/-- A promotion is posted or about to be posted. -/
def promotionDue (w : ThreadedProxy) : Bool :=
  w.server.strand.contains .promote || w.sessions.any callsBack

/-- No enqueue or promotion task runs, is posted or is about to be posted. -/
def settled (w : ThreadedProxy) : Bool :=
  w.point = .free && !w.coming && !w.promotionDue

/-- Nothing is scheduled, so a session that waits in the queue waits for a slot. -/
def NoLostWakeup (w : ThreadedProxy) : Prop :=
  w.settled = true →
    (∃ i ∈ w.server.queuedSessions, ∃ s, w.sessions[i]? = some s ∧ s.queued = true) →
    w.server.limiter.currentInflight = w.server.limiter.maxInflight

/-- The strand ends a promotion with an empty queue next to a free slot, while a session is on its
way to the queue and no further promotion is due. -/
def runsDryTooSoon (w : ThreadedProxy) (e : ThreadEvent) : Bool :=
  e = .strand && w.point = .looping && w.server.queuedSessions.isEmpty && w.coming &&
    decide (w.server.limiter.currentInflight < w.server.limiter.maxInflight) && !w.promotionDue

/-- What the wake-ups rest on. -/
structure Covered (w : ThreadedProxy) : Prop where
  running : w.Running
  rest : w.point.outside = true → w.server.queuedSessions ≠ [] ∨ w.coming = true →
    w.server.limiter.currentInflight < w.server.limiter.maxInflight → w.promotionDue = true
  refused : ∀ i, w.point = .refused i → w.server.limiter.queuedRequests ≠ 0 →
    w.server.limiter.currentInflight < w.server.limiter.maxInflight → w.promotionDue = true

variable {w w' : ThreadedProxy} {e : ThreadEvent} {i : Nat} {s s' : ThreadedSession}

theorem of_aside (h : s.point.aside = true) :
    s.isTold = false ∧ s.callsBack = false := by
  cases hpoint : s.point <;> simp_all [SessionPoint.aside, isTold, callsBack]

theorem settle_aside (s : ThreadedSession) : s.settle.point.aside = true := by
  unfold settle
  split <;> rfl

theorem coming_put (hs : w.sessions[i]? = some s) (htold : s'.isTold = s.isTold) :
    (w.put i s').coming = w.coming :=
  congrArg (w.server.strand.any Task.isEnqueue || ·) (any_set_of_eq hs htold)

theorem promotionDue_put (hs : w.sessions[i]? = some s) (hcalls : s'.callsBack = s.callsBack) :
    (w.put i s').promotionDue = w.promotionDue :=
  congrArg (w.server.strand.contains .promote || ·) (any_set_of_eq hs hcalls)

theorem coming_of_told (hs : w.sessions[i]? = some s) (htold : s.isTold = true) :
    w.coming = true := by
  have hany : w.sessions.any isTold = true :=
    List.any_eq_true.mpr ⟨s, List.mem_of_getElem? hs, htold⟩
  rw [coming, hany, Bool.or_true]

theorem promotionDue_iff :
    w.promotionDue = true ↔ .promote ∈ w.server.strand ∨ ∃ s ∈ w.sessions, s.callsBack = true := by
  rw [promotionDue, Bool.or_eq_true, List.contains_iff_mem, List.any_eq_true]

theorem promotionDue_post (task : Task) (h : w.promotionDue = true) :
    (w.post task).promotionDue = true :=
  promotionDue_iff.mpr ((promotionDue_iff.mp h).imp_left (List.mem_append_left _))

theorem promotionDue_callsBack (hs : w.sessions[i]? = some s) (hcalls : s'.callsBack = true) :
    (w.put i s').promotionDue = true := by
  obtain ⟨hlt, -⟩ := List.getElem?_eq_some_iff.mp hs
  exact promotionDue_iff.mpr (.inr ⟨s', List.mem_set hlt s', hcalls⟩)

namespace Covered

/-- With no free slot there is nothing to show. -/
theorem of_full (h : w.Running)
    (hfull : w.server.limiter.maxInflight ≤ w.server.limiter.currentInflight) : w.Covered :=
  ⟨h, fun _ _ hslot => absurd hslot (Nat.not_lt.mpr hfull),
    fun _ _ _ hslot => absurd hslot (Nat.not_lt.mpr hfull)⟩

theorem of_due (h : w.Running) (hdue : w.promotionDue = true) : w.Covered :=
  ⟨h, fun _ _ _ => hdue, fun _ _ _ _ => hdue⟩

/-- Inside the loop there is nothing to show before the limiter has refused. -/
theorem of_loop (h : w.Running) (hloop : w.point.outside = false)
    (hrefused : ∀ i, w.point ≠ .refused i) : w.Covered :=
  ⟨h, fun hout => absurd (hloop.symm.trans hout) Bool.false_ne_true,
    fun i hpoint => absurd hpoint (hrefused i)⟩

theorem put (h : w.Covered) (hs : w.sessions[i]? = some s) (hrun : (w.put i s').Running)
    (htold : s'.isTold = s.isTold) (hcalls : s'.callsBack = s.callsBack) :
    (w.put i s').Covered := by
  have hcoming : (w.put i s').coming = w.coming := coming_put hs htold
  have hdue : (w.put i s').promotionDue = w.promotionDue := promotionDue_put hs hcalls
  refine ⟨hrun, ?_, ?_⟩
  · rw [hcoming, hdue]
    exact h.rest
  · rw [hdue]
    exact h.refused

/-- A step of a session that is not on its way to the queue and does not call back. -/
theorem putAside (h : w.Covered) (hs : w.sessions[i]? = some s) (hrun : (w.put i s').Running)
    (hpoint : s.point.aside = true) (hpoint' : s'.point.aside = true) : (w.put i s').Covered := by
  obtain ⟨htold, hcalls⟩ := of_aside hpoint
  obtain ⟨htold', hcalls'⟩ := of_aside hpoint'
  exact h.put hs hrun (htold'.trans htold.symm) (hcalls'.trans hcalls.symm)

theorem setLimiter (h : w.Covered) {limiter : InflightLimiter Task}
    (hrun : (w.setLimiter limiter).Running)
    (hmax : limiter.maxInflight = w.server.limiter.maxInflight)
    (hcurrent : w.server.limiter.currentInflight ≤ limiter.currentInflight)
    (hqueued : limiter.queuedRequests ≤ w.server.limiter.queuedRequests) :
    (w.setLimiter limiter).Covered := by
  refine ⟨hrun, fun hout hany hslot => h.rest hout hany ?_,
    fun j hpoint hsome hslot => h.refused j hpoint ?_ ?_⟩
  all_goals
    simp only [ThreadedProxy.setLimiter, setServer] at *
    omega

theorem cancelFor (h : w.Covered) (hs : w.sessions[i]? = some s) {next : SessionPoint}
    (hrun : (w.cancelFor i s next).Running) (hpoint : s.point.aside = true)
    (hnext : next.aside = true) : (w.cancelFor i s next).Covered := by
  have hlimiter : (w.setLimiter w.server.limiter.cancelQueued.2).Covered := by
    rcases w.server.limiter.cancelQueued_cases with ⟨-, heq⟩ | ⟨-, heq⟩ <;> rw [heq]
    · exact h
    · exact h.setLimiter (h.running.setLimiter rfl rfl h.running.capped) rfl (Nat.le_refl _)
        (Nat.sub_le _ _)
  exact hlimiter.putAside hs hrun hpoint hnext

theorem goTo (h : w.Covered) {point : StrandPoint} (hrun : (w.goTo point).Running)
    (hout : w.point.outside = true) (hout' : point.outside = true) : (w.goTo point).Covered := by
  refine ⟨hrun, fun _ => h.rest hout, fun j hrefused => ?_⟩
  rw [show point = .refused j from hrefused] at hout'
  cases hout'

theorem accept (h : w.Covered) {server : ProxyServer}
    (hrun : ({ w with server, sessions := w.sessions ++ [{}] } : ThreadedProxy).Running)
    (hlimiter : server.limiter = w.server.limiter)
    (hqueue : server.queuedSessions = w.server.queuedSessions)
    (hstrand : server.strand = w.server.strand) :
    ({ w with server, sessions := w.sessions ++ [{}] } : ThreadedProxy).Covered := by
  have hcoming : ({ w with server, sessions := w.sessions ++ [{}] } : ThreadedProxy).coming =
      w.coming := by
    simp [coming, hstrand, isTold]
  have hdue : ({ w with server, sessions := w.sessions ++ [{}] } : ThreadedProxy).promotionDue =
      w.promotionDue := by
    simp [promotionDue, hstrand, callsBack]
  refine ⟨hrun, ?_, ?_⟩
  · rw [hcoming, hdue]
    simpa only [hlimiter, hqueue] using h.rest
  · rw [hdue]
    simpa only [hlimiter] using h.refused

/-- The session is on its way before and after its task is posted. -/
theorem posted (h : w.Covered) (hs : w.sessions[i]? = some s) (hpoint : s.point = .told)
    (hrun : ((w.post (.enqueue i)).put i { s with point := .idle }).Running) :
    ((w.post (.enqueue i)).put i { s with point := .idle }).Covered := by
  have hcoming : w.coming = true := coming_of_told hs (by rw [isTold, hpoint]; rfl)
  have hcalls : s.callsBack = false := by rw [callsBack, hpoint]
  have hdue (hdue : w.promotionDue = true) :
      ((w.post (.enqueue i)).put i { s with point := .idle }).promotionDue = true := by
    have hput : ((w.post (.enqueue i)).put i { s with point := .idle }).promotionDue =
        (w.post (.enqueue i)).promotionDue := promotionDue_put hs (by rw [hcalls]; rfl)
    exact hput.trans (promotionDue_post _ hdue)
  exact ⟨hrun, fun hout _ hslot => hdue (h.rest hout (.inr hcoming) hslot),
    fun j hrefused hsome hslot => hdue (h.refused j hrefused hsome hslot)⟩

theorem released (h : w.Covered) (hs : w.sessions[i]? = some s) (hpoint : s.point = .releasing)
    (hrun : (w.releaseFor i s).Running) : (w.releaseFor i s).Covered := by
  unfold releaseFor at hrun ⊢
  rcases w.release_cases s.permit with heq | heq <;> rw [heq] at hrun ⊢
  · exact h.putAside hs hrun (by rw [hpoint]; rfl) rfl
  · rw [h.running.callback] at hrun ⊢
    exact .of_due hrun (promotionDue_callsBack hs rfl)

theorem begin (h : w.Covered) {task : Task} {strand : List Task} (hpoint : w.point = .free)
    (hstrand : w.server.strand = task :: strand)
    (hrun : ((w.setStrand strand).begin task).Running) :
    ((w.setStrand strand).begin task).Covered := by
  cases task with
  | stop => exact absurd (by rw [hstrand]; exact List.mem_cons_self) h.running.unstopped
  | promote => exact .of_loop hrun rfl (by nofun)
  | enqueue i =>
      have hcoming : w.coming = true := by
        rw [coming, hstrand]
        rfl
      rw [begin_enqueue (w := w.setStrand strand) h.running.accepts] at hrun ⊢
      refine ⟨hrun, fun _ _ hslot => ?_, fun j hrefused => (nomatch hrefused)⟩
      have hdue : w.promotionDue = true := h.rest (by rw [hpoint]; rfl) (.inr hcoming) hslot
      refine promotionDue_iff.mpr ((promotionDue_iff.mp hdue).imp_left fun hmem => ?_)
      rw [hstrand] at hmem
      exact (List.mem_cons.mp hmem).resolve_left (by nofun)

theorem move (h : w.Covered) (hmove : Move w e w') (hstop : e ≠ .stop)
    (hok : w.runsDryTooSoon e = false) : w'.Covered := by
  have hrun : w'.Running := h.running.move hmove hstop
  cases hmove with
  | stop => exact absurd rfl hstop
  | accept => exact h.accept hrun rfl rfl rfl
  | dismiss hlock hpoint | timerChecked hlock hpoint =>
      exact h.putAside (lock_eq_some.mp hlock).1 hrun (by rw [hpoint]; rfl) rfl
  | timerIgnored hlock hpoint =>
      exact h.put (lock_eq_some.mp hlock).1 hrun rfl rfl
  | turnedAway hlock hpoint | endRequest hlock hpoint =>
      exact h.putAside (lock_eq_some.mp hlock).1 hrun (by rw [hpoint]; rfl) (settle_aside _)
  | destroySession hlock hpoint =>
      refine h.putAside (lock_eq_some.mp hlock).1 hrun (by rw [hpoint]; rfl) ?_
      simp only
      split <;> rfl
  | admitted hlock hpoint hslot =>
      refine putAside ?_ (lock_eq_some.mp hlock).1 hrun (by rw [hpoint]; rfl) rfl
      refine h.setLimiter ?_ rfl (Nat.le_succ _) (Nat.le_refl _)
      exact h.running.setLimiter rfl rfl hslot
  -- the limiter answers Queue only when it is full
  | told _ _ hfull => exact .of_full hrun hfull
  | posted hs hpoint => exact h.posted hs hpoint hrun
  | cancelled hs hpoint | destroyed hs hpoint => exact h.cancelFor hs hrun (by rw [hpoint]; rfl) rfl
  | began hs hpoint | timerCleared hs hpoint =>
      exact h.putAside hs hrun (by rw [hpoint]; rfl) rfl
  | timedOut hs hpoint => exact h.putAside hs hrun (by rw [hpoint]; rfl) (settle_aside _)
  | released hs hpoint => exact h.released hs hpoint hrun
  | calledBack hs hpoint =>
      rw [h.running.calls _ (List.mem_of_getElem? hs) _ hpoint] at hrun ⊢
      exact .of_due hrun (promotionDue_iff.mpr
        (.inl (List.mem_append_right _ (List.mem_singleton.mpr rfl))))
  | begin hpoint hstrand => exact h.begin hpoint hstrand hrun
  | stored hs hpoint | armed hs hpoint =>
      have hcalls := h.running.calls _ (List.mem_of_getElem? hs)
      refine goTo (h.put hs (h.running.put ?_) ?_ ?_) hrun ?_ rfl
      · exact hcalls
      · rfl
      · rfl
      show w.point.outside = true
      rw [hpoint]
      rfl
  -- the end of a promotion is the one step that needs the condition
  | ranDry hpoint hqueue =>
      refine ⟨hrun, fun _ hany hslot => ?_, fun _ hrefused => (nomatch hrefused)⟩
      have hcoming : w.coming = true := hany.resolve_left fun hne => hne hqueue
      have hfree : decide (w.server.limiter.currentInflight < w.server.limiter.maxInflight) =
        true := decide_eq_true hslot
      have hdue : w.promotionDue = true := by
        simpa [runsDryTooSoon, hpoint, hqueue, hcoming, hfree] using hok
      exact hdue
  -- a session goes back into the queue only while the promotion that it will need is due
  | putBack hpoint hsome =>
      exact ⟨hrun, fun _ _ => h.refused _ hpoint hsome, fun _ hrefused => (nomatch hrefused)⟩
  | refused hpoint hrefused =>
      refine ⟨hrun, fun hout => (nomatch hout), fun _ _ hsome hslot => ?_⟩
      rcases hrefused with hclosed | hzero | hfull
      · exact absurd (h.running.opened.symm.trans hclosed) Bool.false_ne_true
      · exact absurd hzero hsome
      · exact absurd hslot (Nat.not_lt.mpr hfull)
  | skipped hpoint =>
      refine .of_loop hrun ?_ fun j hrefused => (nomatch hpoint.symm.trans hrefused)
      show w.point.outside = false
      rw [hpoint]
      rfl
  | @gaveBack i permit =>
      cases hcall : (w.release permit).2 with
      | none => exact .of_loop (by rwa [hcall] at hrun) rfl (by nofun)
      | some callback => exact .of_loop (by rwa [hcall] at hrun) rfl (by nofun)
  | popped | stillQueued | notQueued | granted | dropped | readQueued | willStart | tooLate
  | cleared | starting | started | posting => exact .of_loop hrun rfl (by nofun)

theorem init {config : ProxyConfig} {server : ProxyServer}
    (hcreate : ProxyServer.create config = .ok server) : (ThreadedProxy.init server).Covered := by
  have hstarted := World.create_started hcreate
  refine ⟨init_running hcreate, fun _ hany => ?_, fun _ hrefused => (nomatch hrefused)⟩
  rcases hany with hne | hcoming
  · exact absurd hstarted.queuedSessions hne
  · simp [coming, ThreadedProxy.init, hstarted.strand] at hcoming

theorem noLostWakeup (h : w.Covered) : w.NoLostWakeup := by
  rintro hsettled ⟨i, hmem, -⟩
  obtain ⟨⟨hpoint, -⟩, hdue⟩ : (w.point = .free ∧ w.coming = false) ∧ w.promotionDue = false := by
    simpa [settled] using hsettled
  by_contra hne
  have hslot : w.server.limiter.currentInflight < w.server.limiter.maxInflight :=
    Nat.lt_of_le_of_ne h.running.capped hne
  have hnow := h.rest (by rw [hpoint]; rfl) (.inl (List.ne_nil_of_mem hmem)) hslot
  exact absurd (hdue.symm.trans hnow) Bool.false_ne_true

end Covered

/-- Until `stop` is called no session is left to wait next to a free slot, when no promotion runs
dry next to a free slot while a session is on its way to the queue. -/
theorem always_noLostWakeup {config : ProxyConfig} {server : ProxyServer}
    {events : List ThreadEvent} (hcreate : ProxyServer.create config = .ok server)
    (hstop : .stop ∉ events)
    (hmeets : Meets step (fun w e => w.runsDryTooSoon e = false) (init server) events) :
    Always step NoLostWakeup (init server) events := by
  have hrunning : Meets step (fun _ e => e ≠ .stop) (init server) events :=
    meets_of_forall fun _ _ hmem heq => hstop (heq ▸ hmem)
  refine (always_of_meets (meets_and hrunning hmeets) (Covered.init hcreate) ?_).mono
    fun _ => Covered.noLostWakeup
  exact fun _ _ _ h hok hstep => h.move (step_move hstep) hok.1 hok.2

/-- The second request waits in the queue before the first one ends, and gets its slot. -/
def queuedInTime : List ThreadEvent :=
  List.flatten [
    [.accept, .accept, .request 0, .session 0, .request 1, .session 1, .strand, .strand, .strand,
      .endRequest 0, .session 0, .session 0],
    List.replicate 10 .strand]

theorem always_noLostWakeup_queuedInTime :
    Always step NoLostWakeup (init World.oneSlotServer) queuedInTime :=
  always_noLostWakeup World.oneSlotServer_create (by decide) (by decide)

/-- The second request is told to wait; the first one ends and its promotion finds nobody, before
the task that puts the second one in the queue. -/
def promotedTooSoon : List ThreadEvent :=
  [.accept, .accept, .request 0, .session 0, .request 1, .endRequest 0, .session 0, .session 0,
    .strand, .strand, .session 1, .strand, .strand, .strand]

/-- Then it waits next to a free slot with nothing scheduled. -/
theorem wakeupLost : .stop ∉ promotedTooSoon ∧
    ∃ w, run step (init World.oneSlotServer) promotedTooSoon = some w ∧ ¬ w.NoLostWakeup := by
  refine ⟨by decide, _, rfl, fun hwoken => ?_⟩
  have hfull := hwoken rfl ⟨1, List.mem_singleton.mpr rfl, _, rfl, rfl⟩
  exact absurd hfull (by decide)

end ThreadedProxy

end VllmSloProxy
