import VllmSloProxy.Lib.Simulation
import VllmSloProxy.QueueThreads

/-!
# Schedules of the threads

What a handler does call by call, when no other handler comes between, and the task of a promotion
likewise.  Each lemma takes the threads over one handler, or over one round of the loop.
-/

namespace VllmSloProxy

open Transition

namespace ThreadedProxy

/-- The threads get there without a call of `stop`. -/
abbrev Leads : ThreadedProxy → ThreadedProxy → Prop := Reaches step (· ≠ .stop)

variable {t t' : ThreadedProxy} {i : Nat} {u u₀ v v' : ThreadedSession} {p q : StrandPoint}
  {queue : List Nat} {limiter : InflightLimiter Task}

theorem put_put : (t.put i u).put i v = t.put i v := by
  unfold put
  rw [List.set_set]

theorem put_get (hget : t.sessions[i]? = some v) : (t.put i u).sessions[i]? = some u :=
  List.getElem?_set_self (List.getElem?_eq_some_iff.mp hget).1

theorem session_leads (hget : t.sessions[i]? = some u)
    (hstep : t.sessionStep i u = some t') : t.Leads t' := by
  refine .single (e := .session i) (fun heq => nomatch heq) ?_
  show (t.sessions[i]?.bind fun s => t.sessionStep i s) = _
  rw [hget]
  exact hstep

theorem strand_leads (hstep : t.strandStep = some t') : t.Leads t' :=
  .single (e := .strand) (fun heq => nomatch heq) hstep

/-- A permit is released, and the callback runs. -/
theorem released_leads (hget : t.sessions[i]? = some u) (hpoint : u.point = .releasing)
    (halive : t.server.alive = true) :
    t.Leads ((t.setServer (t.server.releasePermit u.permit)).put i
      { u with point := .idle, permit := { u.permit with ownsSlot := false } }) := by
  have hfirst : t.Leads (t.releaseFor i u) := session_leads hget (by rw [sessionStep, hpoint])
  refine hfirst.trans ?_
  unfold releaseFor release ProxyServer.releasePermit
  rw [if_pos halive]
  cases howns : u.permit.ownsSlot with
  | false =>
      rw [Permit.release_idle howns]
      exact .refl _
  | true =>
      rw [Permit.release_owning howns]
      cases hcallback : t.server.limiter.giveBack.2 with
      | none => exact .refl _
      | some callback =>
          refine session_leads (put_get hget) ?_
          exact congrArg some
            (put_put (t := (t.setLimiter t.server.limiter.giveBack.1).post callback))

theorem lock_of_get (hget : t.sessions[i]? = some u) (hdestroyed : u.destroyed = false) :
    t.lock i = some u := by
  unfold lock
  rw [hget, Option.filter_some, hdestroyed]
  rfl

theorem dismiss_leads (hlock : t.lock i = some u) (hpoint : u.point = .reading) :
    t.Leads (t.put i { u with point := .idle, finished := true }) := by
  refine .single (e := .dismiss i) (fun heq => nomatch heq) ?_
  simp [step, hlock, hpoint]

theorem request_leads (hlock : t.lock i = some u) (hpoint : u.point = .reading) :
    t.Leads (t.handleRequest i u) := by
  refine .single (e := .request i) (fun heq => nomatch heq) ?_
  simp [step, hlock, hpoint]

theorem endRequest_leads (hlock : t.lock i = some u) (hpoint : u.point = .idle)
    (hstarted : u.started = true) : t.Leads (t.put i u.settle) := by
  refine .single (e := .endRequest i) (fun heq => nomatch heq) ?_
  simp [step, hlock, hpoint, hstarted]

theorem queueTimer_leads {b : Bool} (ec : Bool) (hlock : t.lock i = some u)
    (hpoint : u.point = .idle)
    (htimer : u.queueTimer = some b) (hec : ec = true → b = true) :
    t.Leads (t.put i (u.onQueueTimer ec)) := by
  refine .single (e := .queueTimer i ec) (fun heq => nomatch heq) ?_
  cases ec with
  | false => simp [step, hlock, htimer, hpoint]
  | true => simp [step, hlock, htimer, hpoint, hec]

/-- The handler of the queue timer takes its session out of the queue and settles it. -/
theorem timeOut_leads {b : Bool} (hlock : t.lock i = some u) (hget : t.sessions[i]? = some u)
    (hpoint : u.point = .idle) (htimer : u.queueTimer = some b) (hqueued : u.queued = true) :
    ∃ taken, t.Leads ((t.setLimiter t.server.limiter.cancelQueued.2).put i
      { ({ u with queueTimer := none, queued := false, taken } : ThreadedSession).settle with
        timedOut := true }) := by
  have hchecked : u.onQueueTimer false = { u with queueTimer := none, point := .timerChecked } := by
    simp [ThreadedSession.onQueueTimer, hqueued]
  have hfirst := queueTimer_leads false hlock hpoint htimer (fun heq => nomatch heq)
  rw [hchecked] at hfirst
  let taken := u.taken + t.server.limiter.cancelQueued.1.toNat
  let t₁ := t.setLimiter t.server.limiter.cancelQueued.2
  have hput (v v' : ThreadedSession) : (t₁.put i v).put i v' = t₁.put i v' := put_put
  have hcancelled : (t.put i { u with queueTimer := none, point := .timerChecked }).Leads
      (t₁.put i { u with queueTimer := none, point := .timerCancelled, taken }) :=
    session_leads (put_get hget) (congrArg some (hput _ _))
  have hcleared : (t₁.put i { u with queueTimer := none, point := .timerCancelled, taken }).Leads
      (t₁.put i { u with queueTimer := none, point := .timerCleared, queued := false, taken }) :=
    session_leads (put_get (t := t₁) hget) (congrArg some (hput _ _))
  refine ⟨taken, hfirst.trans (hcancelled.trans (hcleared.trans ?_))⟩
  exact session_leads (put_get (t := t₁) hget) (congrArg some (hput _ _))

/-- The strand goes on with the session that it holds. -/
theorem hold_leads (hget : t.sessions[i]? = some u₀)
    (h : ∀ y : ThreadedProxy, y.sessions[i]? = some v → y.point = p →
      y.strandStep = some ((y.put i v').goTo q)) :
    ((t.put i v).goTo p).Leads ((t.put i v').goTo q) := by
  have hstep := h ((t.put i v).goTo p) (put_get hget) rfl
  refine strand_leads (hstep.trans ?_)
  show some (((t.put i v).put i v').goTo q) = _
  rw [put_put]

theorem stay_leads (h : ∀ y : ThreadedProxy, y.sessions[i]? = some v → y.point = p →
      y.strandStep = some (y.goTo q)) (hget : t.sessions[i]? = some u₀) :
    ((t.put i v).goTo p).Leads ((t.put i v).goTo q) :=
  strand_leads (h ((t.put i v).goTo p) (put_get hget) rfl)

/-- The strand takes a session off the queue that still waits. -/
theorem willPromote_leads (hpoint : t.point = .looping)
    (hqueue : t.server.queuedSessions = i :: queue) (hlock : t.lock i = some u)
    (hget : t.sessions[i]? = some u) (hqueued : u.queued = true) :
    t.Leads ((t.setQueue queue).goTo (.willPromote i)) := by
  have hpopped : t.Leads ((t.setQueue queue).goTo (.popped i)) :=
    strand_leads (by simp only [strandStep, hpoint, hqueue, hlock])
  refine hpopped.trans (strand_leads ?_)
  show ((t.sessions[i]?).bind fun s => some (((t.setQueue queue).goTo _).goTo
    (if s.queued then _ else _))) = _
  rw [hget, Option.bind_some, hqueued, if_pos rfl]
  rfl

/-- The session that was taken off the queue is started. -/
theorem promoted_leads (hpoint : t.point = .willPromote i) (hget : t.sessions[i]? = some u)
    (hqueued : u.queued = true) (hfinished : u.finished = false)
    (hpromote : t.server.limiter.tryPromoteQueued () = (Permit.owning (), limiter)) :
    t.Leads (((t.setLimiter limiter).put i { u with
      queued := false
      queueTimer := u.queueTimer.map fun _ => true
      permit := Permit.owning ()
      started := true
      promoted := true
      taken := u.taken + 1 }).goTo .looping) := by
  have hgranted : t.Leads (((t.setLimiter limiter).put i { u with taken := u.taken + 1 }).goTo
      (.granted i (Permit.owning ()))) := by
    refine strand_leads ?_
    simp only [strandStep, hpoint, hget, hpromote, Option.bind_eq_bind, Option.bind_some,
      Permit.valid_owning, ↓reduceIte]
    rfl
  have hget' : (t.setLimiter limiter).sessions[i]? = some u := hget
  let permit : ServerPermit := Permit.owning ()
  let granted := { u with taken := u.taken + 1 }
  let cleared := { granted with queued := false }
  let starting := { cleared with queueTimer := u.queueTimer.map fun _ => true }
  have hreadQueued : (((t.setLimiter limiter).put i granted).goTo (.granted i permit)).Leads
      (((t.setLimiter limiter).put i granted).goTo (.readQueued i permit)) :=
    stay_leads (fun y hy hp => by simp [strandStep, hp, hy, granted, hqueued]) hget'
  have hwillStart : (((t.setLimiter limiter).put i granted).goTo (.readQueued i permit)).Leads
      (((t.setLimiter limiter).put i granted).goTo (.willStart i permit)) :=
    stay_leads (fun y hy hp => by simp [strandStep, hp, hy, granted, hfinished]) hget'
  have hcleared : (((t.setLimiter limiter).put i granted).goTo (.willStart i permit)).Leads
      (((t.setLimiter limiter).put i cleared).goTo (.cleared i permit)) :=
    hold_leads hget' fun y hy hp => by simp [strandStep, hp, hy, cleared]
  have hstarting : (((t.setLimiter limiter).put i cleared).goTo (.cleared i permit)).Leads
      (((t.setLimiter limiter).put i starting).goTo (.starting i permit)) :=
    hold_leads hget' fun y hy hp => by simp [strandStep, hp, hy, starting, cleared, granted]
  have hstarted : (((t.setLimiter limiter).put i starting).goTo (.starting i permit)).Leads
      (((t.setLimiter limiter).put i
        { starting with permit, started := true, promoted := true }).goTo .looping) :=
    hold_leads hget' fun y hy hp => by simp [strandStep, hp, hy]
  exact hgranted.trans (hreadQueued.trans (hwillStart.trans (hcleared.trans
    (hstarting.trans hstarted))))

end ThreadedProxy

end VllmSloProxy
