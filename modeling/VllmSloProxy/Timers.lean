import VllmSloProxy.Lib.Watched
import VllmSloProxy.ClientAnswers
import VllmSloProxy.SessionMessages

/-!
# The timers of a session

`request_timeout` and `queue_timeout` of `proxy_config.hpp`.  A timer completes without an error
once it has expired, never before, and the event loop runs its handler at most `lag` nanoseconds
late.  All other operations take as long as they like.
-/

namespace VllmSloProxy

open Context Transition

/-- The durations, in milliseconds. -/
structure Timeouts where
  requestTimeout : Nat := 30000
  queueTimeout : Nat := 1000

def milliseconds (n : Nat) : Nat := n * 1000000

/-- What `expires_after` has set the timers of a session to. -/
structure Expiries where
  requestTimer : Option Nat := none
  queueTimer : Option Nat := none

namespace Expiries

variable (timeouts : Timeouts) (clock : Nat)

/-- A timer is set right before the wait for it is started. -/
def arm (e : Expiries) : Call → Expiries
  | .start (.requestTimer _) _ =>
      { e with requestTimer := some (clock + milliseconds timeouts.requestTimeout) }
  | .start (.queueTimer _) _ =>
      { e with queueTimer := some (clock + milliseconds timeouts.queueTimeout) }
  | _ => e

/-- The expiry that a pending wait will end at, unless it is cancelled. -/
def due (e : Expiries) : Op → Option Nat
  | .requestTimer false => e.requestTimer
  | .queueTimer false => e.queueTimer
  | _ => none

/-- The expiry that has passed when a wait ends without an error, also one that was cancelled too
late. -/
def passed (e : Expiries) : Op → Option Nat
  | .requestTimer _ => e.requestTimer
  | .queueTimer _ => e.queueTimer
  | _ => none

end Expiries

namespace World

/-- The world with the expiries of all sessions. -/
abbrev Timed := Transition.Watched World (List Expiries)

def Timed.expiries (w : Timed) (i : Nat) : Expiries := w.ghost.getD i {}

/-- No wait ends early, and time does not pass over one that is due. -/
def timely (lag : Nat) (w : Timed) : Event → Bool
  | .complete i op r =>
      r.ec.isSome || ((w.expiries i).passed op).all fun due => due ≤ w.state.clock
  | .tick n => w.state.sessions.zipIdx.all fun entry => entry.1.pending.all fun op =>
      ((w.expiries entry.2).due op).all fun due => w.state.clock + n ≤ due + lag
  | _ => true

/-- The waits that the step has started set their timers. -/
def setTimers (timeouts : Timeouts) (w : Timed) (after : World) : List Expiries :=
  after.sessions.mapIdx fun i s =>
    (s.calls.drop (w.state.sessions[i]?.elim [] (·.calls)).length).foldl
      (Expiries.arm timeouts w.state.clock) (w.expiries i)

def timedStep (timeouts : Timeouts) (lag : Nat) : Timed → Event → Option Timed :=
  watch step (timely lag) (setTimers timeouts)

def timedInit (server : ProxyServer) : Timed := ⟨init server, []⟩

end World

namespace ProxySession

/-- `finished_` is set, the permit was given back, and the client was told. -/
structure Concluded (s : ProxySession) : Prop extends Told s where
  finished : s.finished = true
  permit : s.permit = none

/-- The session has been put in the queue, was started or has `finished_` set, so it is not put in
the queue again. -/
def entered (s : ProxySession) : Bool := s.queued || s.finished || s.requestStart.isSome

/-- What the timers of a session are set to. -/
structure Clocked (timeouts : Timeouts) (lag clock : Nat) (e : Expiries) (s : ProxySession) :
    Prop where
  punctual : ∀ op ∈ s.pending, ∀ due ∈ e.due op, clock ≤ due + lag
  request : ∀ cancelled, .requestTimer cancelled ∈ s.pending → ∃ start,
    s.requestStart = some start ∧
      e.requestTimer = some (start + milliseconds timeouts.requestTimeout)
  queue : ∀ cancelled, .queueTimer cancelled ∈ s.pending → ∃ since ≤ clock,
    e.queueTimer = some (since + milliseconds timeouts.queueTimeout)
  start : ∀ start, s.requestStart = some start → start ≤ clock
  queued : ∀ start due, s.requestStart = some start → e.queueTimer = some due → start ≤ due + lag
  entered : e.queueTimer.isSome = true → s.entered = true

/-- The timers of a session after it has gone on from what it was before the step.  A new session
was nothing before. -/
structure Armed (timeouts : Timeouts) (lag clock : Nat) (before : Option ProxySession)
    (e : Expiries) (s : ProxySession) : Prop where
  clocked : ∃ more, s.calls = before.elim [] (·.calls) ++ more ∧
    s.Clocked timeouts lag clock (more.foldl (Expiries.arm timeouts clock) e) ∧
    ∀ s₀ ∈ before, s₀.entered = true →
      (more.foldl (Expiries.arm timeouts clock) e).queueTimer = e.queueTimer
  started : s.requestStart = before.bind (·.requestStart) ∨
    before.bind (·.requestStart) = none ∧ s.requestStart = some clock
  entered : ∀ s₀ ∈ before, s₀.entered = true → s.entered = true

theorem Armed.start {s : ProxySession} {before : Option ProxySession} {timeouts : Timeouts}
    {lag clock : Nat} {e : Expiries} (h : s.Armed timeouts lag clock before e) :
    ∀ s₀ ∈ before, ∀ start, s₀.requestStart = some start → s.requestStart = some start := by
  intro s₀ hs₀ start heq
  have hbefore : before.bind (·.requestStart) = some start := by
    rw [Option.mem_def.mp hs₀]
    exact heq
  rcases h.started with hsame | ⟨hnone, -⟩
  · exact hsame.trans hbefore
  · exact absurd (hnone.symm.trans hbefore) (fun heq => nomatch heq)

/-- An operation whose wait, if it is one, was pending before. -/
def Aside (pending : List Op) (op : Op) : Prop :=
  (∀ e : Expiries, e.due op = none) ∧
    (∀ b, op = .requestTimer b → ∃ b', .requestTimer b' ∈ pending) ∧
    ∀ b, op = .queueTimer b → ∃ b', .queueTimer b' ∈ pending

/-- A call that sets no timer. -/
def setsNone : Call → Bool
  | .start op _ => !op.isTimer
  | _ => true

variable {timeouts : Timeouts} {lag clock : Nat} {before : Option ProxySession} {e : Expiries}
  {s s' : ProxySession}

theorem arm_of_setsNone {call : Call} (h : setsNone call = true) (e : Expiries) :
    e.arm timeouts clock call = e := by
  cases call with
  | start op valid => cases op <;> first | rfl | cases h
  | _ => rfl

theorem foldl_arm_of_setsNone {calls : List Call} (h : ∀ call ∈ calls, setsNone call = true)
    (e : Expiries) : calls.foldl (Expiries.arm timeouts clock) e = e := by
  induction calls with
  | nil => rfl
  | cons call calls ih =>
      rw [List.foldl_cons, arm_of_setsNone (h call List.mem_cons_self)]
      exact ih fun call hmem => h call (List.mem_cons_of_mem _ hmem)

/-- Waits are only cancelled, and no timer is set. -/
theorem Armed.extend (h : s.Armed timeouts lag clock before e) (more : List Call)
    (hcalls : s'.calls = s.calls ++ more) (hmore : ∀ call ∈ more, setsNone call = true)
    (hpending : ∀ op ∈ s'.pending, op ∈ s.pending ∨ Aside s.pending op)
    (hstart : s'.requestStart = s.requestStart)
    (hentered : s.entered = true → s'.entered = true) : s'.Armed timeouts lag clock before e := by
  obtain ⟨calls, heq, hclocked, hkept⟩ := h.clocked
  -- no call among `more` sets a timer, so the expiry times stay
  have hfold : (calls ++ more).foldl (Expiries.arm timeouts clock) e =
      calls.foldl (Expiries.arm timeouts clock) e := by
    rw [List.foldl_append, foldl_arm_of_setsNone hmore]
  refine ⟨⟨calls ++ more, ?_, ?_, ?_⟩, ?_, fun s₀ hs₀ hin => hentered (h.entered s₀ hs₀ hin)⟩
  · rw [hcalls, heq, List.append_assoc]
  · rw [hfold]
    refine ⟨fun op hop due hdue => ?_, fun b hb => ?_, fun b hb => ?_, ?_, ?_, ?_⟩
    · rcases hpending op hop with hmem | haside
      · exact hclocked.punctual op hmem due hdue
      · rw [haside.1] at hdue
        cases hdue
    · rw [hstart]
      rcases hpending _ hb with hmem | haside
      · exact hclocked.request b hmem
      · obtain ⟨b', hmem⟩ := haside.2.1 b rfl
        exact hclocked.request b' hmem
    · rcases hpending _ hb with hmem | haside
      · exact hclocked.queue b hmem
      · obtain ⟨b', hmem⟩ := haside.2.2 b rfl
        exact hclocked.queue b' hmem
    · rw [hstart]
      exact hclocked.start
    · rw [hstart]
      exact hclocked.queued
    · exact fun harmed => hentered (hclocked.entered harmed)
  · rw [hfold]
    exact hkept
  · rw [hstart]
    exact h.started

theorem aside_of_not_timer {op : Op} (h : op.isTimer = false) (pending : List Op) :
    Aside pending op := by
  refine ⟨fun e => ?_, fun b heq => ?_, fun b heq => ?_⟩
  · cases op <;> first | rfl | cases h
  · rw [heq] at h
    cases h
  · rw [heq] at h
    cases h

theorem aside_cancelTimer {pending : List Op} {op : Op} (hmem : op ∈ pending) :
    op.cancelTimer ∈ pending ∨ Aside pending op.cancelTimer := by
  cases op with
  | requestTimer b =>
      exact .inr ⟨fun _ => rfl, fun _ _ => ⟨b, hmem⟩, fun _ heq => nomatch heq⟩
  | queueTimer b =>
      exact .inr ⟨fun _ => rfl, fun _ heq => (nomatch heq), fun _ _ => ⟨b, hmem⟩⟩
  | _ => exact .inl hmem

/-- An operation other than a wait is started. -/
theorem Armed.startOther {op : Op} (h : s.Armed timeouts lag clock before e)
    (hop : op.isTimer = false) : (s.start op).Armed timeouts lag clock before e := by
  refine h.extend [.start op s.permitValid] rfl ?_ (fun op' hmem => ?_) rfl fun hin => hin
  · intro call hmem
    rw [List.mem_singleton.mp hmem, setsNone, hop]
    rfl
  · refine (List.mem_append.mp hmem).imp_right fun hmem => ?_
    rw [List.mem_singleton.mp hmem]
    exact aside_of_not_timer hop _

/-- The request timer is set, and the resolver is started. -/
theorem Armed.begin {host service : Bytes} {b : Bool} (h : s.Armed timeouts lag clock before e)
    (hnone : s.requestStart = none)
    (hcalls : s'.calls = s.calls ++
      [.start (.requestTimer false) b, .start (.resolve host service) b])
    (hpending : ∀ op ∈ s'.pending,
      (op ∈ s.pending ∨ Aside s.pending op) ∨ op = .requestTimer false)
    (hstart : s'.requestStart = some clock)
    (hqueue : ∀ e, s.Clocked timeouts lag clock e → ∀ due ∈ e.queueTimer, clock ≤ due + lag) :
    s'.Armed timeouts lag clock before e := by
  obtain ⟨calls, heq, hclocked, hkept⟩ := h.clocked
  have hin : s'.entered = true := by simp [ProxySession.entered, hstart]
  refine ⟨⟨_, hcalls.trans ((congrArg (· ++ _) heq).trans (List.append_assoc ..)), ?_, ?_⟩, ?_,
    fun _ _ _ => hin⟩
  · rw [List.foldl_append]
    generalize calls.foldl (Expiries.arm timeouts clock) e = e₁ at hclocked
    show s'.Clocked timeouts lag clock
      { e₁ with requestTimer := some (clock + milliseconds timeouts.requestTimeout) }
    -- the request timer expires `request_timeout` from now, the other waits were there
    refine ⟨fun op hop due hdue => ?_, fun b hb => ⟨clock, hstart, rfl⟩, fun b hb => ?_, ?_, ?_,
      fun _ => hin⟩
    · cases op with
      | requestTimer b =>
          cases b with
          | true => cases hdue
          | false =>
              obtain rfl := Option.some.inj hdue
              omega
      | queueTimer b =>
          cases b with
          | true => cases hdue
          | false =>
              rcases hpending _ hop with (hmem | haside) | heq
              · exact hclocked.punctual _ hmem due hdue
              · exact absurd ((haside.1 e₁).symm.trans hdue) (fun heq => nomatch heq)
              · cases heq
      | _ => cases hdue
    · -- the queue timer may have been cancelled meanwhile
      rcases hpending _ hb with (hmem | haside) | heq
      · exact hclocked.queue b hmem
      · obtain ⟨b', hmem⟩ := haside.2.2 b rfl
        exact hclocked.queue b' hmem
      · cases heq
    · intro start heq
      rw [hstart] at heq
      exact Nat.le_of_eq (Option.some.inj heq).symm
    · intro start due heq hdue
      rw [hstart] at heq
      obtain rfl := Option.some.inj heq
      exact hqueue e₁ hclocked due hdue
  · intro s₀ hs₀ hin₀
    rw [List.foldl_append]
    exact hkept s₀ hs₀ hin₀
  · rcases h.started with heq | ⟨hbefore, -⟩
    · exact .inr ⟨heq.symm.trans hnone, hstart⟩
    · exact .inr ⟨hbefore, hstart⟩

/-- The queue timer is set on a session that was told to wait. -/
theorem Armed.enqueue {b : Bool} (h : s.Armed timeouts lag clock before e)
    (hout : s.entered = false) (hcalls : s'.calls = s.calls ++ [.start (.queueTimer false) b])
    (hpending : s'.pending = [.queueTimer false]) (hstart : s'.requestStart = none)
    (hqueued : s'.queued = true) : s'.Armed timeouts lag clock before e := by
  obtain ⟨calls, heq, hclocked, hkept⟩ := h.clocked
  have hin : s'.entered = true := by simp [ProxySession.entered, hqueued]
  -- before, the session had not entered the queue, so it had no queue timer to keep
  have hnot (s₀ : ProxySession) (hs₀ : s₀ ∈ before) : s₀.entered ≠ true := fun hin₀ =>
    absurd (hout.symm.trans (h.entered s₀ hs₀ hin₀)) Bool.false_ne_true
  refine ⟨⟨_, hcalls.trans ((congrArg (· ++ _) heq).trans (List.append_assoc ..)), ?_,
    fun s₀ hs₀ hin₀ => absurd hin₀ (hnot s₀ hs₀)⟩, .inl ?_, fun _ _ _ => hin⟩
  · rw [List.foldl_append]
    generalize calls.foldl (Expiries.arm timeouts clock) e = e₁ at hclocked
    show s'.Clocked timeouts lag clock
      { e₁ with queueTimer := some (clock + milliseconds timeouts.queueTimeout) }
    refine ⟨fun op hop due hdue => ?_, fun b hb => ?_, fun b hb => ⟨clock, Nat.le_refl _, rfl⟩, ?_,
      ?_, fun _ => hin⟩
    · rw [hpending, List.mem_singleton] at hop
      rw [hop] at hdue
      obtain rfl := Option.some.inj hdue
      omega
    · rw [hpending, List.mem_singleton] at hb
      cases hb
    · rw [hstart]
      exact fun _ heq => nomatch heq
    · rw [hstart]
      exact fun _ _ heq => nomatch heq
  · rw [hstart]
    cases hbefore : before with
    | none => rfl
    | some s₀ =>
        have hnot₀ := hnot s₀ hbefore
        simp only [ProxySession.entered, Bool.or_eq_true, Option.isSome_iff_ne_none, ne_eq,
          not_or, not_not] at hnot₀
        exact hnot₀.2.symm

theorem Phase.queued_of_opening {n : Nat} {op : Op} (h : s.Phase n) (hmem : op ∈ s.pending)
    (hopening : op.isOpening = true) : s.queued = false := by
  cases hqueued : s.queued with
  | false => rfl
  | true =>
      obtain ⟨-, -, pending, -⟩ := h.waiting_of_queued hqueued
      rw [pending, List.mem_singleton] at hmem
      rw [hmem] at hopening
      cases hopening

theorem Phase.running_of_permit {n : Nat} (h : s.Phase n) (hpermit : s.permit.isSome = true) :
    ∃ op, s.Running op := by
  have hnone (hpermit' : s.permit = none) : ∃ op, s.Running op := by
    rw [hpermit'] at hpermit
    cases hpermit
  cases h with
  | running op running => exact ⟨op, running⟩
  | reading idle => exact hnone idle.permit
  | health _ idle => exact hnone idle.permit
  | asked idle => exact hnone idle.permit
  | waiting idle => exact hnone idle.permit
  | ended hover => exact hnone hover.permit

end ProxySession

open ProxySession

namespace Context

variable {timeouts : Timeouts} {lag : Nat} {before : Option ProxySession} {e : Expiries}
  {c c' c₁ : Context} {op next : Op} {r : Outcome} {ending : Ending}

theorem closeClient_armed {clock : Nat} (h : c.self.Armed timeouts lag clock before e) :
    c.closeClient.self.Armed timeouts lag clock before e :=
  h.extend [.closeClient] rfl (by simp [setsNone]) (fun _ hmem => .inl hmem) rfl fun hin => hin

/-- The session that ends may have left the queue before, which does not show in its timers. -/
theorem Ends.armed {clock : Nat} {s : ProxySession} (hends : Ends ending c c')
    (h : s.Armed timeouts lag clock before e) (hcalls : c.self.calls = s.calls)
    (hpending : c.self.pending = s.pending) (hstart : c.self.requestStart = s.requestStart) :
    c'.self.Armed timeouts lag clock before e := by
  have hsettled : (c.settle ending).self.Armed timeouts lag clock before e := by
    refine h.extend (c.endingCalls ending) (by rw [settle_eq, hcalls]) (fun call hmem => ?_)
      (fun op hop => ?_) (by rw [settle_eq, hstart]) fun _ => by
        simp [ProxySession.entered, settle_eq]
    · unfold endingCalls at hmem
      split at hmem
      · cases ending <;> simp only [Ending.call, List.mem_cons, List.not_mem_nil,
          or_false] at hmem <;>
          rcases hmem with rfl | rfl <;> rfl
      · rw [List.mem_singleton.mp hmem]
        rfl
    · rw [settle_eq] at hop
      obtain ⟨op₀, hmem, rfl⟩ := List.mem_map.mp hop
      exact aside_cancelTimer (hpending ▸ hmem)
  cases hends with
  | already hfinished =>
      refine h.extend [] (by rw [List.append_nil, hcalls]) (by simp)
        (fun op hop => .inl (hpending ▸ hop)) hstart fun _ => by
          simp [ProxySession.entered, hfinished]
  | quietly => exact closeClient_armed hsettled
  | withError response => exact hsettled.startOther rfl

theorem Prepares.armed {clock : Nat} (hprep : Prepares c c₁)
    (h : c.self.Armed timeouts lag clock before e) :
    c₁.self.Armed timeouts lag clock before e := by
  obtain ⟨calls, hcalls, heq⟩ := hprep.calls
  refine h.extend calls heq (fun call hmem => ?_) (fun op hop => .inl (hprep.pending ▸ hop))
    hprep.requestStart fun hin => ?_
  · rw [hcalls call hmem]
    rfl
  · unfold ProxySession.entered at hin ⊢
    rw [hprep.queued, hprep.finished, hprep.requestStart]
    exact hin

theorem startProxyRequest_armed (halive : c.server.alive = true) (hidle : c.self.Idle)
    (hqueue : ∀ e, c.self.Clocked timeouts lag c.clock e → ∀ due ∈ e.queueTimer,
      c.clock ≤ due + lag)
    (h : c.self.Armed timeouts lag c.clock before e) :
    (c.startProxyRequest (Permit.owning ())).self.Armed timeouts lag c.clock before e := by
  rw [startProxyRequest_eq _ halive hidle.permit]
  refine h.begin hidle.requestStart (List.append_assoc ..) (fun op hop => ?_) rfl hqueue
  have hop : op ∈ (c.self.pending ++ [.requestTimer false]) ++ [.resolve _ _] := hop
  rcases List.mem_append.mp hop with hop | hop
  · rcases List.mem_append.mp hop with hop | hop
    · exact .inl (.inl hop)
    · exact .inr (List.mem_singleton.mp hop)
  · rw [List.mem_singleton.mp hop]
    exact .inl (.inr (aside_of_not_timer rfl _))

theorem Requested.armed (hrequested : Requested c c') (hidle : c.self.Idle)
    (hqueued : c.self.queued = false) (h : c.self.Armed timeouts lag c.clock before e) :
    c'.self.Armed timeouts lag c.clock before e := by
  have hout : c.self.entered = false := by
    simp [ProxySession.entered, hqueued, hidle.finished, hidle.requestStart]
  have hcounted (limiter : InflightLimiter Task) :
      (c.counted.setLimiter limiter).self.Armed timeouts lag c.clock before e :=
    h.extend [.recordStarted] rfl (by simp [setsNone]) (fun _ hmem => .inl hmem) rfl fun hin => hin
  cases hrequested with
  | unread =>
      refine h.extend [] (by simp) (by simp) (fun _ hmem => .inl hmem) rfl fun _ => ?_
      simp [ProxySession.entered]
  | refused _ hends => exact hends.armed h rfl rfl rfl
  | health response => exact h.startOther rfl
  | admitted halive =>
      refine startProxyRequest_armed (c := c.counted.setLimiter _) halive
        ⟨hidle.1, hidle.2, hidle.3, hidle.4⟩ (fun e hclocked due hdue => ?_) (hcounted _)
      -- the session has not been in the queue
      have hin := hclocked.entered (by rw [hdue]; rfl)
      exact absurd (hout.symm.trans hin) Bool.false_ne_true
  | queued => exact hcounted c.server.limiter
  | turnedAway _ _ hends => exact hends.armed (hcounted c.server.limiter) rfl rfl rfl

theorem deliver_armed {clock : Nat} {s : ProxySession} (op : Op) (r : Outcome)
    (h : s.Armed timeouts lag clock before e) :
    (World.deliver s op r).Armed timeouts lag clock before e := by
  refine h.extend [] (by simp) (by simp) (fun op' hop => .inl ?_) (World.deliver_requestStart ..)
    fun hin => ?_
  · rw [World.deliver_pending] at hop
    exact List.mem_of_mem_erase hop
  · unfold ProxySession.entered at hin ⊢
    rw [World.deliver_queued, World.deliver_finished, World.deliver_requestStart]
    exact hin

theorem Handled.armed {s : ProxySession} {n : Nat} (hhandled : Handled op r c c')
    (hphase : s.Phase n) (hself : c.self = World.deliver s op r) (hmem : op ∈ s.pending)
    (h : s.Armed timeouts lag c.clock before e) : c'.self.Armed timeouts lag c.clock before e := by
  have hdelivered : c.self.Armed timeouts lag c.clock before e := hself ▸ deliver_armed op r h
  -- fields that no timer depends on
  have hset {t : ProxySession} (hcalls : t.calls = c.self.calls)
      (hpending : t.pending = c.self.pending) (hstart : t.requestStart = c.self.requestStart)
      (hentered : c.self.entered = true → t.entered = true) :
      t.Armed timeouts lag c.clock before e :=
    hdelivered.extend [] (by rw [List.append_nil]; exact hcalls) (by simp)
      (fun op hop => .inl (hpending ▸ hop)) hstart hentered
  cases hhandled with
  | timer => exact hdelivered
  | timedOut _ _ _ _ _ hends =>
      exact hends.armed hdelivered (by rw [timeOut_self]) (by rw [timeOut_self])
        (by rw [timeOut_self])
  | expired _ _ _ _ hends => exact hends.armed hdelivered rfl rfl rfl
  | read _ hop hrequested =>
      obtain ⟨idle, -, -⟩ := hphase.of_opening hmem (by rw [hop]; rfl)
      have hidle : c.self.Idle := by
        rw [hself]
        exact idle.deliver op r
      have hqueued : c.self.queued = false := by
        rw [hself, World.deliver_queued]
        exact hphase.queued_of_opening hmem (by rw [hop]; rfl)
      have hread := hset (t := { c.self with clientRequest := r.request }) rfl rfl rfl
        fun hin => hin
      exact hrequested.armed (c := c.setSelf { c.self with clientRequest := r.request })
        ⟨hidle.1, hidle.2, hidle.3, hidle.4⟩ hqueued hread
  | wroteText =>
      refine closeClient_armed (c := c.setSelf { c.self with finished := true })
        (hset rfl rfl rfl ?_)
      exact fun _ => by simp [ProxySession.entered]
  | wroteError => exact closeClient_armed hdelivered
  | ended _ c₁ _ _ _ hobserves hends =>
      exact hends.armed (hobserves.prepares.armed hdelivered) rfl rfl rfl
  | relayed c₁ next hrelay =>
      exact (hrelay.prepares.armed hdelivered).startOther
        (Op.isTimer_of_isRelay hrelay.isRelay.2)

theorem Requested.holdsTimer (hrequested : Requested c c') (hnone : c.self.permit = none)
    (hrunning : c'.self.finished = false) (hpermit : c'.self.permit.isSome = true) :
    .requestTimer false ∈ c'.self.pending := by
  have hnot {p : Prop} (hfinished : c'.self.finished = true) : p :=
    absurd (hrunning.symm.trans hfinished) Bool.false_ne_true
  have habsent {p : Prop} (hsame : c'.self.permit = c.self.permit) : p := by
    rw [hsame, hnone] at hpermit
    cases hpermit
  cases hrequested with
  | unread => exact hnot rfl
  | refused _ hends => exact hnot hends.finished
  | health response => exact habsent rfl
  | admitted halive =>
      rw [startProxyRequest_eq (c := c.counted.setLimiter _) _ halive hnone]
      exact List.mem_append_left _ (List.mem_append_right _ (List.mem_singleton_self _))
  | queued => exact habsent rfl
  | turnedAway _ _ hends => exact hnot hends.finished

/-- While a session holds a slot its request timer is running. -/
theorem Handled.holdsTimer {s : ProxySession} {n : Nat} (hhandled : Handled op r c c')
    (hphase : s.Phase n) (hafter : ∃ m, c'.self.Phase m) (hself : c.self = World.deliver s op r)
    (hmem : op ∈ s.pending) (hdeliverable : World.deliverable s op r = true)
    (h : s.permit.isSome = true → .requestTimer false ∈ s.pending)
    (hpermit : c'.self.permit.isSome = true) : .requestTimer false ∈ c'.self.pending := by
  obtain ⟨m, hafter⟩ := hafter
  obtain ⟨op', hrunning⟩ := hafter.running_of_permit hpermit
  have hnot {p : Prop} (hfinished : c'.self.finished = true) : p :=
    absurd (hrunning.finished.symm.trans hfinished) Bool.false_ne_true
  -- the timer stays pending unless it is its own completion that is delivered
  have hkept (hsame : s.permit.isSome = true) (hne : op ≠ .requestTimer false) :
      .requestTimer false ∈ c.self.pending := by
    rw [hself, World.deliver_pending]
    exact (List.mem_erase_of_ne hne.symm).mpr (h hsame)
  have hpermit' : c.self.permit = s.permit := hself ▸ World.deliver_permit s op r
  cases hhandled with
  | timer _ hrequest =>
      refine hkept (hpermit' ▸ hpermit) fun hop => ?_
      rcases hrequest false hop with hec | hfinished
      · -- a wait that was not cancelled completes without an error
        rw [hop] at hdeliverable
        cases hnone : r.ec with
        | none => rw [hnone] at hec; cases hec
        | some ec => simp [World.deliverable, hnone] at hdeliverable
      · exact hnot hfinished
  | timedOut _ _ _ _ _ hends => exact hnot hends.finished
  | expired _ _ _ _ hends => exact hnot hends.finished
  | read _ hop hrequested =>
      obtain ⟨idle, -, -⟩ := hphase.of_opening hmem (by rw [hop]; rfl)
      exact hrequested.holdsTimer (hpermit'.trans idle.permit) hrunning.finished hpermit
  | wroteText => exact hnot rfl
  | wroteError response hop =>
      exact hkept (hpermit' ▸ hpermit) (by rw [hop]; simp)
  | ended _ _ _ _ _ _ hends => exact hnot hends.finished
  | relayed c₁ next hrelay =>
      have hprep := hrelay.prepares
      refine List.mem_append_left _ ?_
      rw [hprep.pending]
      refine hkept ?_ fun hop => ?_
      · rw [← hpermit', ← hprep.permit]
        exact hpermit
      · have hrelay' := hrelay.isRelay.1
        rw [hop] at hrelay'
        cases hrelay'

theorem Ends.counted (hends : Ends ending c c') :
    c'.self.requestCounted = c.self.requestCounted := by
  have hsettled : (c.settle ending).self.requestCounted = c.self.requestCounted := by rw [settle_eq]
  cases hends with
  | already => rfl
  | quietly => exact hsettled
  | withError => exact hsettled

/-- A request that was counted stays so. -/
theorem Handled.counted {s : ProxySession} {n : Nat} (hhandled : Handled op r c c')
    (hphase : s.Phase n) (hself : c.self = World.deliver s op r) (hmem : op ∈ s.pending)
    (hcounted : s.requestCounted = true) : c'.self.requestCounted = true := by
  have hbefore : c.self.requestCounted = true := by
    rw [hself, World.deliver_requestCounted]
    exact hcounted
  cases hhandled with
  | timer => exact hbefore
  | timedOut _ _ _ _ _ hends => exact hends.counted.trans (by rw [timeOut_self]; exact hbefore)
  | expired _ _ _ _ hends => exact hends.counted.trans hbefore
  | read _ hop =>
      obtain ⟨-, huncounted, -⟩ := hphase.of_opening hmem (by rw [hop]; rfl)
      exact absurd (huncounted.symm.trans hcounted) Bool.false_ne_true
  | wroteText | wroteError => exact hbefore
  | ended _ _ _ _ _ hobserves hends =>
      exact hends.counted.trans (hobserves.prepares.counted.trans hbefore)
  | relayed _ _ hrelay => exact hrelay.prepares.counted.trans hbefore

end Context

namespace World

variable {config : ProxyConfig} {timeouts : Timeouts} {lag : Nat} {server : ProxyServer}
  {events : List Event} {w w' w₁ w₂ : Timed} {i : Nat}

theorem armed_keptFrom (timeouts : Timeouts) (lag : Nat) (w : World) (expiries : Nat → Expiries)
    (hfresh : (expiries w.sessions.length).queueTimer = none) :
    KeptFrom config w fun i s => s.Armed timeouts lag w.clock w.sessions[i]? (expiries i) := by
  constructor
  case created =>
    intro sseParser _
    have hnone : w.sessions[w.sessions.length]? = none := List.getElem?_eq_none (Nat.le_refl _)
    rw [hnone]
    refine ⟨⟨[.start .readRequest false], rfl, ?_, fun _ hs₀ => nomatch hs₀⟩,
      .inl rfl, fun _ hs₀ => nomatch hs₀⟩
    show ProxySession.Clocked timeouts lag w.clock (expiries w.sessions.length) _
    refine ⟨fun op hop due hdue => ?_, fun b hb => ?_, fun b hb => ?_, fun _ heq => (nomatch heq),
      fun _ _ heq => (nomatch heq), fun harmed => ?_⟩
    · rw [List.mem_singleton.mp hop] at hdue
      cases hdue
    · cases List.mem_singleton.mp hb
    · cases List.mem_singleton.mp hb
    · rw [hfresh] at harmed
      cases harmed
  case closed =>
    exact fun i s hs => hs.extend [.closeClient] rfl (by simp [setsNone])
      (fun _ hmem => .inl hmem) rfl fun hin => hin
  case enqueued =>
    intro i s idle queued pending hs
    refine hs.enqueue (b := s.permitValid) ?_ rfl ?_ idle.requestStart rfl
    · simp [ProxySession.entered, queued, idle.finished, idle.requestStart]
    · show s.pending ++ [.queueTimer false] = _
      rw [pending]
      rfl
  -- a promotion cancels the queue timer and sets the request timer
  case promoted =>
    intro i s idle pending hs
    refine hs.begin (b := true) idle.requestStart (List.append_assoc ..) (fun op hop => ?_) rfl
      fun e hclocked due hdue => ?_
    · have hop : op ∈ (s.pending.map Op.cancelQueueTimer ++ [.requestTimer false]) ++
          [.resolve _ _] := hop
      rw [pending] at hop ⊢
      simp only [List.map_cons, List.map_nil, List.cons_append, List.nil_append, List.mem_cons,
        List.not_mem_nil, or_false] at hop
      rcases hop with rfl | rfl | rfl
      · exact .inl (aside_cancelTimer (List.mem_singleton_self (Op.queueTimer false)))
      · exact .inr rfl
      · exact .inl (.inr (aside_of_not_timer rfl _))
    · exact hclocked.punctual (.queueTimer false) (by rw [pending]; exact List.mem_singleton_self _)
        due hdue
  case destroyed =>
    exact fun i s hs => hs.extend [] (by simp) (by simp) (fun _ hmem => .inl hmem) rfl
      fun hin => hin

theorem holdsTimer_keptFrom (w : World) : KeptFrom config w fun _ s =>
    s.permit.isSome = true → .requestTimer false ∈ s.pending := by
  constructor
  case created => exact fun _ _ hpermit => nomatch hpermit
  case closed => exact fun _ _ hs => hs
  case enqueued =>
    intro i s idle _ _ _ hpermit
    have hpermit : s.permit.isSome = true := hpermit
    rw [idle.permit] at hpermit
    cases hpermit
  case promoted =>
    exact fun _ _ _ _ _ _ =>
      List.mem_append_left _ (List.mem_append_right _ (List.mem_singleton_self _))
  case destroyed => exact fun _ _ hs => hs

theorem counted_keptFrom (w : World) : KeptFrom config w fun i s =>
    ∀ s₀, w.sessions[i]? = some s₀ → s₀.requestCounted = true → s.requestCounted = true := by
  constructor
  case created =>
    intro sseParser _ s₀ hs₀
    rw [List.getElem?_eq_none (Nat.le_refl _)] at hs₀
    cases hs₀
  case closed | destroyed => exact fun _ _ hs => hs
  case enqueued => exact fun _ _ _ _ _ hs => hs
  case promoted => exact fun _ _ _ _ hs => hs

/-- What a client may have been told by now: of a timeout only when it has passed. -/
def Timed.Told (timeouts : Timeouts) (w : Timed) (i : Nat) (failure : HttpStatus × String) : Prop :=
  failure ∈ failures ∧ ∀ s, w.state.sessions[i]? = some s →
    (failure.1 = .gatewayTimeout → ∃ start, s.requestStart = some start ∧
      start + milliseconds timeouts.requestTimeout ≤ w.state.clock) ∧
    (failure = (.tooManyRequests, "queue timeout") → s.entered = true ∧ ∃ since,
      (w.expiries i).queueTimer = some (since + milliseconds timeouts.queueTimeout) ∧
        since + milliseconds timeouts.queueTimeout ≤ w.state.clock)

/-- What keeps the timers right from one step to the next. -/
structure Timed.Right (config : ProxyConfig) (timeouts : Timeouts) (lag : Nat) (w : Timed) :
    Prop where
  delivering : Delivering config (fun _ _ _ => True) (w.Told timeouts) w.state
  clocked : ∀ (i : Nat) (s : ProxySession), w.state.sessions[i]? = some s →
    s.Clocked timeouts lag w.state.clock (w.expiries i)
  held : ∀ (i : Nat) (s : ProxySession), w.state.sessions[i]? = some s →
    s.permit.isSome = true → .requestTimer false ∈ s.pending
  length : w.ghost.length = w.state.sessions.length

/-- A request that was counted before the step stays so. -/
theorem Timed.Right.counted {e : Event} {after : World} {s₀ s : ProxySession}
    (h : w.Right config timeouts lag) (hstep : World.step w.state e = some after)
    (hs₀ : w.state.sessions[i]? = some s₀) (hs : after.sessions[i]? = some s)
    (hcounted : s₀.requestCounted = true) : s.requestCounted = true := by
  have hkept := (counted_keptFrom w.state).step h.delivering.sound h.delivering.configured hstep
    (fun j t ht t₀ ht₀ => Option.some.inj (ht₀.symm.trans ht) ▸ id)
    fun j op r t _ hlock hmem _ => ?_
  · exact hkept.sessions i s hs s₀ hs₀ hcounted
  · obtain ⟨hget, -⟩ := lock_eq_some.mp hlock
    intro t₀ ht₀
    obtain rfl := Option.some.inj (hget.symm.trans ht₀)
    exact (handle_handled op r (w.state.context j (deliver t op r))).counted
      (h.delivering.sound.phase j t hget) rfl hmem

/-- The expiries of a session after the step. -/
theorem expiries_setTimers {after : World} {s : ProxySession} {more : List Call}
    (hget : after.sessions[i]? = some s)
    (hcalls : s.calls = (w.state.sessions[i]?.elim [] (·.calls)) ++ more) :
    Timed.expiries ⟨after, setTimers timeouts w after⟩ i =
      more.foldl (Expiries.arm timeouts w.state.clock) (w.expiries i) := by
  unfold Timed.expiries setTimers
  rw [List.getD_eq_getElem?_getD, List.getElem?_mapIdx, hget]
  show ((s.calls.drop _).foldl _ _) = _
  rw [hcalls, List.drop_left]
  rfl

theorem Timed.Right.armed {e : Event} {after : World} (h : w.Right config timeouts lag)
    (hstep : World.step w.state e = some after) :
    Kept config (fun i s => s.Armed timeouts lag w.state.clock w.state.sessions[i]? (w.expiries i))
      w.state e after := by
  have hfresh : (w.expiries w.state.sessions.length).queueTimer = none := by
    unfold Timed.expiries
    rw [List.getD_eq_getElem?_getD, List.getElem?_eq_none (Nat.le_of_eq h.length)]
    rfl
  refine (armed_keptFrom timeouts lag w.state w.expiries hfresh).step h.delivering.sound
    h.delivering.configured hstep (fun i s hget => ?_) fun i op r s _ hlock hmem _ => ?_
  · rw [hget]
    exact ⟨⟨[], (List.append_nil _).symm, h.clocked i s hget, fun _ _ _ => rfl⟩,
      .inl rfl, fun s₀ hs₀ hin => Option.some.inj hs₀ ▸ hin⟩
  · obtain ⟨hget, -⟩ := lock_eq_some.mp hlock
    have hstart : s.Armed timeouts lag w.state.clock (some s) (w.expiries i) :=
      ⟨⟨[], (List.append_nil _).symm, h.clocked i s hget, fun _ _ _ => rfl⟩,
        .inl rfl, fun s₀ hs₀ hin => Option.some.inj hs₀ ▸ hin⟩
    rw [hget]
    exact (handle_handled op r (w.state.context i (deliver s op r))).armed
      (h.delivering.sound.phase i s hget) rfl hmem hstart

/-- How far the clock goes on. -/
theorem step_clock {e : Event} {after : World} (h : w.Right config timeouts lag)
    (hstep : World.step w.state e = some after) : w.state.clock ≤ after.clock := by
  by_cases htick : ∃ n, e = .tick n
  · obtain ⟨n, rfl⟩ := htick
    obtain rfl := Option.some.inj hstep
    exact Nat.le_add_right _ _
  · exact Nat.le_of_eq ((h.armed hstep).clock_eq fun n heq => htick ⟨n, heq⟩).symm

/-- The timers of a session that was there before the step. -/
theorem Timed.Right.kept {e : Event} {after : World} {s : ProxySession}
    (h : w.Right config timeouts lag) (hstep : World.step w.state e = some after)
    (hget : after.sessions[i]? = some s) {s₀ : ProxySession}
    (hbefore : w.state.sessions[i]? = some s₀) :
    (∀ start, s₀.requestStart = some start → s.requestStart = some start) ∧
      (s₀.entered = true → s.entered = true ∧
        (Timed.expiries ⟨after, setTimers timeouts w after⟩ i).queueTimer =
          (w.expiries i).queueTimer) := by
  have harmed := (h.armed hstep).sessions i s hget
  obtain ⟨more, hcalls, -, hqueue⟩ := harmed.clocked
  refine ⟨harmed.start s₀ hbefore, fun hin => ⟨harmed.entered s₀ hbefore hin, ?_⟩⟩
  rw [expiries_setTimers hget hcalls]
  exact hqueue s₀ hbefore hin

theorem Timed.Right.clockedAfter {e : Event} {after : World} {s : ProxySession}
    (h : w.Right config timeouts lag) (hallows : timely lag w e = true)
    (hstep : World.step w.state e = some after) (hget : after.sessions[i]? = some s) :
    s.Clocked timeouts lag after.clock
      (Timed.expiries ⟨after, setTimers timeouts w after⟩ i) := by
  have hkept := h.armed hstep
  obtain ⟨more, hcalls, hclocked, -⟩ := (hkept.sessions i s hget).clocked
  rw [expiries_setTimers hget hcalls]
  by_cases htick : ∃ n, e = .tick n
  · obtain ⟨n, rfl⟩ := htick
    obtain rfl := Option.some.inj hstep
    have hget : w.state.sessions[i]? = some s := hget
    have hnil : more = [] := by
      rw [hget] at hcalls
      exact List.self_eq_append_right.mp hcalls
    rw [hnil] at hclocked ⊢
    have hpunctual : ∀ op ∈ s.pending, ∀ due ∈ (w.expiries i).due op,
        w.state.clock + n ≤ due + lag := by
      intro op hop due hdue
      have hentry := List.all_eq_true.mp (List.all_eq_true.mp hallows (s, i)
        (List.mk_mem_zipIdx_iff_getElem?.mpr hget)) op hop
      rw [hdue] at hentry
      exact of_decide_eq_true hentry
    refine ⟨hpunctual, hclocked.request, fun b hb => ?_, fun start heq => ?_, hclocked.queued,
      hclocked.entered⟩
    · obtain ⟨since, hle, hqueue⟩ := hclocked.queue b hb
      exact ⟨since, Nat.le_add_right_of_le hle, hqueue⟩
    · exact Nat.le_add_right_of_le (hclocked.start start heq)
  · rw [hkept.clock_eq fun n heq => htick ⟨n, heq⟩]
    exact hclocked

/-- The handlers of the timers alone report that time is up. -/
theorem timer_of_failuresOf (op : Op) (r : Outcome) : ∀ failure ∈ failuresOf op r,
    (failure.1 = .gatewayTimeout → r.ec = none ∧ ∃ b, op = .requestTimer b) ∧
      (failure = (.tooManyRequests, "queue timeout") → r.ec = none ∧ ∃ b, op = .queueTimer b) := by
  intro failure hmem
  cases op with
  | requestTimer b =>
      have hmem : failure ∈ if r.ec.isSome then [] else [(.gatewayTimeout, "request timeout")] :=
        hmem
      cases hec : r.ec with
      | some ec => simp [hec] at hmem
      | none =>
          simp only [hec, Option.isSome_none, Bool.false_eq_true, ↓reduceIte,
            List.mem_singleton] at hmem
          exact ⟨fun _ => ⟨rfl, b, rfl⟩, fun htext => absurd (hmem.symm.trans htext) (by decide)⟩
  | queueTimer b =>
      have hmem : failure ∈ if r.ec.isSome then [] else [(.tooManyRequests, "queue timeout")] :=
        hmem
      cases hec : r.ec with
      | some ec => simp [hec] at hmem
      | none =>
          simp only [hec, Option.isSome_none, Bool.false_eq_true, ↓reduceIte,
            List.mem_singleton] at hmem
          exact ⟨fun hstatus => absurd (hmem ▸ hstatus) (by decide), fun _ => ⟨rfl, b, rfl⟩⟩
  | _ =>
      revert failure
      simp [failuresOf]

/-- What a handler may tell the client has come to pass. -/
theorem Timed.Right.told {op : Op} {r : Outcome} {after : World} (h : w.Right config timeouts lag)
    (hallows : timely lag w (.complete i op r) = true)
    (hstep : World.step w.state (.complete i op r) = some after) :
    ∀ failure ∈ failuresOf op r,
      Timed.Told timeouts ⟨after, setTimers timeouts w after⟩ i failure := by
  intro failure hfailure
  obtain ⟨s₀, hlock, hmem, -, -⟩ := complete_eq_some hstep
  obtain ⟨hbefore, -⟩ := lock_eq_some.mp hlock
  have hclocked := h.clocked i s₀ hbefore
  have hclock := step_clock h hstep
  have hpassed (hec : r.ec = none) : ∀ due ∈ (w.expiries i).passed op, due ≤ w.state.clock := by
    intro due hdue
    have hall : (r.ec.isSome ||
        ((w.expiries i).passed op).all fun due => due ≤ w.state.clock) = true :=
      hallows
    rw [hec, Option.isSome_none, Bool.false_or, hdue] at hall
    exact of_decide_eq_true hall
  refine ⟨failuresOf_subset op r failure hfailure,
    fun s hget => ⟨fun hstatus => ?_, fun htext => ?_⟩⟩
  · obtain ⟨hec, b, rfl⟩ := (timer_of_failuresOf op r failure hfailure).1 hstatus
    obtain ⟨start, hstart, hexpiry⟩ := hclocked.request b hmem
    exact ⟨start, (h.kept hstep hget hbefore).1 start hstart,
      (hpassed hec _ hexpiry).trans hclock⟩
  · obtain ⟨hec, b, rfl⟩ := (timer_of_failuresOf op r failure hfailure).2 htext
    obtain ⟨since, -, hexpiry⟩ := hclocked.queue b hmem
    obtain ⟨hin, hsame⟩ := (h.kept hstep hget hbefore).2 (hclocked.entered (by rw [hexpiry]; rfl))
    exact ⟨hin, since, hsame.trans hexpiry, (hpassed hec _ hexpiry).trans hclock⟩

theorem Timed.Right.step {e : Event} (h : w.Right config timeouts lag)
    (hstep : timedStep timeouts lag w e = some w') : w'.Right config timeouts lag := by
  obtain ⟨hallows, after, hafter, rfl⟩ := watch_eq_some.mp hstep
  have hkept := h.armed hafter
  have hclock := step_clock h hafter
  refine ⟨?_, fun i s hget => h.clockedAfter hallows hafter hget, ?_, ?_⟩
  · -- what was true to say stays true
    have htold : Delivering config (fun _ _ _ => True)
        (Timed.Told timeouts ⟨after, setTimers timeouts w after⟩) w.state := by
      refine ⟨h.delivering.sound, h.delivering.configured, fun i s₀ hbefore =>
        (h.delivering.authentic i s₀ hbefore).mono fun failure htold => ⟨htold.1, fun s hget => ?_⟩⟩
      obtain ⟨hstart, hqueue⟩ := h.kept hafter hget hbefore
      refine ⟨fun hstatus => ?_, fun htext => ?_⟩
      · obtain ⟨start, heq, hle⟩ := (htold.2 s₀ hbefore).1 hstatus
        exact ⟨start, hstart start heq, hle.trans hclock⟩
      · obtain ⟨hin, since, heq, hle⟩ := (htold.2 s₀ hbefore).2 htext
        obtain ⟨hin', hsame⟩ := hqueue hin
        exact ⟨hin', since, hsame.trans heq, hle.trans hclock⟩
    refine htold.step (fun _ _ _ => trivial) (fun i op r heq => ?_) hafter
    subst heq
    exact h.told hallows hafter
  · have hholds := (holdsTimer_keptFrom w.state).step h.delivering.sound h.delivering.configured
      hafter h.held fun i op r s _ hlock hmem hdeliverable => by
        obtain ⟨hget, -⟩ := lock_eq_some.mp hlock
        have hphase := h.delivering.sound.phase i s hget
        have hhandled := handle_handled op r (w.state.context i (deliver s op r))
        exact hhandled.holdsTimer hphase ⟨_, hhandled.phase hphase rfl rfl hmem hdeliverable
          h.delivering.sound.onRelease⟩ rfl hmem hdeliverable (h.held i s hget)
    exact hholds.sessions
  · show (setTimers timeouts w after).length = _
    rw [setTimers, List.length_mapIdx]

theorem Timed.Right.init (hcreate : ProxyServer.create config = .ok server) :
    (timedInit server).Right config timeouts lag :=
  ⟨Delivering.init hcreate, fun _ _ hget => (nomatch hget), fun _ _ hget => (nomatch hget), rfl⟩

/-- A request that was started and is not over has a slot, so its timer is running. -/
theorem Timed.Right.running {s : ProxySession} {start : Nat} (h : w.Right config timeouts lag)
    (hget : w.state.sessions[i]? = some s) (hstart : s.requestStart = some start)
    (hfinished : s.finished = false) :
    s.queued = false ∧
      w.state.clock ≤ start + milliseconds timeouts.requestTimeout + lag := by
  have hnot {p : Prop} (hidle : s.Idle) : p := by
    rw [hidle.requestStart] at hstart
    cases hstart
  have hphase := h.delivering.sound.phase i s hget
  generalize w.state.server.posted i = n at hphase
  cases hphase with
  | reading idle => exact hnot idle
  | health _ idle => exact hnot idle
  | asked idle => exact hnot idle
  | waiting idle => exact hnot idle
  | ended hover => exact absurd (hfinished.symm.trans hover.finished) Bool.false_ne_true
  | running op running =>
      have hpending := h.held i s hget (by rw [running.permit]; rfl)
      have hclocked := h.clocked i s hget
      obtain ⟨start', heq, hexpiry⟩ := hclocked.request false hpending
      obtain rfl := Option.some.inj (hstart.symm.trans heq)
      exact ⟨running.queued, hclocked.punctual _ hpending _ hexpiry⟩

theorem Timed.Right.waiting {s : ProxySession} (h : w.Right config timeouts lag)
    (hget : w.state.sessions[i]? = some s) (hqueued : s.queued = true) :
    ∃ since ≤ w.state.clock,
      (w.expiries i).queueTimer = some (since + milliseconds timeouts.queueTimeout) ∧
      w.state.clock ≤ since + milliseconds timeouts.queueTimeout + lag := by
  obtain ⟨-, -, pending, -⟩ := (h.delivering.sound.phase i s hget).waiting_of_queued hqueued
  have hpending : .queueTimer false ∈ s.pending := pending ▸ List.mem_singleton_self _
  have hclocked := h.clocked i s hget
  obtain ⟨since, hle, hexpiry⟩ := hclocked.queue false hpending
  exact ⟨since, hle, hexpiry, hclocked.punctual _ hpending _ hexpiry⟩

theorem foldl_arm_queueTimer (clock : Nat) (calls : List Call) (e : Expiries) :
    (calls.foldl (Expiries.arm timeouts clock) e).queueTimer = e.queueTimer ∨
      (calls.foldl (Expiries.arm timeouts clock) e).queueTimer =
        some (clock + milliseconds timeouts.queueTimeout) := by
  induction calls generalizing e with
  | nil => exact .inl rfl
  | cons call calls ih =>
      rcases ih (e.arm timeouts clock call) with heq | heq
      · rw [List.foldl_cons, heq]
        cases call with
        | start op valid => cases op <;> first | exact .inl rfl | exact .inr rfl
        | _ => exact .inl rfl
      · exact .inr heq

/-- What has become of the timers since the state `w₁` of the run. -/
structure Timed.Since (config : ProxyConfig) (timeouts : Timeouts) (lag : Nat) (w₁ w : Timed) :
    Prop where
  right : w.Right config timeouts lag
  clock : w₁.state.clock ≤ w.state.clock
  length : w₁.state.sessions.length ≤ w.state.sessions.length
  start : ∀ (i : Nat) (s : ProxySession), w.state.sessions[i]? = some s →
    s.requestStart = w₁.state.sessions[i]?.bind (·.requestStart) ∨
    w₁.state.sessions[i]?.bind (·.requestStart) = none ∧
      ∃ start, w₁.state.clock ≤ start ∧ s.requestStart = some start
  counted : ∀ (i : Nat) (s₁ s : ProxySession), w₁.state.sessions[i]? = some s₁ →
    w.state.sessions[i]? = some s → s₁.requestCounted = true → s.requestCounted = true
  queue : ∀ i, (w.expiries i).queueTimer = (w₁.expiries i).queueTimer ∨
    ∃ since, w₁.state.clock ≤ since ∧
      (w.expiries i).queueTimer = some (since + milliseconds timeouts.queueTimeout)
  entered : ∀ (i : Nat) (s₁ s : ProxySession), w₁.state.sessions[i]? = some s₁ →
    w.state.sessions[i]? = some s → s₁.entered = true →
    s.entered = true ∧ (w.expiries i).queueTimer = (w₁.expiries i).queueTimer

theorem Timed.Since.refl (h : w.Right config timeouts lag) : w.Since config timeouts lag w := by
  refine ⟨h, Nat.le_refl _, Nat.le_refl _, fun i s hget => .inl ?_, fun i s₁ s hget₁ hget => ?_,
    fun _ => .inl rfl, fun i s₁ s hget₁ hget hin => ?_⟩
  · rw [hget]
    rfl
  · exact Option.some.inj (hget₁.symm.trans hget) ▸ id
  · obtain rfl := Option.some.inj (hget₁.symm.trans hget)
    exact ⟨hin, rfl⟩

theorem Timed.Since.step {e : Event} (h : w₁.Since config timeouts lag w)
    (hstep : timedStep timeouts lag w e = some w') : w₁.Since config timeouts lag w' := by
  have hright := h.right.step hstep
  obtain ⟨hallows, after, hafter, rfl⟩ := watch_eq_some.mp hstep
  have hkept := h.right.armed hafter
  have hbetween {i : Nat} {s₁ : ProxySession} (hget₁ : w₁.state.sessions[i]? = some s₁) :
      ∃ s₀, w.state.sessions[i]? = some s₀ :=
    ⟨_, List.getElem?_eq_getElem ((List.getElem?_eq_some_iff.mp hget₁).1.trans_le h.length)⟩
  refine ⟨hright, h.clock.trans (step_clock h.right hafter), h.length.trans hkept.length_le,
    fun i s hget => ?_, fun i s₁ s hget₁ hget hcounted => ?_, fun i => ?_,
    fun i s₁ s hget₁ hget hin => ?_⟩
  · -- the start: it is the old one, or it came with this step
    have hgone (hnone : w.state.sessions[i]? = none) : w₁.state.sessions[i]? = none :=
      List.getElem?_eq_none (h.length.trans (List.getElem?_eq_none_iff.mp hnone))
    have hbefore : w.state.sessions[i]?.bind (·.requestStart) =
        w₁.state.sessions[i]?.bind (·.requestStart) ∨
        w₁.state.sessions[i]?.bind (·.requestStart) = none ∧ ∃ start, w₁.state.clock ≤ start ∧
          w.state.sessions[i]?.bind (·.requestStart) = some start := by
      cases hsome : w.state.sessions[i]? with
      | none => exact .inl (by rw [hgone hsome])
      | some s₀ => exact h.start i s₀ hsome
    rcases (hkept.sessions i s hget).started with heq | ⟨hnone, heq⟩
    · rw [heq]
      exact hbefore
    · rcases hbefore with hsame | ⟨-, start, -, hstart⟩
      · exact .inr ⟨hsame.symm.trans hnone, w.state.clock, h.clock, heq⟩
      · exact absurd (hnone.symm.trans hstart) (fun heq => nomatch heq)
  · obtain ⟨s₀, hget₀⟩ := hbetween hget₁
    exact h.right.counted hafter hget₀ hget (h.counted i s₁ s₀ hget₁ hget₀ hcounted)
  · -- the queue timer: the old one, or set in this step
    cases hget : after.sessions[i]? with
    | none =>
        have hlt : w.state.sessions.length ≤ i :=
          hkept.length_le.trans (List.getElem?_eq_none_iff.mp hget)
        have hnone (v : Timed) (hle : v.ghost.length ≤ i) : (v.expiries i).queueTimer = none := by
          unfold Timed.expiries
          rw [List.getD_eq_getElem?_getD, List.getElem?_eq_none hle]
          rfl
        have hlength := hright.length
        rcases h.queue i with heq | ⟨since, -, heq⟩
        · refine .inl (Eq.trans ?_ heq)
          rw [hnone w (h.right.length ▸ hlt), hnone _ (hlength ▸ List.getElem?_eq_none_iff.mp hget)]
        · rw [hnone w (h.right.length ▸ hlt)] at heq
          cases heq
    | some s =>
        obtain ⟨more, hcalls, -, -⟩ := (hkept.sessions i s hget).clocked
        rw [expiries_setTimers hget hcalls]
        rcases foldl_arm_queueTimer w.state.clock more (w.expiries i) with heq | heq
        · rw [heq]
          exact h.queue i
        · exact .inr ⟨w.state.clock, h.clock, heq⟩
  · obtain ⟨s₀, hget₀⟩ := hbetween hget₁
    obtain ⟨hin₀, hsame₀⟩ := h.entered i s₁ s₀ hget₁ hget₀ hin
    obtain ⟨hin', hsame⟩ := (h.right.kept hafter hget hget₀).2 hin₀
    exact ⟨hin', hsame.trans hsame₀⟩

theorem since_of_runs {before after : List Event} (hcreate : ProxyServer.create config = .ok server)
    (hbefore : run (timedStep timeouts lag) (timedInit server) before = some w₁)
    (hafter : run (timedStep timeouts lag) w₁ after = some w₂) :
    w₁.Since config timeouts lag w₂ :=
  have hright : w₁.Right config timeouts lag :=
    run_induct hbefore (Timed.Right.init hcreate) fun _ _ _ h hstep => h.step hstep
  run_induct hafter (Timed.Since.refl hright) fun _ _ _ h hstep => h.step hstep

theorem served_of_runs {before after : List Event} {s : ProxySession}
    (hcreate : ProxyServer.create config = .ok server)
    (hbefore : run (timedStep timeouts lag) (timedInit server) before = some w₁)
    (hafter : run (timedStep timeouts lag) w₁ after = some w₂)
    (hs : w₂.state.sessions[i]? = some s) : s.Served := by
  have hrun : run (timedStep timeouts lag) (timedInit server) (before ++ after) = some w₂ := by
    rw [run_append, hbefore]
    exact hafter
  exact served_of_run hcreate (run_of_watch hrun) hs

/-- A request that was counted or started has ended. -/
theorem Timed.Since.concluded {s₁ s₂ : ProxySession} (h : w₁.Since config timeouts lag w₂)
    (hs₁ : w₁.state.sessions[i]? = some s₁) (hs₂ : w₂.state.sessions[i]? = some s₂)
    (hserved : s₂.Served) (hread : s₁.requestCounted = true ∨ s₂.requestStart.isSome = true)
    (hfinished : s₂.finished = true) : s₂.Concluded := by
  have hnot : ¬ s₂.Unread := by
    rintro ⟨-, huncounted, hunstarted⟩
    rcases hread with hcounted | hstarted
    · have hstill := h.counted i s₁ s₂ hs₁ hs₂ hcounted
      exact Bool.false_ne_true (huncounted.symm.trans hstill)
    · rw [hunstarted] at hstarted
      cases hstarted
  refine { (hserved.finished hfinished).resolve_right hnot with
    finished := hfinished
    permit := ?_ }
  refine Option.not_isSome_iff_eq_none.mp fun hpermit => ?_
  obtain ⟨op, running⟩ := (h.right.delivering.sound.phase i s₂ hs₂).running_of_permit hpermit
  exact Bool.false_ne_true (running.finished.symm.trans hfinished)

/-- A session that was started in `w₁` has concluded when its time is up. -/
theorem Timed.Since.expired {s₁ s₂ : ProxySession} (h : w₁.Since config timeouts lag w₂)
    (hright₁ : w₁.Right config timeouts lag) (hs₁ : w₁.state.sessions[i]? = some s₁)
    (hs₂ : w₂.state.sessions[i]? = some s₂) (hserved : s₂.Served)
    (hstarted : s₁.requestStart.isSome = true)
    (hlate : w₁.state.clock + milliseconds timeouts.requestTimeout + lag < w₂.state.clock) :
    s₂.Concluded := by
  obtain ⟨start, hstart⟩ := Option.isSome_iff_exists.mp hstarted
  have hle := (hright₁.clocked i s₁ hs₁).start start hstart
  have hstart₂ : s₂.requestStart = some start := by
    have hbefore : w₁.state.sessions[i]?.bind (·.requestStart) = some start := by
      rw [hs₁]
      exact hstart
    rcases h.start i s₂ hs₂ with heq | ⟨hnone, -⟩
    · exact heq.trans hbefore
    · exact absurd (hnone.symm.trans hbefore) (fun heq => nomatch heq)
  have hfinished : s₂.finished = true := Bool.eq_true_of_not_eq_false fun hopen => by
    have hbound := (h.right.running hs₂ hstart₂ hopen).2
    omega
  exact h.concluded hs₁ hs₂ hserved (.inr (by rw [hstart₂]; rfl)) hfinished

/-- In every timed run, whatever the upstream and the clients do, a session has finished, given its
permit back and told its client one `request_timeout` after it was started, no session waits in the
queue for longer than one `queue_timeout`, and one that had to wait has finished likewise after
both. -/
theorem requests_concludedInTime {before after : List Event} {s₁ s₂ : ProxySession}
    (hcreate : ProxyServer.create config = .ok server)
    (hbefore : run (timedStep timeouts lag) (timedInit server) before = some w₁)
    (hafter : run (timedStep timeouts lag) w₁ after = some w₂)
    (hs₁ : w₁.state.sessions[i]? = some s₁) (hs₂ : w₂.state.sessions[i]? = some s₂) :
    (s₁.requestStart.isSome = true →
      w₁.state.clock + milliseconds timeouts.requestTimeout + lag < w₂.state.clock →
      s₂.Concluded) ∧
    (s₁.queued = true →
      w₁.state.clock + milliseconds timeouts.queueTimeout + lag < w₂.state.clock →
      s₂.queued = false) ∧
    (s₁.queued = true →
      w₁.state.clock + milliseconds timeouts.queueTimeout + lag +
        milliseconds timeouts.requestTimeout + lag < w₂.state.clock →
      s₂.Concluded) := by
  have hsince := since_of_runs hcreate hbefore hafter
  have hserved := served_of_runs hcreate hbefore hafter hs₂
  have hright₁ : w₁.Right config timeouts lag :=
    run_induct hbefore (Timed.Right.init hcreate) fun _ _ _ h hstep => h.step hstep
  -- a session that waited in `w₁` and still waits was told to wait at the same time
  have hqueue (hqueued : s₁.queued = true) : ∃ since ≤ w₁.state.clock, s₂.entered = true ∧
      (w₂.expiries i).queueTimer = some (since + milliseconds timeouts.queueTimeout) := by
    obtain ⟨since, hle, hexpiry, -⟩ := hright₁.waiting hs₁ hqueued
    have hin : s₁.entered = true := by simp [ProxySession.entered, hqueued]
    obtain ⟨hin₂, hsame⟩ := hsince.entered i s₁ s₂ hs₁ hs₂ hin
    exact ⟨since, hle, hin₂, hsame.trans hexpiry⟩
  have hleft (hqueued : s₁.queued = true)
      (hlate : w₁.state.clock + milliseconds timeouts.queueTimeout + lag < w₂.state.clock) :
      s₂.queued = false := by
    obtain ⟨since, hle, -, hexpiry⟩ := hqueue hqueued
    refine Bool.eq_false_iff.mpr fun hwaits => ?_
    obtain ⟨since', -, hexpiry', hbound⟩ := hsince.right.waiting hs₂ hwaits
    have hsame := Option.some.inj (hexpiry.symm.trans hexpiry')
    omega
  refine ⟨fun hstarted => hsince.expired hright₁ hs₁ hs₂ hserved hstarted, hleft,
    fun hqueued hlate => ?_⟩
  obtain ⟨since, hle, hin, hexpiry⟩ := hqueue hqueued
  obtain ⟨-, counted, -⟩ := (hright₁.delivering.sound.phase i s₁ hs₁).waiting_of_queued hqueued
  refine hsince.concluded hs₁ hs₂ hserved (.inl counted) ?_
  refine Bool.eq_true_of_not_eq_false fun hfinished => ?_
  have hout := hleft hqueued (by omega)
  -- it has left the queue and is not finished, so it was started, before its queue timer expired
  obtain ⟨start, hstart⟩ : ∃ start, s₂.requestStart = some start := by
    simpa [ProxySession.entered, hout, hfinished, Option.isSome_iff_exists] using hin
  have hpromoted := (hsince.right.clocked i s₂ hs₂).queued start _ hstart hexpiry
  have hbound := (hsince.right.running hs₂ hstart hfinished).2
  omega

/-- One request takes the slot and another one waits for it. -/
def bothAsked : List Event :=
  [.accept, .complete 0 .readRequest { request := chatRequest }, .accept,
    .complete 1 .readRequest { request := chatRequest }, .runTask]

/-- Nothing happens but that the time of both runs out. -/
def timesUp : List Event :=
  [.tick 1000000000, .complete 1 (.queueTimer false) {}, .tick 29000000000,
    .complete 0 (.requestTimer false) {}, .tick 2000000000]

theorem timesUp_run : ∃ w₁ w₂ a b c d,
    run (timedStep {} 5) (timedInit oneSlotServer) bothAsked = some w₁ ∧
    run (timedStep {} 5) w₁ timesUp = some w₂ ∧
    (w₁.state.sessions = [a, b] ∧ w₁.state.clock = 0 ∧ a.requestStart = some 0 ∧ b.queued = true) ∧
    w₂.state.sessions = [c, d] ∧ w₂.state.clock = 32000000000 :=
  ⟨_, _, _, _, _, _, rfl, rfl, ⟨rfl, rfl, rfl, rfl⟩, rfl, rfl⟩

theorem requests_concludedInTime_timesUp : ∃ w₁ w₂ c d,
    run (timedStep {} 5) (timedInit oneSlotServer) bothAsked = some w₁ ∧
    run (timedStep {} 5) w₁ timesUp = some w₂ ∧ w₂.state.sessions = [c, d] ∧
    c.Concluded ∧ d.Concluded := by
  obtain ⟨w₁, w₂, a, b, c, d, hbefore, hafter, ⟨hs₁, hclock₁, hstarted, hqueued⟩, hs₂, hclock₂⟩ :=
    timesUp_run
  have hfirst := requests_concludedInTime oneSlotServer_create hbefore hafter
    (show w₁.state.sessions[0]? = some a by rw [hs₁]; rfl)
    (show w₂.state.sessions[0]? = some c by rw [hs₂]; rfl)
  have hsecond := requests_concludedInTime oneSlotServer_create hbefore hafter
    (show w₁.state.sessions[1]? = some b by rw [hs₁]; rfl)
    (show w₂.state.sessions[1]? = some d by rw [hs₂]; rfl)
  rw [hclock₁, hclock₂] at hfirst hsecond
  exact ⟨w₁, w₂, c, d, hbefore, hafter, hs₂, hfirst.1 (by rw [hstarted]; rfl) (by decide),
    hsecond.2.2 hqueued (by decide)⟩

theorem errorBody_queueTimeout : ∀ failure ∈ failures,
    errorBody failure.2 = errorBody "queue timeout" →
      failure = (.tooManyRequests, "queue timeout") := by
  decide

/-- In every timed run, a client is told that its request has timed out only if `request_timeout`
has passed since each state in which the request had not been started, and that it has waited too
long only if `queue_timeout` has passed since each state in which it had not been put in the queue.
-/
theorem timeouts_neverEarly {before after : List Event} {s : ProxySession} {response : HttpResponse}
    {valid : Bool} (hcreate : ProxyServer.create config = .ok server)
    (hbefore : run (timedStep timeouts lag) (timedInit server) before = some w₁)
    (hafter : run (timedStep timeouts lag) w₁ after = some w₂)
    (hs : w₂.state.sessions[i]? = some s) (hcall : .start (.writeError response) valid ∈ s.calls) :
    (response.status = .gatewayTimeout →
      (∀ s₁, w₁.state.sessions[i]? = some s₁ → s₁.requestStart = none) →
      w₁.state.clock + milliseconds timeouts.requestTimeout ≤ w₂.state.clock) ∧
    (response.body = errorBody "queue timeout" →
      (∀ s₁, w₁.state.sessions[i]? = some s₁ → s₁.entered = false) →
      w₁.state.clock + milliseconds timeouts.queueTimeout ≤ w₂.state.clock) := by
  have hsince := since_of_runs hcreate hbefore hafter
  have hright₁ : w₁.Right config timeouts lag :=
    run_induct hbefore (Timed.Right.init hcreate) fun _ _ _ h hstep => h.step hstep
  obtain ⟨failure, ⟨hmem, htold⟩, rfl⟩ := (hsince.right.delivering.authentic i s hs).carries hcall
  obtain ⟨hrequest, hqueue⟩ := htold s hs
  refine ⟨fun hstatus hnone => ?_, fun hbody hout => ?_⟩
  · obtain ⟨start, hstart, hpassed⟩ := hrequest hstatus
    have hbind : w₁.state.sessions[i]?.bind (·.requestStart) = none := by
      cases hget : w₁.state.sessions[i]? with
      | none => rfl
      | some s₁ => exact hnone s₁ hget
    -- the request was started after `w₁`, as it had not been then
    rcases hsince.start i s hs with heq | ⟨-, start', hle, heq⟩
    · exact absurd ((heq.trans hbind).symm.trans hstart) (fun heq => nomatch heq)
    · obtain rfl := Option.some.inj (hstart.symm.trans heq)
      omega
  · obtain ⟨-, since, hexpiry, hpassed⟩ := hqueue (errorBody_queueTimeout failure hmem hbody)
    have hunset : (w₁.expiries i).queueTimer = none := by
      cases hget : w₁.state.sessions[i]? with
      | none =>
          unfold Timed.expiries
          rw [List.getD_eq_getElem?_getD, List.getElem?_eq_none
            (hright₁.length ▸ List.getElem?_eq_none_iff.mp hget)]
          rfl
      | some s₁ =>
          refine Option.not_isSome_iff_eq_none.mp fun hset => ?_
          have hin := (hright₁.clocked i s₁ hget).entered hset
          exact Bool.false_ne_true ((hout s₁ hget).symm.trans hin)
    -- the queue timer was set after `w₁`, as it had not been then
    rcases hsince.queue i with heq | ⟨since', hle, heq⟩
    · exact absurd ((heq.trans hunset).symm.trans hexpiry) (fun heq => nomatch heq)
    · have hsame := Option.some.inj (hexpiry.symm.trans heq)
      omega

/-- A request whose time runs out. -/
def requestTimedOut : List Event :=
  [.complete 0 .readRequest { request := chatRequest }, .tick 30000000000,
    .complete 0 (.requestTimer false) {}]

theorem timeouts_neverEarly_requestTimedOut : ∃ w₁ w₂,
    run (timedStep {} 0) (timedInit oneSlotServer) [.accept] = some w₁ ∧
    run (timedStep {} 0) w₁ requestTimedOut = some w₂ ∧
    w₁.state.clock + milliseconds 30000 ≤ w₂.state.clock := by
  obtain ⟨w₁, w₂, s₁, s, response, valid, hbefore, hafter, hs₁, hs, hnone, hcall, hstatus⟩ :
      ∃ w₁ w₂ s₁ s response valid,
        run (timedStep {} 0) (timedInit oneSlotServer) [.accept] = some w₁ ∧
        run (timedStep {} 0) w₁ requestTimedOut = some w₂ ∧
        w₁.state.sessions = [s₁] ∧ w₂.state.sessions = [s] ∧ s₁.requestStart = none ∧
        s.calls.getLast? = some (.start (.writeError response) valid) ∧
        response.status = .gatewayTimeout :=
    ⟨_, _, _, _, _, _, rfl, rfl, rfl, rfl, rfl, rfl, rfl⟩
  refine ⟨w₁, w₂, hbefore, hafter, (timeouts_neverEarly (i := 0) oneSlotServer_create hbefore hafter
    (by rw [hs]; rfl) (List.mem_of_getLast? hcall)).1 hstatus fun s₁' hget => ?_⟩
  rw [hs₁] at hget
  exact Option.some.inj hget ▸ hnone

end World

end VllmSloProxy
