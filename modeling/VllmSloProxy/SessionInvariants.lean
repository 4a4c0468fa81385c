import VllmSloProxy.WorldSteps

/-!
# Invariants of single sessions

What every change of a session keeps, a step keeps.  The rule here also knows the configuration and
the clock of the step, which a chain of quiet changes has lost.
-/

namespace VllmSloProxy

open Context

namespace ProxyServer

/-- The limits that the server was made with. -/
structure Configured (config : ProxyConfig) (server : ProxyServer) : Prop where
  config_eq : server.config = config
  maxInflight : server.limiter.maxInflight = config.maxInflight
  maxQueueSize : server.limiter.maxQueueSize = config.maxQueueSize

variable {config : ProxyConfig} {server server' : ProxyServer}

theorem Configured.frame (h : server.Configured config) (hframe : server.Frame server') :
    server'.Configured config :=
  ⟨hframe.config.trans h.config_eq, hframe.maxInflight.trans h.maxInflight,
    hframe.maxQueueSize.trans h.maxQueueSize⟩

theorem Configured.of_limiter (h : server.Configured config)
    (hconfig : server'.config = server.config)
    (hlimiter : server'.limiter = server.limiter) : server'.Configured config :=
  ⟨hconfig.trans h.config_eq, by rw [hlimiter, h.maxInflight], by rw [hlimiter, h.maxQueueSize]⟩

end ProxyServer

namespace World

variable {config : ProxyConfig} {server : ProxyServer} {w w' w₀ : World} {i : Nat}
  {p : Nat → ProxySession → Prop}

/-- A property of single sessions that every change but a completion keeps in a step from `w`. -/
structure KeptFrom (config : ProxyConfig) (w : World) (p : Nat → ProxySession → Prop) : Prop where
  created : ∀ sseParser : SseParser, sseParser.reset = sseParser →
    p w.sessions.length (({ sseParser } : ProxySession).start .readRequest)
  closed : ∀ i s, p i s → p i (s.note .closeClient)
  enqueued : ∀ i (s : ProxySession), s.Idle → s.queued = false → s.pending = [] → p i s →
    p i (({ s with queued := true } : ProxySession).start (.queueTimer false))
  promoted : ∀ i (s : ProxySession), s.Idle → s.pending = [.queueTimer false] → p i s →
    p i (startedFromQueue config.upstreamHost (decimal config.upstreamPort) w.clock s)
  destroyed : ∀ i s, p i s → p i { s with destroyed := true }

/-- The sessions meet `p`, in a world with the clock of `w₀`. -/
structure Within (config : ProxyConfig) (p : Nat → ProxySession → Prop) (w₀ w : World) :
    Prop where
  sound : w.Sound
  configured : w.server.Configured config
  clock_eq : w.clock = w₀.clock
  length_le : w₀.sessions.length ≤ w.sessions.length
  sessions : ∀ (i : Nat) (s : ProxySession), w.sessions[i]? = some s → p i s

theorem Within.books (h : Within config p w₀ w) (hsame : SameBooks w w')
    (hconfigured : w'.server.Configured config) (hclock : w'.clock = w.clock) :
    Within config p w₀ w' :=
  ⟨h.sound.quiet (.books w' hsame), hconfigured, hclock.trans h.clock_eq,
    hsame.sessions ▸ h.length_le, hsame.sessions ▸ h.sessions⟩

theorem Within.closeClient (hp : KeptFrom config w₀ p) (h : Within config p w₀ w) (i : Nat) :
    Within config p w₀ (w.onSession i closeClient) := by
  unfold onSession
  split
  · exact h
  · rename_i s hlock
    obtain ⟨hget, -⟩ := lock_eq_some.mp hlock
    exact ⟨h.sound.quiet (.closed i s hlock), h.configured, h.clock_eq,
      h.length_le.trans_eq List.length_set.symm, forall_put (c := (w.context i s).closeClient)
        h.sessions hget (hp.closed i s (h.sessions i s hget))⟩

/-- One session that waits is granted a slot. -/
theorem Within.promote {s : ProxySession} (hp : KeptFrom config w₀ p) (h : Within config p w₀ w)
    (halive : w.server.alive = true) (hlock : w.lock i = some s) (hqueued : s.queued = true)
    (hclosed : w.server.limiter.closed = false) (hwaiting : 0 < w.server.limiter.queuedRequests)
    (hslot : w.server.limiter.currentInflight < w.server.limiter.maxInflight) :
    Within config p w₀ (w.takePromoted.put
      ((w.takePromoted.context i s).tryStartFromQueue (Permit.owning ())).2) := by
  obtain ⟨hget, -⟩ := lock_eq_some.mp hlock
  obtain ⟨idle, -, pending, -⟩ := (h.sound.phase i s hget).waiting_of_queued hqueued
  have hframe := tryStartFromQueue_frame (c := w.takePromoted.context i s) (Permit.owning ())
  have htaken : w.takePromoted.server.Configured config :=
    ⟨h.configured.1, h.configured.2, h.configured.3⟩
  refine ⟨h.sound.quiet (.promoted i s halive hlock hqueued hclosed hwaiting hslot),
    htaken.frame hframe.server, h.clock_eq, h.length_le.trans_eq List.length_set.symm, ?_⟩
  rw [tryStartFromQueue_of_queued (c := w.takePromoted.context i s) _ hqueued idle.finished,
    startProxyRequest_eq (c := (w.takePromoted.context i s).dequeued) _ halive idle.permit]
  refine forall_put (w := w.takePromoted) (s := s) h.sessions hget ?_
  show p i (startedFromQueue w.server.config.upstreamHost (decimal w.server.config.upstreamPort)
    w.clock s)
  rw [h.configured.config_eq, h.clock_eq]
  exact hp.promoted i s idle pending (h.sessions i s hget)

theorem Within.promoteLoop (hp : KeptFrom config w₀ p) (queue : List Nat) (w : World)
    (halive : w.server.alive = true) (h : Within config p w₀ w) :
    Within config p w₀ (w.promoteLoop queue) := by
  have hpopped {w : World} (h : Within config p w₀ w) (queue : List Nat) :
      Within config p w₀ (w.setQueue queue) :=
    h.books (w.setQueue_sameBooks queue) ⟨h.configured.1, h.configured.2, h.configured.3⟩ rfl
  -- the loop of `promote_queued_sessions`, along the queue it was given
  induction queue generalizing w with
  | nil => exact hpopped h []
  | cons i queue ih =>
      rw [World.promoteLoop]
      cases hlock : w.lock i with
      | none => exact ih _ halive (hpopped h queue)
      | some s =>
          dsimp only
          cases hqueued : s.queued with
          | false => exact ih _ halive (hpopped h queue)
          | true =>
              rw [Bool.not_true, if_neg Bool.false_ne_true]
              rcases w.server.limiter.tryPromoteQueued_cases () with
                ⟨-, hpromote⟩ | ⟨hclosed, hwaiting, hslot, hpromote⟩
              · -- no slot: the session is dropped when no reservation is left, else put back
                rw [hpromote]
                split
                · split
                  · exact ih _ halive (hpopped h queue)
                  · exact hpopped h (i :: queue)
                · rename_i hvalid
                  exact absurd rfl hvalid
              · -- the session is started, in the permit that the limiter gave
                rw [hpromote]
                have hframe := tryStartFromQueue_frame
                  (c := (w.setQueue queue).takePromoted.context i s) (Permit.owning ())
                have hput := Within.promote (w := w.setQueue queue) hp (hpopped h queue) halive
                  (i := i) hlock hqueued hclosed hwaiting hslot
                exact ih _ (hframe.server.alive.trans halive) hput

/-- The task at the head of the strand runs. -/
theorem Within.runTask {task : Task} {strand : List Task} (hp : KeptFrom config w p)
    (h : Within config p w w) (hstrand : w.server.strand = task :: strand) :
    Within config p w ((w.setStrand strand).runTask task) := by
  have hlimits (server : ProxyServer) (hconfig : server.config = w.server.config)
      (hlimiter : server.limiter = w.server.limiter) : server.Configured config :=
    h.configured.of_limiter hconfig hlimiter
  have halive : w.server.alive = true := h.sound.alive_of_strand (hstrand ▸ List.cons_ne_nil _ _)
  cases task with
  | enqueue i =>
      obtain ⟨s, hlock⟩ := h.sound.lock_of_head hstrand
      obtain ⟨hget, -⟩ := lock_eq_some.mp hlock
      have hposted : w.server.posted i ≠ 0 := by
        rw [ProxyServer.posted_head hstrand]
        exact Nat.succ_ne_zero _
      obtain ⟨idle, queued, -, pending, -⟩ := (h.sound.phase i s hget).asked_of_posted hposted
      have hpopped : Within config p w (w.setStrand strand) :=
        ⟨h.sound.popEnqueue hstrand _ rfl rfl rfl, hlimits _ rfl rfl, rfl,
          Nat.le_refl _, h.sessions⟩
      show Within config p w ((w.setStrand strand).enqueued i)
      unfold enqueued
      split
      · exact hpopped.closeClient hp i
      · show Within config p w ((w.takeEnqueue i strand).onSession i startQueueTimer)
        have hsound := h.sound.quiet (.enqueued i s strand hstrand hlock)
        rw [onSession_of_lock (w := w.takeEnqueue i strand) hlock]
        rw [startQueueTimer_eq halive] at hsound ⊢
        exact ⟨hsound, hlimits _ rfl rfl, rfl, List.length_set.ge,
          forall_put (w := w.takeEnqueue i strand) h.sessions hget
          (hp.enqueued i s idle queued pending (h.sessions i s hget))⟩
  | promote =>
      have hbooks := setStrand_sameBooks hstrand fun _ heq => nomatch heq
      exact Within.promoteLoop hp _ _ halive (h.books hbooks (hlimits _ rfl rfl) rfl)
  | stop =>
      have hbooks := setStrand_sameBooks hstrand fun _ heq => nomatch heq
      have hclosing : Within config p w ((w.setStrand strand).setServer
          { w.server with stopping := true, limiter := w.server.limiter.close, strand }) :=
        h.books ⟨rfl, rfl, rfl, rfl, rfl, rfl, hbooks.posted, id, hbooks.idle, Nat.le_refl _⟩
          ⟨h.configured.1, h.configured.2, h.configured.3⟩ rfl
      have hall (queue : List Nat) (w' : World) (h' : Within config p w w') :
          Within config p w (queue.foldl (fun w i => w.onSession i Context.closeClient) w') := by
        induction queue generalizing w' with
        | nil => exact h'
        | cons i queue ih => exact ih _ (h'.closeClient hp i)
      have hclosed := hall w.server.queuedSessions _ hclosing
      exact hclosed.books (setQueue_sameBooks _ [])
        ⟨hclosed.configured.1, hclosed.configured.2, hclosed.configured.3⟩ rfl

/-- What a step has kept. -/
structure Kept (config : ProxyConfig) (p : Nat → ProxySession → Prop) (w : World) (e : Event)
    (w' : World) : Prop where
  configured : w'.server.Configured config
  clock_eq : (∀ n, e ≠ .tick n) → w'.clock = w.clock
  length_le : w.sessions.length ≤ w'.sessions.length
  sessions : ∀ (i : Nat) (s : ProxySession), w'.sessions[i]? = some s → p i s

/-- What every change of a session keeps, a step keeps. -/
theorem KeptFrom.step {e : Event} (hp : KeptFrom config w p) (h : w.Sound)
    (hconfigured : w.server.Configured config) (hstep : World.step w e = some w')
    (hall : ∀ (i : Nat) (s : ProxySession), w.sessions[i]? = some s → p i s)
    (hcomplete : ∀ i op r s, e = .complete i op r → w.lock i = some s → op ∈ s.pending →
      deliverable s op r = true → p i ((w.context i (deliver s op r)).handle op r).self) :
    Kept config p w e w' := by
  have hlimits (server : ProxyServer) (hconfig : server.config = w.server.config)
      (hlimiter : server.limiter = w.server.limiter) : server.Configured config :=
    hconfigured.of_limiter hconfig hlimiter
  cases e with
  | accept =>
      simp only [World.step, accepted] at hstep
      split at hstep
      · split at hstep
        · cases hstep
        · rename_i sseParser hcreate
          obtain rfl := Option.some.inj hstep
          refine ⟨hlimits _ rfl rfl, fun _ => rfl, ?_, fun i s hi => ?_⟩
          · rw [List.length_append]
            exact Nat.le_add_right _ _
          -- a session from before, or the one just created
          rcases Population.getElem?_snoc hi with hi | ⟨rfl, rfl⟩
          · exact hall i s hi
          · exact hp.created sseParser (SseParser.create_reset hcreate)
      · cases hstep
  | acceptFailed =>
      simp only [World.step] at hstep
      split at hstep
      · obtain rfl := Option.some.inj hstep
        exact ⟨hlimits _ rfl rfl, fun _ => rfl, Nat.le_refl _, hall⟩
      · cases hstep
  | complete i op r =>
      obtain ⟨s, hlock, hmem, hdeliverable, rfl⟩ := complete_eq_some hstep
      obtain ⟨hget, -⟩ := lock_eq_some.mp hlock
      have hframe := (handle_handled op r (w.context i (deliver s op r))).frame
      -- the handler changes its own session only
      have hid : ((w.context i (deliver s op r)).handle op r).id = i := hframe.id
      refine ⟨hconfigured.frame hframe.server, fun _ => rfl, List.length_set.ge,
        forall_put (s := s) hall (by rw [hid]; exact hget) ?_⟩
      rw [hid]
      exact hcomplete i op r s rfl hlock hmem hdeliverable
  | runTask =>
      simp only [World.step] at hstep
      split at hstep
      · cases hstep
      · rename_i task strand hstrand
        obtain rfl := Option.some.inj hstep
        have hran := Within.runTask hp ⟨h, hconfigured, rfl, Nat.le_refl _, hall⟩ hstrand
        exact ⟨hran.configured, fun _ => hran.clock_eq, hran.length_le, hran.sessions⟩
  | stop =>
      simp only [World.step] at hstep
      split at hstep
      · obtain rfl := Option.some.inj hstep
        exact ⟨hlimits _ rfl rfl, fun _ => rfl, Nat.le_refl _, hall⟩
      · cases hstep
  | destroySession i =>
      simp only [World.step, Option.bind_eq_bind, Option.bind_eq_some_iff,
        Option.guard_eq_some'] at hstep
      obtain ⟨s, hlock, -, ⟨hpending, -⟩, hput⟩ := hstep
      obtain rfl := Option.some.inj hput
      obtain ⟨hget, -⟩ := lock_eq_some.mp hlock
      -- nothing is pending, so the destructor gives back no slot
      rw [h.destruct_eq hlock hpending]
      exact ⟨hconfigured, fun _ => rfl, List.length_set.ge,
        forall_put (c := (w.context i s).setSelf { s with destroyed := true }) hall hget
        (hp.destroyed i s (hall i s hget))⟩
  | destroyServer =>
      simp only [World.step] at hstep
      split at hstep
      · obtain rfl := Option.some.inj hstep
        exact ⟨hlimits _ rfl rfl, fun _ => rfl, Nat.le_refl _, hall⟩
      · cases hstep
  | tick n =>
      obtain rfl := Option.some.inj hstep
      exact ⟨hlimits _ rfl rfl, fun hne => absurd rfl (hne n), Nat.le_refl _, hall⟩

end World

end VllmSloProxy
