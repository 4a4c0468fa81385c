import VllmSloProxy.HealthFigures
import VllmSloProxy.ThreadSlots
import VllmSloProxy.Timers

/-!
# Shutdown

The task of `stop` closes the limiter and empties the queue.  From then on no session gets a slot,
in any interleaving of the threads; on one thread all slots come back within one `request_timeout`.
-/

namespace VllmSloProxy

open Context Transition Population ProxySession

namespace ThreadedProxy

/-- The task of `stop` has run in `w₁` or before it, and `w` has been reached from there. -/
structure Halted (w₁ w : ThreadedProxy) : Prop where
  stopping : w.server.stopping = true
  closed : w.server.limiter.closed = true
  queue : w.server.queuedSessions = []
  point : w.point = .free ∨ w.point = .looping
  slots : w.server.limiter.currentInflight ≤ w₁.server.limiter.currentInflight
  sessions : w.sessions.length + w.server.accepting.toNat ≤
    w₁.sessions.length + w₁.server.accepting.toNat
  told : ∀ i, (w.session i).told = true → (w₁.session i).told = true
  owner : ∀ i, (w.session i).owns = true → (w₁.session i).owns = true
  admitted : ∀ i, (w.session i).point = .admitted → (w₁.session i).point = .admitted
  started : ∀ i, (w.session i).started = true →
    (w₁.session i).started = true ∨ (w₁.session i).point = .admitted

variable {config : ProxyConfig} {server : ProxyServer} {w w' w₁ w₂ : ThreadedProxy}
  {e : ThreadEvent}
  {i : Nat} {s s' : ThreadedSession} {limiter : InflightLimiter Task}

namespace Halted

theorem here (h : Halted w₁ w) : Halted w w :=
  ⟨h.stopping, h.closed, h.queue, h.point, Nat.le_refl _, Nat.le_refl _, fun _ => id, fun _ => id,
    fun _ => id, fun _ => .inl⟩

/-- What every session has from `w₁`, the one that goes on has too. -/
theorem of_put {p : ThreadedSession → Prop} {q : Nat → Prop} (hs : w.sessions[i]? = some s)
    (hall : ∀ j, p (w.session j) → q j) (hself : p s' → q i) (j : Nat)
    (hput : p ((w.put i s').session j)) : q j := by
  by_cases hj : j = i
  · rw [hj, session_put hs] at hput
    exact hj ▸ hself hput
  · rw [session_put_ne hj] at hput
    exact hall j hput

/-- A session goes on that gets nothing from the limiter. -/
theorem put (h : Halted w₁ w) (hs : w.sessions[i]? = some s)
    (htold : s'.told = true → s.told = true) (howns : s'.owns = true → s.owns = true)
    (hadmitted : s'.point = .admitted → s.point = .admitted)
    (hstarted : s'.started = true → s.started = true ∨ s.point = .admitted) :
    Halted w₁ (w.put i s') := by
  have hsession : w.session i = s := session_of_get hs
  refine ⟨h.stopping, h.closed, h.queue, h.point, h.slots, ?_,
    of_put (p := fun s => s.told = true) hs h.told fun heq => ?_,
    of_put (p := fun s => s.owns = true) hs h.owner fun heq => ?_,
    of_put (p := fun s => s.point = .admitted) hs h.admitted fun heq => ?_,
    of_put (p := fun s => s.started = true) hs h.started fun heq => ?_⟩
  · show (w.sessions.set i s').length + _ ≤ _
    rw [List.length_set]
    exact h.sessions
  · exact h.told i (hsession ▸ htold heq)
  · exact h.owner i (hsession ▸ howns heq)
  · exact h.admitted i (hsession ▸ hadmitted heq)
  · rcases hstarted heq with hbegun | hpoint
    · exact h.started i (hsession ▸ hbegun)
    · exact .inr (h.admitted i (hsession ▸ hpoint))

/-- A handler of the session goes on that asks the limiter nothing. -/
theorem calmly (h : Halted w₁ w) (hs : w.sessions[i]? = some s) (htold : s'.told = s.told)
    (howns : s'.owns = s.owns) (hpoint : s'.point ≠ .admitted) (hstarted : s'.started = s.started) :
    Halted w₁ (w.put i s') :=
  h.put hs (fun heq => htold.symm.trans heq) (fun heq => howns.symm.trans heq)
    (fun heq => absurd heq hpoint) fun heq => .inl (hstarted.symm.trans heq)

theorem setLimiter (h : Halted w₁ w) (hclosed : limiter.closed = w.server.limiter.closed)
    (hslots : limiter.currentInflight ≤ w.server.limiter.currentInflight) :
    Halted w₁ (w.setLimiter limiter) :=
  ⟨h.stopping, hclosed.trans h.closed, h.queue, h.point, hslots.trans h.slots, h.sessions, h.told,
    h.owner, h.admitted, h.started⟩

theorem setStrand (h : Halted w₁ w) (strand : List Task) : Halted w₁ (w.setStrand strand) :=
  ⟨h.stopping, h.closed, h.queue, h.point, h.slots, h.sessions, h.told, h.owner, h.admitted,
    h.started⟩

theorem post (h : Halted w₁ w) (task : Task) : Halted w₁ (w.post task) := h.setStrand _

theorem goTo (h : Halted w₁ w) {point : StrandPoint} (hpoint : point = .free ∨ point = .looping) :
    Halted w₁ (w.goTo point) :=
  ⟨h.stopping, h.closed, h.queue, hpoint, h.slots, h.sessions, h.told, h.owner, h.admitted,
    h.started⟩

theorem begin (h : Halted w₁ w) (task : Task) : Halted w₁ (w.begin task) := by
  cases task with
  | enqueue i =>
      rw [ThreadedProxy.begin, if_pos h.stopping]
      exact h
  | promote => exact h.goTo (.inr rfl)
  | stop =>
      exact ⟨rfl, rfl, rfl, h.point, h.slots, h.sessions, h.told, h.owner, h.admitted, h.started⟩

theorem settle_point_ne (s : ThreadedSession) : s.settle.point ≠ .admitted := by
  rcases settle_point s with heq | heq <;> rw [heq] <;> nofun

theorem settle (h : Halted w₁ w) (hs : w.sessions[i]? = some s) : Halted w₁ (w.put i s.settle) :=
  h.calmly hs (settle_sameStory s).told (settle_owns s) (settle_point_ne s) (settle_started s)

/-- A closed limiter turns every request away. -/
theorem handleRequest (h : Halted w₁ w) (hs : w.sessions[i]? = some s) :
    Halted w₁ (w.handleRequest i s) := by
  unfold ThreadedProxy.handleRequest InflightLimiter.tryAcquireOrQueue
  rw [if_pos h.closed]
  exact h.settle hs

theorem cancelFor (h : Halted w₁ w) (hs : w.sessions[i]? = some s) {next : SessionPoint}
    (hnext : next ≠ .admitted) : Halted w₁ (w.cancelFor i s next) := by
  have hlimiter : Halted w₁ (w.setLimiter w.server.limiter.cancelQueued.2) := by
    rcases w.server.limiter.cancelQueued_cases with ⟨-, heq⟩ | ⟨-, heq⟩ <;> rw [heq]
    · exact h
    · exact h.setLimiter rfl (Nat.le_refl _)
  exact hlimiter.calmly hs rfl rfl hnext rfl

theorem release (h : Halted w₁ w) (hs : w.sessions[i]? = some s) :
    Halted w₁ (w.releaseFor i s) := by
  unfold releaseFor
  have hpoint : (w.release s.permit).2.elim .idle SessionPoint.posting ≠ .admitted := by
    cases (w.release s.permit).2 <;> nofun
  rcases w.release_cases s.permit with heq | heq <;> rw [heq] at hpoint ⊢
  · exact h.put hs id nofun (fun heq => absurd heq hpoint) .inl
  · refine Halted.put ?_ hs id nofun (fun heq => absurd heq hpoint) .inl
    exact h.setLimiter rfl (Nat.sub_le _ _)

theorem accept (h : Halted w₁ w) (haccepting : w.server.accepting = true) :
    Halted w₁ { w with
      server := { w.server with accepting := !w.server.stopping }
      sessions := w.sessions ++ [{}] } := by
  refine ⟨h.stopping, h.closed, h.queue, h.point, h.slots, ?_, fun j => ?_, fun j => ?_,
    fun j => ?_, fun j => ?_⟩
  · have hle := h.sessions
    rw [haccepting] at hle
    rw [List.length_append, h.stopping]
    exact hle
  · rw [session_snoc]
    exact h.told j
  · rw [session_snoc]
    exact h.owner j
  · rw [session_snoc]
    exact h.admitted j
  · rw [session_snoc]
    exact h.started j

theorem step (h : Halted w₁ w) (hstep : w.step e = some w') : Halted w₁ w' := by
  have hmove := step_move hstep
  cases hmove with
  | accept =>
      simp only [ThreadedProxy.step] at hstep
      split at hstep
      · rename_i hcond
        exact h.accept hcond.2
      · cases hstep
  | admitted | told | turnedAway =>
      obtain ⟨s, hlock, -, heq⟩ := begins hstep
      rw [← heq]
      exact h.handleRequest (lock_eq_some.mp hlock).1
  | dismiss hlock | timerChecked hlock =>
      exact h.calmly (lock_eq_some.mp hlock).1 rfl rfl (by simp) rfl
  | timerIgnored hlock => exact h.put (lock_eq_some.mp hlock).1 id id id .inl
  | destroySession hlock =>
      refine h.calmly (lock_eq_some.mp hlock).1 rfl rfl ?_ rfl
      simp only
      split <;> simp
  | endRequest hlock => exact h.settle (lock_eq_some.mp hlock).1
  -- the one start that is left
  | began hs hpoint => exact h.put hs id id (fun _ => hpoint) fun _ => .inr hpoint
  | timerCleared hs => exact h.calmly hs rfl rfl (by simp) rfl
  | timedOut hs =>
      exact h.calmly hs (settle_sameStory _).told (settle_owns _) (settle_point_ne _)
        (settle_started _)
  | posted hs | calledBack hs => exact (h.post _).calmly hs rfl rfl (by simp) rfl
  | cancelled hs | destroyed hs => exact h.cancelFor hs (by simp)
  | released hs => exact h.release hs
  | begin hpoint hstrand => exact (h.setStrand _).begin _
  | ranDry => exact h.goTo (.inl rfl)
  | skipped _ hqueue | popped _ hqueue => cases h.queue.symm.trans hqueue
  | stored _ hpoint | armed _ hpoint | stillQueued _ hpoint | notQueued _ hpoint
  | granted _ hpoint | refused hpoint | dropped hpoint | putBack hpoint | readQueued _ hpoint
  | willStart _ hpoint | cleared _ hpoint | starting _ hpoint | started _ hpoint
  | gaveBack hpoint | posting hpoint =>
      -- the strand has no session in hand
      rcases h.point with hfree | hfree <;> cases hfree.symm.trans hpoint
  | tooLate _ hpoint =>
      rcases hpoint with ⟨hpoint, -⟩ | ⟨hpoint, -⟩ <;>
        rcases h.point with hfree | hfree <;> cases hfree.symm.trans hpoint
  | stop => exact h.post _

end Halted

/-- Only the task of `stop` makes the server stop. -/
theorem stopping_of_move (h : Move w e w') : w'.server.stopping = w.server.stopping ∨
    w'.server.limiter.closed = true ∧ w'.server.queuedSessions = [] ∧ w'.point = .free := by
  have hrelease (permit : ServerPermit) :
      (w.release permit).1.server.stopping = w.server.stopping := by
    rcases w.release_cases permit with heq | heq <;> exact congrArg (·.1.server.stopping) heq
  cases h with
  | @begin task strand hpoint =>
      cases task with
      | enqueue i =>
          refine .inl ?_
          rw [ThreadedProxy.begin]
          split <;> rfl
      | promote => exact .inl rfl
      | stop => exact .inr ⟨rfl, rfl, hpoint⟩
  | released | gaveBack => exact .inl (hrelease _)
  | _ => exact .inl rfl

theorem halted_of_stopping {events : List ThreadEvent}
    (hcreate : ProxyServer.create config = .ok server)
    (hrun : run step (init server) events = some w) (hstopping : w.server.stopping = true) :
    Halted w w := by
  refine run_induct (p := fun w => w.server.stopping = true → Halted w w) hrun ?_ ?_ hstopping
  · intro hstop
    have hstarted := World.create_started hcreate
    exact absurd (hstarted.stopping.symm.trans hstop) Bool.false_ne_true
  · intro w e w' h hstep hstop
    rcases stopping_of_move (step_move hstep) with heq | ⟨hclosed, hqueue, hpoint⟩
    · exact ((h (heq ▸ hstop)).step hstep).here
    · exact ⟨hstop, hclosed, hqueue, .inl hpoint, Nat.le_refl _, Nat.le_refl _, fun _ => id,
        fun _ => id, fun _ => id, fun _ => .inl⟩

/-- Once the task of `stop` has run, in every interleaving, no session is told to wait or gets a
slot, and only one that has its answer Admit already is still started; no more than the session of
the accept under way is made, the queue stays empty, and slots only come back. -/
theorem nothingGranted_afterStop {before after : List ThreadEvent}
    (hcreate : ProxyServer.create config = .ok server)
    (hbefore : run step (init server) before = some w₁) (hstopping : w₁.server.stopping = true)
    (hafter : run step w₁ after = some w₂) :
    (∀ i, (w₂.session i).told = true → (w₁.session i).told = true) ∧
    (∀ i, (w₂.session i).owns = true → (w₁.session i).owns = true) ∧
    (∀ i, (w₂.session i).started = true →
      (w₁.session i).started = true ∨ (w₁.session i).point = .admitted) ∧
    w₂.sessions.length ≤ w₁.sessions.length + w₁.server.accepting.toNat ∧
    w₂.server.queuedSessions = [] ∧
    w₂.server.limiter.currentInflight ≤ w₁.server.limiter.currentInflight := by
  have hhalted : Halted w₁ w₂ := run_induct hafter (halted_of_stopping hcreate hbefore hstopping)
    fun _ _ _ h hstep => h.step hstep
  exact ⟨hhalted.told, hhalted.owner, hhalted.started,
    (Nat.le_add_right _ _).trans hhalted.sessions, hhalted.queue, hhalted.slots⟩

/-- The server stops while one request waits and another has its answer Admit. -/
def stopsFull : List ThreadEvent :=
  [.accept, .accept, .request 0, .request 1, .session 1, .strand, .strand, .strand, .stop, .strand]

/-- The answer is acted on, the slot comes back, and a request is read that was accepted late. -/
def afterFull : List ThreadEvent :=
  [.session 0, .accept, .endRequest 0, .session 0, .session 0, .strand, .strand, .request 2,
    .queueTimer 1 false, .session 1, .session 1, .session 1]

theorem nothingGranted_afterStop_afterFull : ∃ w₁ w₂,
    run step (init World.oneSlotServer) stopsFull = some w₁ ∧ run step w₁ afterFull = some w₂ ∧
    w₁.sessions.map (fun s => (s.started, s.point)) = [(false, .admitted), (false, .idle)] ∧
    w₂.sessions.map (fun s => s.started) = [true, false, false] ∧
    (∀ i, (w₂.session i).owns = true → (w₁.session i).owns = true) ∧
    ∀ i, (w₂.session i).started = true →
      (w₁.session i).started = true ∨ (w₁.session i).point = .admitted := by
  have hruns : ((run step (init World.oneSlotServer) stopsFull).any fun w₁ =>
      decide (w₁.server.stopping = true ∧
        w₁.sessions.map (fun s => (s.started, s.point)) = [(false, .admitted), (false, .idle)]) &&
      (run step w₁ afterFull).any fun w₂ =>
        decide (w₂.sessions.map (fun s => s.started) = [true, false, false])) = true := by
    decide +kernel
  obtain ⟨w₁, hbefore, hw₁⟩ := Option.any_eq_true _ _ |>.mp hruns
  obtain ⟨hstopped, hw₂⟩ := Bool.and_eq_true_iff.mp hw₁
  obtain ⟨hstopping, hpoints⟩ := of_decide_eq_true hstopped
  obtain ⟨w₂, hafter, hstarted⟩ := Option.any_eq_true _ _ |>.mp hw₂
  obtain ⟨-, howner, hstarts, -⟩ :=
    nothingGranted_afterStop World.oneSlotServer_create hbefore hstopping hafter
  exact ⟨w₁, w₂, hbefore, hafter, hpoints, of_decide_eq_true hstarted, howner, hstarts⟩

end ThreadedProxy

namespace Context

variable {c c' : Context} {op : Op} {r : Outcome}

theorem Ends.requestStart {ending : Ending} (h : Ends ending c c') :
    c'.self.requestStart = c.self.requestStart := by
  have hsettle : (c.settle ending).self.requestStart = c.self.requestStart := by rw [settle_eq]
  cases h with
  | already => rfl
  | quietly => exact hsettle
  | withError => exact hsettle

/-- A closed limiter lets no handler start a request. -/
theorem Handled.unstarted (h : Handled op r c c') (hclosed : c.server.limiter.closed = true) :
    c'.self.requestStart = c.self.requestStart := by
  cases h with
  | timer => rfl
  | timedOut _ _ _ _ _ hends => exact hends.requestStart.trans (by rw [timeOut_self])
  | expired _ _ _ _ hends => exact hends.requestStart
  | read _ _ hrequested =>
      cases hrequested with
      | unread => rfl
      | refused _ hends => exact hends.requestStart
      | health => rfl
      | admitted _ hopen => exact absurd (hopen.symm.trans hclosed) Bool.false_ne_true
      | queued => rfl
      | turnedAway _ _ hends => exact hends.requestStart
  | wroteText => rfl
  | wroteError => rfl
  | ended _ _ _ _ _ hobserves hends =>
      exact hends.requestStart.trans hobserves.prepares.requestStart
  | relayed _ _ hrelay => exact hrelay.prepares.requestStart

end Context

namespace World

variable {config : ProxyConfig} {server : ProxyServer} {w w' w₁ : World} {e : Event} {i : Nat}

/-- While the server is there, every slot that is taken is held by a session, also when it stops. -/
structure SlotsCounted (w : World) : Prop where
  sound : w.Sound
  held : w.server.alive = true → w.SlotsHeld

theorem SlotsCounted.step (h : w.SlotsCounted) (hstep : World.step w e = some w') :
    w'.SlotsCounted := by
  refine ⟨h.sound.step hstep, fun hhere => ?_⟩
  rcases step_cases h.sound hstep with
    ⟨i, op, r, s, -, hlock, hmem, -, rfl⟩ | ⟨i, s, strand, -, hstrand, -, hlock, rfl⟩ | hquiet
  · have hframe := (handle_handled op r (w.context i (deliver s op r))).frame
    have halive : w.server.alive = true := hframe.server.alive.symm.trans hhere
    exact (h.held halive).complete h.sound halive hlock hmem
  · have hheld := h.held hhere
    have htaken : (w.setStrand strand).SlotsHeld := ⟨hheld.slots, hheld.gone⟩
    exact htaken.quiet (h.sound.popEnqueue hstrand _ rfl rfl rfl) (.closed i s hlock)
  · clear hstep
    induction hquiet with
    | refl => exact h.held hhere
    | tail hfirst hq ih => exact (ih (hq.alive hhere)).quiet (h.sound.quiets hfirst) hq

theorem SlotsCounted.init (hcreate : ProxyServer.create config = .ok server) :
    (World.init server).SlotsCounted :=
  ⟨Sound.init hcreate, fun _ => (Balancing.init hcreate).held⟩

/-- The request of the session has been started. -/
def startedIn (w : World) (i : Nat) : Prop :=
  ∃ s, w.sessions[i]? = some s ∧ s.requestStart.isSome = true

/-- The task of `stop` has run in `w₁` or before it, and `w` has been reached from there. -/
structure Halted (w₁ w : World) : Prop where
  stopping : w.server.stopping = true
  closed : w.server.limiter.closed = true
  queue : w.server.queuedSessions = []
  started : ∀ i, w.startedIn i → w₁.startedIn i

namespace Halted

/-- Sessions go on of which none is started. -/
theorem step_of_kept (h : Halted w₁ w) (hstopping : w'.server.stopping = w.server.stopping)
    (hclosed : w'.server.limiter.closed = w.server.limiter.closed)
    (hqueue : w'.server.queuedSessions = w.server.queuedSessions)
    (hstarted : ∀ i, w'.startedIn i → w.startedIn i) : Halted w₁ w' :=
  ⟨hstopping.trans h.stopping, hclosed.trans h.closed, hqueue.trans h.queue,
    fun i hin => h.started i (hstarted i hin)⟩

theorem startedIn_put {c : Context} {s : ProxySession} (hget : w.sessions[c.id]? = some s)
    (hstart : c.self.requestStart = s.requestStart) (i : Nat) (h : (w.put c).startedIn i) :
    w.startedIn i := by
  obtain ⟨s', hs', hstarted⟩ := h
  rw [put_getElem? hget] at hs'
  split at hs'
  · rename_i hid
    obtain rfl := Option.some.inj hs'
    exact ⟨s, hid ▸ hget, hstart ▸ hstarted⟩
  · exact ⟨s', hs', hstarted⟩

theorem closeClient (h : Halted w₁ w) (i : Nat) :
    Halted w₁ (w.onSession i Context.closeClient) := by
  unfold onSession
  split
  · exact h
  · rename_i s hlock
    obtain ⟨hget, -⟩ := lock_eq_some.mp hlock
    exact h.step_of_kept rfl rfl rfl (startedIn_put (c := (w.context i s).closeClient) hget rfl)

theorem runTask (h : Halted w₁ w) (task : Task) : Halted w₁ (w.runTask task) := by
  cases task with
  | enqueue i =>
      show Halted w₁ (w.enqueued i)
      rw [enqueued, if_pos h.stopping]
      exact h.closeClient i
  | promote =>
      show Halted w₁ (w.promoteLoop w.server.queuedSessions)
      rw [h.queue]
      exact ⟨h.stopping, h.closed, rfl, h.started⟩
  | stop =>
      show Halted w₁ w.stopNow
      simp only [stopNow, setServer, h.queue, List.foldl_nil]
      exact ⟨rfl, rfl, rfl, h.started⟩

theorem step (h : Halted w₁ w) (hsound : w.Sound) (hstep : World.step w e = some w') :
    Halted w₁ w' := by
  have same (server : ProxyServer) (clock : Nat) (hstopping : server.stopping = w.server.stopping)
      (hclosed : server.limiter.closed = w.server.limiter.closed)
      (hqueue : server.queuedSessions = w.server.queuedSessions) :
      Halted w₁ { w with server, clock } :=
    h.step_of_kept hstopping hclosed hqueue fun _ => id
  cases e with
  | accept =>
      simp only [World.step, accepted] at hstep
      split at hstep
      · split at hstep
        · cases hstep
        · obtain rfl := Option.some.inj hstep
          -- the session of the pending accept is new and has no request
          refine h.step_of_kept rfl rfl rfl fun i hi => ?_
          obtain ⟨s, hs, hstarted⟩ := hi
          rcases getElem?_snoc hs with hs | ⟨-, rfl⟩
          · exact ⟨s, hs, hstarted⟩
          · cases hstarted
      · cases hstep
  | acceptFailed =>
      simp only [World.step] at hstep
      split at hstep
      · obtain rfl := Option.some.inj hstep
        exact same _ _ rfl rfl rfl
      · cases hstep
  | complete i op r =>
      obtain ⟨s, hlock, -, -, rfl⟩ := complete_eq_some hstep
      obtain ⟨hget, -⟩ := lock_eq_some.mp hlock
      have hhandled := handle_handled op r (w.context i (deliver s op r))
      have hframe := hhandled.frame
      -- a closed limiter admits nobody, so no handler starts a session
      refine h.step_of_kept hframe.server.stopping hframe.server.closed hframe.server.queuedSessions
        (startedIn_put (s := s) ?_ ((hhandled.unstarted h.closed).trans
          (deliver_requestStart s op r)))
      rw [hframe.id]
      exact hget
  | runTask =>
      simp only [World.step] at hstep
      split at hstep
      · cases hstep
      · rename_i task strand _
        obtain rfl := Option.some.inj hstep
        have htaken : Halted w₁ (w.setStrand strand) := same _ _ rfl rfl rfl
        -- a task finds the queue empty and `stopping_` set
        exact htaken.runTask task
  | stop =>
      simp only [World.step] at hstep
      split at hstep
      · obtain rfl := Option.some.inj hstep
        exact same _ _ rfl rfl rfl
      · cases hstep
  | destroySession i =>
      simp only [World.step, Option.bind_eq_bind, Option.bind_eq_some_iff,
        Option.guard_eq_some'] at hstep
      obtain ⟨s, hlock, -, ⟨hpending, -⟩, hput⟩ := hstep
      obtain rfl := Option.some.inj hput
      obtain ⟨hget, -⟩ := lock_eq_some.mp hlock
      rw [hsound.destruct_eq hlock hpending]
      exact h.step_of_kept rfl rfl rfl
        (startedIn_put (c := (w.context i s).setSelf { s with destroyed := true }) hget rfl)
  | destroyServer =>
      simp only [World.step] at hstep
      split at hstep
      · obtain rfl := Option.some.inj hstep
        exact same _ _ rfl rfl rfl
      · cases hstep
  | tick n =>
      obtain rfl := Option.some.inj hstep
      exact same _ _ rfl rfl rfl

end Halted

theorem promoteLoop_stopping (queue : List Nat) (w : World) :
    (w.promoteLoop queue).server.stopping = w.server.stopping := by
  induction queue generalizing w with
  | nil => rfl
  | cons i queue ih =>
      rw [promoteLoop]
      cases hlock : w.lock i with
      | none => exact ih _
      | some s =>
          dsimp only
          split
          · exact ih _
          · split
            · split
              · exact ih _
              · rfl
            · exact (ih _).trans (tryStartFromQueue_frame _).server.stopping

theorem closeAll_server (queue : List Nat) (w : World) :
    (queue.foldl (fun w i => w.onSession i Context.closeClient) w).server = w.server := by
  induction queue generalizing w with
  | nil => rfl
  | cons i queue ih =>
      refine (ih _).trans ?_
      show (w.onSession i Context.closeClient).server = w.server
      unfold onSession
      split <;> rfl

theorem runTask_stopping (w : World) (task : Task) :
    (w.runTask task).server.stopping = w.server.stopping ∨
      (w.runTask task).server.limiter.closed = true ∧
        (w.runTask task).server.queuedSessions = [] := by
  cases task with
  | enqueue i =>
      refine .inl ?_
      show (w.enqueued i).server.stopping = _
      unfold enqueued onSession
      split
      · split <;> rfl
      · split
        · rfl
        · exact startQueueTimer_frame.server.stopping
  | promote => exact .inl (promoteLoop_stopping _ w)
  | stop =>
      refine .inr ⟨?_, rfl⟩
      show (World.setQueue _ []).server.limiter.closed = true
      have hserver := closeAll_server w.server.queuedSessions (w.setServer
        { w.server with stopping := true, limiter := w.server.limiter.close })
      exact congrArg (·.limiter.closed) hserver

/-- Only the task of `stop` makes the server stop. -/
theorem stopping_of_step (hsound : w.Sound) (hstep : World.step w e = some w') :
    w'.server.stopping = w.server.stopping ∨
      w'.server.limiter.closed = true ∧ w'.server.queuedSessions = [] := by
  cases e with
  | complete i op r =>
      obtain ⟨s, -, -, -, rfl⟩ := complete_eq_some hstep
      exact .inl (handle_handled op r (w.context i (deliver s op r))).frame.server.stopping
  | runTask =>
      simp only [World.step] at hstep
      split at hstep
      · cases hstep
      · rename_i task strand _
        obtain rfl := Option.some.inj hstep
        exact (w.setStrand strand).runTask_stopping task
  | accept =>
      simp only [World.step, accepted] at hstep
      split at hstep
      · split at hstep
        · cases hstep
        · obtain rfl := Option.some.inj hstep
          exact .inl rfl
      · cases hstep
  | acceptFailed | stop | destroyServer =>
      simp only [World.step] at hstep
      split at hstep
      · obtain rfl := Option.some.inj hstep
        exact .inl rfl
      · cases hstep
  | destroySession i =>
      simp only [World.step, Option.bind_eq_bind, Option.bind_eq_some_iff,
        Option.guard_eq_some'] at hstep
      obtain ⟨s, hlock, -, ⟨hpending, -⟩, hput⟩ := hstep
      obtain rfl := Option.some.inj hput
      rw [hsound.destruct_eq hlock hpending]
      exact .inl rfl
  | tick n =>
      obtain rfl := Option.some.inj hstep
      exact .inl rfl

variable {timeouts : Timeouts} {lag : Nat} {v v₁ v₂ : Timed}

/-- What a timed run knows of the stop. -/
structure Timed.Stoppable (config : ProxyConfig) (timeouts : Timeouts) (lag : Nat) (v : Timed) :
    Prop where
  right : v.Right config timeouts lag
  counted : v.state.SlotsCounted
  halted : v.state.server.stopping = true → Halted v.state v.state

theorem Timed.Stoppable.step (h : v.Stoppable config timeouts lag)
    (hstep : timedStep timeouts lag v e = some v₁) : v₁.Stoppable config timeouts lag := by
  have hright := h.right.step hstep
  obtain ⟨-, after, hafter, rfl⟩ := watch_eq_some.mp hstep
  refine ⟨hright, h.counted.step hafter, fun hstopping => ?_⟩
  rcases stopping_of_step h.counted.sound hafter with heq | ⟨hclosed, hqueue⟩
  · have hhalted := (h.halted (heq ▸ hstopping)).step h.counted.sound hafter
    exact ⟨hhalted.stopping, hhalted.closed, hhalted.queue, fun _ => id⟩
  · exact ⟨hstopping, hclosed, hqueue, fun _ => id⟩

theorem Timed.Stoppable.run {events : List Event}
    (hcreate : ProxyServer.create config = .ok server)
    (hrun : run (timedStep timeouts lag) (timedInit server) events = some v) :
    v.Stoppable config timeouts lag := by
  refine run_induct hrun ⟨.init hcreate, .init hcreate, fun hstop => ?_⟩ fun _ _ _ h hstep =>
    h.step hstep
  exact absurd ((create_started hcreate).stopping.symm.trans hstop) Bool.false_ne_true

/-- Once the task of `stop` has run, no request is started any more.  Within one `request_timeout`,
whatever the upstream and the clients do, every session that was started has finished, given its
permit back and told its client, and then all slots are back. -/
theorem slotsReturned_afterStop {before after : List Event}
    (hcreate : ProxyServer.create config = .ok server)
    (hbefore : run (timedStep timeouts lag) (timedInit server) before = some v₁)
    (hstopping : v₁.state.server.stopping = true)
    (hafter : run (timedStep timeouts lag) v₁ after = some v₂) :
    (∀ i, v₂.state.startedIn i → v₁.state.startedIn i) ∧
    v₂.state.server.queuedSessions = [] ∧
    (v₁.state.clock + milliseconds timeouts.requestTimeout + lag < v₂.state.clock →
      (∀ s ∈ v₂.state.sessions, s.requestStart.isSome = true → s.Concluded) ∧
      (v₂.state.server.alive = true → v₂.state.server.limiter.currentInflight = 0)) := by
  have hstoppable := Timed.Stoppable.run hcreate hbefore
  have hsince := since_of_runs hcreate hbefore hafter
  obtain ⟨hhalted, hcounted⟩ : Halted v₁.state v₂.state ∧ v₂.state.SlotsCounted := by
    refine run_induct (p := fun v => Halted v₁.state v.state ∧ v.state.SlotsCounted) hafter
      ⟨hstoppable.halted hstopping, hstoppable.counted⟩ fun v e v' h hstep => ?_
    obtain ⟨-, after, hafter, rfl⟩ := watch_eq_some.mp hstep
    exact ⟨h.1.step h.2.sound hafter, h.2.step hafter⟩
  refine ⟨hhalted.started, hhalted.queue, fun hlate => ?_⟩
  have hover (s : ProxySession) (hmem : s ∈ v₂.state.sessions)
      (hstart : s.requestStart.isSome = true) : s.Concluded := by
    obtain ⟨i, hs⟩ := List.getElem?_of_mem hmem
    obtain ⟨s₁, hs₁, hstart₁⟩ := hhalted.started i ⟨s, hs, hstart⟩
    have hserved := served_of_runs hcreate hbefore hafter hs
    exact hsince.expired hstoppable.right hs₁ hs hserved hstart₁ hlate
  refine ⟨hover, fun halive => ?_⟩
  have hnone : v₂.state.sessions.countP permitValid = 0 := by
    refine List.countP_eq_zero.mpr fun s hmem hvalid => ?_
    obtain ⟨i, hs⟩ := List.getElem?_of_mem hmem
    have hpermit : s.permit.isSome = true := by
      obtain ⟨permit, hsome, -⟩ := Option.any_eq_true _ _ |>.mp hvalid
      exact Option.isSome_of_mem hsome
    obtain ⟨op, running⟩ := (hcounted.sound.phase i s hs).running_of_permit hpermit
    have hconcluded := hover s hmem running.requestStart
    exact Bool.false_ne_true (running.finished.symm.trans hconcluded.finished)
  exact (hcounted.held halive).slots.trans hnone

/-- The server stops while one request holds the slot and another one waits for it. -/
def stopsWhileBusy : List Event := bothAsked ++ [.stop, .runTask]

theorem stopsWhileBusy_run : ∃ v₁ v₂,
    run (timedStep {} 5) (timedInit oneSlotServer) stopsWhileBusy = some v₁ ∧
    run (timedStep {} 5) v₁ timesUp = some v₂ ∧ v₁.state.server.stopping = true ∧
    v₁.state.server.limiter.currentInflight = 1 ∧ v₂.state.server.alive = true ∧
    v₁.state.clock = 0 ∧ v₂.state.clock = 32000000000 :=
  ⟨_, _, rfl, rfl, rfl, rfl, rfl, rfl, rfl⟩

theorem slotsReturned_afterStop_whileBusy : ∃ v₁ v₂,
    run (timedStep {} 5) (timedInit oneSlotServer) stopsWhileBusy = some v₁ ∧
    run (timedStep {} 5) v₁ timesUp = some v₂ ∧
    v₁.state.server.limiter.currentInflight = 1 ∧ v₂.state.server.limiter.currentInflight = 0 ∧
    ∀ s ∈ v₂.state.sessions, s.requestStart.isSome = true → s.Concluded := by
  obtain ⟨v₁, v₂, hbefore, hafter, hstopping, hbusy, halive, hclock₁, hclock₂⟩ := stopsWhileBusy_run
  have hreturned := slotsReturned_afterStop oneSlotServer_create hbefore hstopping hafter
  rw [hclock₁, hclock₂] at hreturned
  obtain ⟨hconcluded, hslots⟩ := hreturned.2.2 (by decide)
  exact ⟨v₁, v₂, hbefore, hafter, hbusy, hslots halive, hconcluded⟩

end World

end VllmSloProxy
