import Mathlib.Logic.Relation
import VllmSloProxy.Lib.Population
import VllmSloProxy.SessionPhase

/-!
# What a step of the world can do

Every step delivers one completion, drops an enqueue task at shutdown, or is a chain of quiet
changes that the claims about single sessions need not tell apart.  Every session of a reachable
world is in a phase.
-/

namespace VllmSloProxy

open Context Transition Relation

namespace Context

variable {c c' c₁ : Context} {op next : Op} {r : Outcome}

theorem Requested.posted_other (h : Requested c c') (hpermit : c.self.permit = none)
    (hcb : c.server.limiter.onRelease = some .promote) {j : Nat} (hj : j ≠ c.id) :
    c'.server.posted j = c.server.posted j := by
  cases h with
  | unread => rfl
  | refused _ hends => exact hends.posted hcb j
  | health => rfl
  | admitted halive =>
      rw [startProxyRequest_server (c := c.counted.setLimiter _) _ halive hpermit]
      rfl
  | queued =>
      show (c.server.post (.enqueue c.id)).posted j = _
      simp [ProxyServer.posted, ProxyServer.post, hj.symm]
  | turnedAway _ _ hends => exact hends.posted hcb j

theorem Handled.posted_other (h : Handled op r c c')
    (hread : op = .readRequest → c.self.permit = none)
    (hcb : c.server.limiter.onRelease = some .promote) {j : Nat} (hj : j ≠ c.id) :
    c'.server.posted j = c.server.posted j := by
  by_cases hop : op = .readRequest
  · cases h with
    | read _ _ hrequested => exact hrequested.posted_other (hread hop) hcb hj
    | relayed c₁ next hrelay => exact hrelay.prepares.posted j
    | ended _ _ _ hrelay => rw [hop] at hrelay; cases hrelay
    | timer htimer => rfl
    | timedOut _ _ h' => rw [hop] at h'; cases h'
    | expired _ _ h' => rw [hop] at h'; cases h'
    | wroteText => rfl
    | wroteError => rfl
  · -- only the request that was read can ask for a place in the queue
    exact h.posted_of_not_read hop hcb j

/-- A session that leaves the queue, about to start. -/
def dequeued (c : Context) : Context :=
  (c.setSelf { c.self with
    queued := false
    pending := c.self.pending.map Op.cancelQueueTimer }).enter (.started c.id)

/-- Everything `try_start_from_queue` can do. -/
theorem tryStartFromQueue_cases (permit : ServerPermit) (c : Context) :
    ((c.self.queued = false ∨ c.self.finished = true) ∧
      c.tryStartFromQueue permit = (false, c.setServer (c.server.releasePermit permit))) ∨
    (c.self.queued = true ∧ c.self.finished = false ∧
      c.tryStartFromQueue permit = (true, c.dequeued.startProxyRequest permit)) := by
  unfold tryStartFromQueue
  by_cases h : (!c.self.queued || c.self.finished) = true
  · rw [if_pos h]
    exact .inl ⟨by simpa using h, rfl⟩
  · rw [if_neg h]
    simp only [Bool.or_eq_true, Bool.not_eq_true', not_or, Bool.not_eq_false, Bool.not_eq_true] at h
    exact .inr ⟨h.1, h.2, rfl⟩

theorem tryStartFromQueue_of_queued (permit : ServerPermit) (hqueued : c.self.queued = true)
    (hfinished : c.self.finished = false) :
    (c.tryStartFromQueue permit).2 = c.dequeued.startProxyRequest permit := by
  rcases tryStartFromQueue_cases permit c with ⟨h | h, -⟩ | ⟨-, -, h⟩
  · rw [hqueued] at h; cases h
  · rw [hfinished] at h; cases h
  · rw [h]

theorem tryStartFromQueue_frame (permit : ServerPermit) :
    Frame c (c.tryStartFromQueue permit).2 := by
  rcases tryStartFromQueue_cases permit c with ⟨-, h⟩ | ⟨-, -, h⟩
  · rw [h]
    exact ⟨rfl, rfl, rfl, ProxyServer.releasePermit_frame permit _⟩
  · rw [h]
    have hdequeued : Frame c c.dequeued := ⟨rfl, rfl, rfl, .refl _⟩
    exact hdequeued.trans (startProxyRequest_frame permit)

/-- Without a server nothing is posted. -/
theorem Ends.strand_of_dead {ending : Ending} (h : Ends ending c c')
    (hdead : c.server.alive = false) :
    c'.server.strand = c.server.strand := by
  have hsettle (ending : Ending) : (c.settle ending).server = c.server := by
    -- the weak pointer of the server is expired, so no metrics are recorded
    have hrecorded : c.recordedServer ending = c.server := by
      simp [recordedServer, hdead]
    rw [settle_eq, hrecorded]
    cases c.self.permit with
    | none => rfl
    | some permit =>
        rcases ProxyServer.releasePermit_cases permit c.server with ⟨h', -⟩ | ⟨-, h', -⟩
        · exact h'
        · rw [hdead] at h'; cases h'
  cases h with
  | already => rfl
  | quietly => exact congrArg _ (hsettle ending)
  | withError => exact congrArg _ (hsettle ending)

theorem Handled.strand_of_dead (h : Handled op r c c') (hdead : c.server.alive = false) :
    c'.server.strand = c.server.strand := by
  have hnot {p : Prop} (halive : c.server.alive = true) : p := by
    rw [hdead] at halive; cases halive
  cases h with
  | timer => rfl
  | timedOut _ _ _ _ _ hends =>
      rw [hends.strand_of_dead (timeOut_frame.server.alive.trans hdead)]
      unfold timeOut
      split <;> rfl
  | expired _ _ _ _ hends => exact hends.strand_of_dead hdead
  | read _ _ hrequested =>
      cases hrequested with
      | unread => rfl
      | refused _ hends => exact hends.strand_of_dead hdead
      | health => rfl
      | admitted halive => exact hnot halive
      | queued halive => exact hnot halive
      | turnedAway halive => exact hnot halive
  | wroteText => rfl
  | wroteError => rfl
  | ended _ _ _ _ _ hobserves hends =>
      rw [hends.strand_of_dead (hobserves.frame.server.alive.trans hdead)]
      obtain ⟨metrics, -, -, -, hserver⟩ := hobserves.server
      rw [hserver]
  | relayed _ _ hrelay =>
      obtain ⟨metrics, -, -, -, hserver⟩ := hrelay.prepares.server
      exact (congrArg ProxyServer.strand hserver).trans rfl

end Context

namespace World

theorem lock_eq_some {w : World} {i : Nat} {s : ProxySession} :
    w.lock i = some s ↔ w.sessions[i]? = some s ∧ s.destroyed = false := by
  unfold lock
  rw [Option.filter_eq_some_iff]
  simp

theorem onSession_of_lock {w : World} {i : Nat} {s : ProxySession} (h : w.lock i = some s)
    (f : Context → Context) : w.onSession i f = w.put (f (w.context i s)) := by
  unfold onSession
  rw [h]

/-- Nothing that a session or an account of requests depends on has changed. -/
structure SameBooks (w w' : World) : Prop where
  sessions : w'.sessions = w.sessions
  journal : w'.journal = w.journal
  metrics : w'.server.metrics = w.server.metrics
  currentInflight : w'.server.limiter.currentInflight = w.server.limiter.currentInflight
  maxInflight : w'.server.limiter.maxInflight = w.server.limiter.maxInflight
  onRelease : w'.server.limiter.onRelease = w.server.limiter.onRelease
  posted : ∀ i, w'.server.posted i = w.server.posted i
  alive : w'.server.alive = true → w.server.alive = true
  idle : (w.server.alive = false → w.server.strand = []) →
    w'.server.alive = false → w'.server.strand = []
  clock : w.clock ≤ w'.clock

/-- The server after an enqueue task that found it running has been taken off the strand. -/
def takeEnqueue (w : World) (i : Nat) (strand : List Task) : World :=
  w.setServer { w.server with strand, queuedSessions := w.server.queuedSessions ++ [i] }

/-- The server after `try_promote_queued` has granted a slot. -/
def takePromoted (w : World) : World :=
  w.setServer { w.server with limiter := { w.server.limiter with
    queuedRequests := w.server.limiter.queuedRequests - 1
    currentInflight := w.server.limiter.currentInflight + 1 } }

/-- Changes other than a delivered completion or an enqueue task dropped at shutdown. -/
inductive Quiet (w : World) : World → Prop where
  | books (w' : World) (hsame : SameBooks w w') : Quiet w w'
  | arrived (sseParser : SseParser) (accepting : Bool) (hfresh : sseParser.reset = sseParser) :
      Quiet w { w with
      server := { w.server with accepting }
      sessions := w.sessions ++ [({ sseParser } : ProxySession).start .readRequest] }
  | closed (i : Nat) (s : ProxySession) (hlock : w.lock i = some s) :
      Quiet w (w.put (w.context i s).closeClient)
  | enqueued (i : Nat) (s : ProxySession) (strand : List Task)
      (hstrand : w.server.strand = .enqueue i :: strand) (hlock : w.lock i = some s) :
      Quiet w ((w.takeEnqueue i strand).put ((w.takeEnqueue i strand).context i s).startQueueTimer)
  | promoted (i : Nat) (s : ProxySession) (halive : w.server.alive = true)
      (hlock : w.lock i = some s) (hqueued : s.queued = true)
      (hclosed : w.server.limiter.closed = false) (hwaiting : 0 < w.server.limiter.queuedRequests)
      (hslot : w.server.limiter.currentInflight < w.server.limiter.maxInflight) :
      Quiet w (w.takePromoted.put
        ((w.takePromoted.context i s).tryStartFromQueue (Permit.owning ())).2)
  | destructed (i : Nat) (s : ProxySession) (hlock : w.lock i = some s) (hpending : s.pending = [])
      (hposted : w.server.posted i = 0) : Quiet w (w.put (w.context i s).destruct)

theorem setQueue_sameBooks (w : World) (queue : List Nat) : SameBooks w (w.setQueue queue) :=
  ⟨rfl, rfl, rfl, rfl, rfl, rfl, fun _ => rfl, id, id, Nat.le_refl _⟩

/-- A task that enqueues nobody leaves the strand. -/
theorem setStrand_sameBooks {w : World} {task : Task} {strand : List Task}
    (hstrand : w.server.strand = task :: strand) (htask : ∀ i, task ≠ .enqueue i) :
    SameBooks w (w.setStrand strand) := by
  refine ⟨rfl, rfl, rfl, rfl, rfl, rfl, fun i => ?_, id, fun hidle hdead => ?_,
    Nat.le_refl _⟩
  · show strand.count (.enqueue i) = w.server.strand.count (.enqueue i)
    rw [hstrand, List.count_cons_of_ne (htask i)]
  · rw [hstrand] at hidle
    exact absurd (hidle hdead) (List.cons_ne_nil _ _)

theorem onSession_quiet (w : World) (i : Nat) :
    ReflTransGen Quiet w (w.onSession i closeClient) := by
  unfold onSession
  split
  · exact .refl
  · rename_i s hlock
    exact .single (.closed i s hlock)

theorem promoteLoop_quiet (queue : List Nat) (w : World) (halive : w.server.alive = true) :
    ReflTransGen Quiet w (w.promoteLoop queue) := by
  induction queue generalizing w with
  | nil => exact .single (.books _ (w.setQueue_sameBooks []))
  | cons i queue ih =>
      have hpop : ReflTransGen Quiet w (w.setQueue queue) :=
        .single (.books _ (w.setQueue_sameBooks queue))
      rw [promoteLoop]
      cases hlock : w.lock i with
      | none => exact hpop.trans (ih _ halive)
      | some s =>
          dsimp only
          cases hqueued : s.queued with
          | false => exact hpop.trans (ih _ halive)
          | true =>
              rw [Bool.not_true, if_neg Bool.false_ne_true]
              rcases w.server.limiter.tryPromoteQueued_cases () with
                ⟨-, hpromote⟩ | ⟨hclosed, hwaiting, hslot, hpromote⟩
              · rw [hpromote]
                split
                · -- an entry without a reservation is dropped, any other goes back to the front
                  split
                  · exact hpop.trans (ih _ halive)
                  · exact .single (.books _ (w.setQueue_sameBooks (i :: queue)))
                · rename_i hvalid
                  exact absurd rfl hvalid
              · rw [hpromote]
                refine ReflTransGen.trans (hpop.trans (.single ?_)) (ih _ ?_)
                · exact .promoted i s halive hlock hqueued hclosed hwaiting hslot
                · exact (tryStartFromQueue_frame _).server.alive.trans halive

theorem closeAll_quiet (queue : List Nat) (w : World) :
    ReflTransGen Quiet w (queue.foldl (fun w i => w.onSession i closeClient) w) := by
  induction queue generalizing w with
  | nil => exact .refl
  | cons i queue ih => exact (w.onSession_quiet i).trans (ih _)

/-- What holds of the sessions of a world in every run. -/
structure Sound (w : World) : Prop where
  phase : ∀ i (s : ProxySession), w.sessions[i]? = some s → s.Phase (w.server.posted i)
  posted : ∀ i, w.sessions.length ≤ i → w.server.posted i = 0
  destroyed : ∀ i (s : ProxySession), w.sessions[i]? = some s → s.destroyed = true →
    w.server.posted i = 0
  onRelease : w.server.limiter.onRelease = some .promote
  idle : w.server.alive = false → w.server.strand = []

theorem Sound.alive_of_strand {w : World} (h : w.Sound) (hstrand : w.server.strand ≠ []) :
    w.server.alive = true := by
  by_contra hdead
  exact hstrand (h.idle (Bool.eq_false_iff.mpr hdead))

theorem Sound.lock_of_posted {w : World} (h : w.Sound) {i : Nat} (hposted : w.server.posted i ≠ 0) :
    ∃ s, w.lock i = some s := by
  by_cases hi : i < w.sessions.length
  · have hget : w.sessions[i]? = some w.sessions[i] := List.getElem?_eq_getElem hi
    refine ⟨w.sessions[i], lock_eq_some.mpr ⟨hget, Bool.eq_false_iff.mpr fun hd => ?_⟩⟩
    exact hposted (h.destroyed i _ hget hd)
  · exact absurd (h.posted i (Nat.le_of_not_lt hi)) hposted

/-- The session of the task at the head of the strand still exists. -/
theorem Sound.lock_of_head {w : World} (h : w.Sound) {i : Nat} {strand : List Task}
    (hstrand : w.server.strand = .enqueue i :: strand) : ∃ s, w.lock i = some s := by
  apply h.lock_of_posted
  rw [ProxyServer.posted_head hstrand]
  exact Nat.succ_ne_zero _

/-- It was told to wait, and this is its only task. -/
theorem Sound.asked_of_head {w : World} (h : w.Sound) {i : Nat} {s : ProxySession}
    {strand : List Task} (hstrand : w.server.strand = .enqueue i :: strand)
    (hlock : w.lock i = some s) : s.Idle ∧ s.requestCounted = true ∧ s.pending = [] ∧
      strand.count (.enqueue i) = 0 := by
  obtain ⟨hget, -⟩ := lock_eq_some.mp hlock
  have hcount := ProxyServer.posted_head hstrand
  obtain ⟨idle, -, counted, pending, hone⟩ :=
    (h.phase i s hget).asked_of_posted (by rw [hcount]; exact Nat.succ_ne_zero _)
  exact ⟨idle, counted, pending, by omega⟩

/-- Everything the next task of the strand can do. -/
theorem runTask_cases {w : World} {task : Task} {strand : List Task} (h : w.Sound)
    (hstrand : w.server.strand = task :: strand) :
    (∃ i s, task = .enqueue i ∧ w.server.stopping = true ∧ w.lock i = some s ∧
      (w.setStrand strand).runTask task =
        (w.setStrand strand).put ((w.setStrand strand).context i s).closeClient) ∨
    ReflTransGen Quiet w ((w.setStrand strand).runTask task) := by
  cases task with
  | enqueue i =>
      obtain ⟨s, hlock⟩ := h.lock_of_head hstrand
      simp only [runTask, enqueued]
      split
      · rename_i hstopping
        exact .inl ⟨i, s, rfl, hstopping, hlock,
          onSession_of_lock (w := w.setStrand strand) hlock _⟩
      · refine .inr (.single ?_)
        have heq : ((w.setStrand strand).setQueue (w.server.queuedSessions ++ [i])).onSession i
            startQueueTimer = _ := onSession_of_lock (w := w.takeEnqueue i strand) hlock _
        exact heq ▸ .enqueued i s strand hstrand hlock
  | promote =>
      refine .inr (ReflTransGen.trans (.single (.books _ (setStrand_sameBooks hstrand ?_)))
        (promoteLoop_quiet _ _ (h.alive_of_strand (hstrand ▸ List.cons_ne_nil _ _))))
      exact fun _ heq => nomatch heq
  | stop =>
      have hbooks := setStrand_sameBooks hstrand fun _ heq => nomatch heq
      refine .inr ((ReflTransGen.trans (.single (.books _ ?_)) (closeAll_quiet _ _)).tail
        (.books _ (setQueue_sameBooks _ [])))
      exact ⟨rfl, rfl, rfl, rfl, rfl, rfl, hbooks.posted, id, hbooks.idle, Nat.le_refl _⟩

/-- A completion is delivered to a session that still exists and has the operation pending. -/
theorem complete_eq_some {w w' : World} {i : Nat} {op : Op} {r : Outcome}
    (hstep : step w (.complete i op r) = some w') :
    ∃ s, w.lock i = some s ∧ op ∈ s.pending ∧ deliverable s op r = true ∧
      w' = w.put ((w.context i (deliver s op r)).handle op r) := by
  simp only [step, complete, Option.bind_eq_bind, Option.bind_eq_some_iff,
    Option.guard_eq_some'] at hstep
  obtain ⟨s, hlock, -, ⟨hmem, hdeliverable⟩, hput⟩ := hstep
  exact ⟨s, hlock, hmem, hdeliverable, (Option.some.inj hput).symm⟩

/-- Everything a step can do. -/
theorem step_cases {w w' : World} {e : Event} (h : w.Sound) (hstep : step w e = some w') :
    (∃ i op r s, e = .complete i op r ∧ w.lock i = some s ∧ op ∈ s.pending ∧
      deliverable s op r = true ∧
      w' = w.put ((w.context i (deliver s op r)).handle op r)) ∨
    (∃ i s strand, e = .runTask ∧ w.server.strand = .enqueue i :: strand ∧
      w.server.stopping = true ∧ w.lock i = some s ∧
      w' = (w.setStrand strand).put
        ((w.setStrand strand).context i s).closeClient) ∨
    ReflTransGen Quiet w w' := by
  cases e with
  -- an accept adds a session, and the parser of it is constructed
  | accept =>
      simp only [step] at hstep
      split at hstep
      · unfold accepted at hstep
        split at hstep
        · cases hstep
        · rename_i sseParser hcreate
          obtain rfl := Option.some.inj hstep
          exact .inr (.inr (.single (.arrived sseParser _ (SseParser.create_reset hcreate))))
      · cases hstep
  | acceptFailed =>
      simp only [step] at hstep
      split at hstep
      · obtain rfl := Option.some.inj hstep
        exact .inr (.inr (.single (.books _ ⟨rfl, rfl, rfl, rfl, rfl, rfl, fun _ => rfl, id, id,
          Nat.le_refl _⟩)))
      · cases hstep
  | complete i op r =>
      obtain ⟨s, hlock, hmem, hdeliverable, hput⟩ := complete_eq_some hstep
      exact .inl ⟨i, op, r, s, rfl, hlock, hmem, hdeliverable, hput⟩
  | runTask =>
      simp only [step] at hstep
      split at hstep
      · cases hstep
      · rename_i task strand hstrand
        obtain rfl := Option.some.inj hstep
        rcases runTask_cases h hstrand with ⟨i, s, rfl, hstopping, hlock, heq⟩ | hquiet
        · exact .inr (.inl ⟨i, s, strand, rfl, hstrand, hstopping, hlock, heq⟩)
        · exact .inr (.inr hquiet)
  | stop =>
      simp only [step] at hstep
      split at hstep
      · rename_i halive
        obtain rfl := Option.some.inj hstep
        refine .inr (.inr (.single (.books _ ⟨rfl, rfl, rfl, rfl, rfl, rfl, fun i => ?_, id,
          fun _ hdead => absurd halive (Bool.eq_false_iff.mp hdead), Nat.le_refl _⟩)))
        -- `stop` posts its task, which is none of `enqueue_session`
        show (w.server.strand ++ [Task.stop]).count (.enqueue i) = _
        rw [List.count_append]
        rfl
      · cases hstep
  -- a session goes when no operation and no task holds it
  | destroySession i =>
      simp only [step, Option.bind_eq_bind, Option.bind_eq_some_iff, Option.guard_eq_some'] at hstep
      obtain ⟨s, hlock, -, ⟨hpending, hposted⟩, hput⟩ := hstep
      obtain rfl := Option.some.inj hput
      exact .inr (.inr (.single (.destructed i s hlock hpending (List.count_eq_zero.mpr hposted))))
  | destroyServer =>
      simp only [step] at hstep
      split at hstep
      · rename_i hcond
        obtain rfl := Option.some.inj hstep
        exact .inr (.inr (.single (.books _
          ⟨rfl, rfl, rfl, rfl, rfl, rfl, fun _ => rfl, fun _ => hcond.1,
            fun _ _ => hcond.2.2, Nat.le_refl _⟩)))
      · cases hstep
  | tick n =>
      obtain rfl := Option.some.inj hstep
      exact .inr (.inr (.single (.books _ ⟨rfl, rfl, rfl, rfl, rfl, rfl, fun _ => rfl, id, id,
        Nat.le_add_right _ _⟩)))

theorem put_getElem? {w : World} {c : Context} {s : ProxySession}
    (hget : w.sessions[c.id]? = some s) (j : Nat) :
    (w.put c).sessions[j]? = if c.id = j then some c.self else w.sessions[j]? := by
  have hlt : c.id < w.sessions.length := (List.getElem?_eq_some_iff.mp hget).1
  show (w.sessions.set c.id c.self)[j]? = _
  rw [List.getElem?_set]
  simp only [hlt, if_true]

theorem put_self_mem {w : World} {c : Context} {s : ProxySession}
    (hget : w.sessions[c.id]? = some s) : c.self ∈ (w.put c).sessions := by
  apply List.mem_of_getElem?
  rw [put_getElem? hget, if_pos rfl]

/-- Putting a session and its server back keeps the world sound when the session is in a phase
again and nobody else's tasks were touched. -/
theorem Sound.put {w : World} {c : Context} {s : ProxySession} (h : w.Sound)
    (hget : w.sessions[c.id]? = some s) (hphase : c.self.Phase (c.server.posted c.id))
    (hother : ∀ j, j ≠ c.id → c.server.posted j = w.server.posted j)
    (hdestroyed : c.self.destroyed = true → c.server.posted c.id = 0)
    (hcb : c.server.limiter.onRelease = some .promote)
    (hidle : c.server.alive = false → c.server.strand = []) : (w.put c).Sound := by
  have hlt : c.id < w.sessions.length := (List.getElem?_eq_some_iff.mp hget).1
  refine ⟨fun j s' hj => ?_, fun j hj => ?_, fun j s' hj hd => ?_, hcb, hidle⟩
  · rw [put_getElem? hget] at hj
    split at hj
    · rename_i hid
      obtain rfl := Option.some.inj hj
      exact hid ▸ hphase
    · rename_i hid
      show s'.Phase (c.server.posted j)
      rw [hother j (Ne.symm hid)]
      exact h.phase j s' hj
  · have hlen : w.sessions.length ≤ j := by simpa [World.put] using hj
    show c.server.posted j = 0
    rw [hother j (by omega)]
    exact h.posted j hlen
  · rw [put_getElem? hget] at hj
    show c.server.posted j = 0
    split at hj
    · rename_i hid
      obtain rfl := Option.some.inj hj
      exact hid ▸ hdestroyed hd
    · rename_i hid
      rw [hother j (Ne.symm hid)]
      exact h.destroyed j s' hj hd

theorem Sound.complete {w : World} {i : Nat} {op : Op} {r : Outcome} {s : ProxySession}
    (h : w.Sound) (hlock : w.lock i = some s) (hmem : op ∈ s.pending)
    (hdeliverable : deliverable s op r = true) :
    (w.put ((w.context i (deliver s op r)).handle op r)).Sound := by
  obtain ⟨hget, hs⟩ := lock_eq_some.mp hlock
  have hphase : s.Phase (w.server.posted i) := h.phase i s hget
  have hhandled := handle_handled op r (w.context i (deliver s op r))
  have hframe := hhandled.frame
  have hid : ((w.context i (deliver s op r)).handle op r).id = i := hframe.id
  -- a session that reads its request holds no permit yet
  have hread : op = .readRequest → (w.context i (deliver s op r)).self.permit = none := by
    rintro rfl
    show (deliver s .readRequest r).permit = none
    rw [deliver_permit]
    exact (hphase.of_opening hmem rfl).1.permit
  refine h.put (by rw [hid]; exact hget) ?_ ?_ ?_ ?_ ?_
  · rw [hid]
    exact hhandled.phase hphase rfl rfl hmem hdeliverable h.onRelease
  · intro j hj
    exact hhandled.posted_other hread h.onRelease (hid ▸ hj)
  · intro hd
    rw [hframe.destroyed] at hd
    simp only [context, deliver_destroyed, hs] at hd
    cases hd
  · exact hframe.server.onRelease.trans h.onRelease
  · intro hdead
    have hdead' : w.server.alive = false := hframe.server.alive.symm.trans hdead
    exact (hhandled.strand_of_dead hdead').trans (h.idle hdead')

/-- An enqueue task leaves the strand; the session that was told to wait is still in its phase. -/
theorem Sound.popEnqueue {w : World} {i : Nat} {strand : List Task} (h : w.Sound)
    (hstrand : w.server.strand = .enqueue i :: strand) (server : ProxyServer)
    (hrest : server.strand = strand) (halive : server.alive = w.server.alive)
    (hcb : server.limiter.onRelease = w.server.limiter.onRelease) :
    (w.setServer server).Sound := by
  have hposted (j : Nat) : w.server.posted j = server.posted j + if j = i then 1 else 0 := by
    unfold ProxyServer.posted
    rw [hstrand, hrest, List.count_cons]
    by_cases hj : j = i
    · rw [hj, if_pos rfl, if_pos (beq_self_eq_true _)]
    · rw [if_neg hj, if_neg (by simpa using Ne.symm hj)]
  refine ⟨fun j s hj => ?_, fun j hj => ?_, fun j s hj hd => ?_, hcb.trans h.onRelease,
    fun hdead => ?_⟩
  · have hphase : s.Phase (w.server.posted j) := h.phase j s hj
    show s.Phase (server.posted j)
    by_cases he : w.server.posted j = 0
    · -- no task of this session was on the strand
      have : server.posted j = w.server.posted j := by have := hposted j; omega
      rw [this]
      exact hphase
    · -- the session had one task there, which may be the one that left
      obtain ⟨idle, queued, counted, pending, hone⟩ := hphase.asked_of_posted he
      exact .asked idle queued counted pending (by have := hposted j; omega)
  · have := hposted j
    have := h.posted j hj
    show server.posted j = 0
    omega
  · have := hposted j
    have := h.destroyed j s hj hd
    show server.posted j = 0
    omega
  · have := h.idle (halive.symm.trans hdead)
    rw [hstrand] at this
    cases this

theorem Sound.startQueueTimer {w : World} {i : Nat} {s : ProxySession} (h : w.Sound)
    (hlock : w.lock i = some s) (halive : w.server.alive = true) (hposted : w.server.posted i = 0)
    (hasked : s.Idle ∧ s.requestCounted = true ∧ s.pending = []) :
    (w.put (w.context i s).startQueueTimer).Sound := by
  obtain ⟨hget, hs⟩ := lock_eq_some.mp hlock
  obtain ⟨idle, counted, pending⟩ := hasked
  rw [startQueueTimer_eq halive]
  refine h.put hget ?_ (fun _ _ => rfl) (fun _ => hposted) h.onRelease h.idle
  show ProxySession.Phase (w.server.posted i) _
  rw [hposted]
  refine .waiting ⟨idle.1, idle.2, idle.3, idle.4⟩ rfl counted ?_
  show s.pending ++ [.queueTimer false] = _
  rw [pending]
  rfl

theorem Sound.startFromQueue {w : World} {i : Nat} {s : ProxySession} (h : w.Sound)
    (halive : w.server.alive = true) (hlock : w.lock i = some s) (hqueued : s.queued = true) :
    (w.put ((w.context i s).tryStartFromQueue (Permit.owning ())).2).Sound := by
  obtain ⟨hget, hs⟩ := lock_eq_some.mp hlock
  obtain ⟨idle, counted, pending, hposted⟩ := (h.phase i s hget).waiting_of_queued hqueued
  have hserver : ((w.context i s).dequeued.startProxyRequest (Permit.owning ())).server =
      w.server := startProxyRequest_server _ halive idle.permit
  have hid : ((w.context i s).dequeued.startProxyRequest (Permit.owning ())).id = i :=
    (startProxyRequest_frame _).id
  have hcontrol : (w.context i s).dequeued.self.control = [] := by
    show (s.pending.map Op.cancelQueueTimer).filter _ = []
    rw [pending]
    rfl
  rw [tryStartFromQueue_of_queued _ hqueued idle.finished]
  refine h.put (by rw [hid]; exact hget) ?_ ?_ ?_ ?_ ?_
  · rw [hid]
    exact startProxyRequest_phase halive ⟨idle.1, idle.2, idle.3, idle.4⟩ rfl counted hcontrol
      hposted
  · intro j _
    rw [hserver]
  · intro _
    rw [hserver, hid]
    exact hposted
  · rw [hserver]
    exact h.onRelease
  · rw [hserver]
    exact h.idle

/-- The destructor finds nothing to give back. -/
theorem Sound.destruct_eq {w : World} {i : Nat} {s : ProxySession} (h : w.Sound)
    (hlock : w.lock i = some s) (hpending : s.pending = []) :
    (w.context i s).destruct = (w.context i s).setSelf { s with destroyed := true } := by
  obtain ⟨hget, -⟩ := lock_eq_some.mp hlock
  obtain ⟨hpermit, hqueued⟩ := (h.phase i s hget).of_pending_nil hpending
  simp [destruct, resetPermit, context, hqueued, hpermit]

theorem Sound.quiet {w w' : World} (h : w.Sound) (hq : Quiet w w') : w'.Sound := by
  cases hq with
  | books _ hsame =>
      refine ⟨fun i s hi => ?_, fun i hi => ?_, fun i s hi hd => ?_, ?_, hsame.idle h.idle⟩
      · rw [hsame.posted]
        exact h.phase i s (hsame.sessions ▸ hi)
      · rw [hsame.posted]
        exact h.posted i (hsame.sessions ▸ hi)
      · rw [hsame.posted]
        exact h.destroyed i s (hsame.sessions ▸ hi) hd
      · rw [hsame.onRelease, h.onRelease]
  | arrived sseParser accepting hfresh =>
      refine ⟨fun i s hi => ?_, fun i hi => ?_, fun i s hi hd => ?_, h.onRelease, h.idle⟩
      · rcases Population.getElem?_snoc hi with hi | ⟨rfl, rfl⟩
        · exact h.phase i s hi
        · show ProxySession.Phase (w.server.posted w.sessions.length) _
          rw [h.posted _ (Nat.le_refl _)]
          exact .created sseParser
      · refine h.posted i ?_
        rw [List.length_append] at hi
        omega
      · rcases Population.getElem?_snoc hi with hi | ⟨rfl, rfl⟩
        · exact h.destroyed i s hi hd
        · exact h.posted _ (Nat.le_refl _)
  | closed i s hlock =>
      obtain ⟨hget, hs⟩ := lock_eq_some.mp hlock
      refine h.put hget ((h.phase i s hget).note .closeClient) (fun _ _ => rfl) (fun hd => ?_)
        h.onRelease h.idle
      exact h.destroyed i s hget hd
  | enqueued i s strand hstrand hlock =>
      have halive : w.server.alive = true := h.alive_of_strand (hstrand ▸ List.cons_ne_nil _ _)
      obtain ⟨idle, counted, pending, hposted⟩ := h.asked_of_head hstrand hlock
      have htaken : (w.takeEnqueue i strand).Sound := h.popEnqueue hstrand _ rfl rfl rfl
      exact htaken.startQueueTimer hlock halive hposted ⟨idle, counted, pending⟩
  | promoted i s halive hlock hqueued hclosed hwaiting hslot =>
      have htaken : w.takePromoted.Sound :=
        ⟨h.phase, h.posted, h.destroyed, h.onRelease, h.idle⟩
      exact htaken.startFromQueue halive hlock hqueued
  -- a session that waits for nothing owns nothing, so its destructor is silent
  | destructed i s hlock hpending hposted =>
      obtain ⟨hget, hs⟩ := lock_eq_some.mp hlock
      rw [h.destruct_eq hlock hpending]
      refine h.put hget ?_ (fun _ _ => rfl) (fun _ => hposted) h.onRelease h.idle
      exact (h.phase i s hget).destroy

theorem Sound.quiets {w w' : World} (h : w.Sound) (hq : ReflTransGen Quiet w w') : w'.Sound := by
  induction hq with
  | refl => exact h
  | tail _ hq ih => exact ih.quiet hq

/-- Every step keeps the world sound. -/
theorem Sound.step {w w' : World} {e : Event} (h : w.Sound) (hstep : step w e = some w') :
    w'.Sound := by
  rcases step_cases h hstep with
    ⟨i, op, r, s, -, hlock, hmem, hdeliverable, rfl⟩ |
      ⟨i, s, strand, -, hstrand, -, hlock, rfl⟩ | hquiet
  · exact h.complete hlock hmem hdeliverable
  · have htaken : (w.setStrand strand).Sound := h.popEnqueue hstrand _ rfl rfl rfl
    exact htaken.quiet (.closed i s hlock)
  · exact h.quiets hquiet

theorem forall_put {w : World} {p : Nat → ProxySession → Prop} {c : Context} {s : ProxySession}
    (h : ∀ (i : Nat) (s : ProxySession), w.sessions[i]? = some s → p i s)
    (hget : w.sessions[c.id]? = some s) (hc : p c.id c.self) :
    ∀ (i : Nat) (s : ProxySession), (w.put c).sessions[i]? = some s → p i s := by
  intro i s' hi
  rw [put_getElem? hget] at hi
  split at hi
  · rename_i hid
    exact hid ▸ Option.some.inj hi ▸ hc
  · exact h i s' hi

/-- A queued session that was granted a slot and has started. -/
def startedFromQueue (host service : Bytes) (clock : Nat) (s : ProxySession) : ProxySession :=
  (({ s with
    queued := false
    pending := s.pending.map Op.cancelQueueTimer
    permit := some (Permit.owning ())
    requestStart := some clock } : ProxySession).start (.requestTimer false)).start
      (.resolve host service)

/-- A property of single sessions that the quiet changes keep. -/
structure KeptQuietly (p : Nat → ProxySession → Prop) : Prop where
  created : ∀ i (sseParser : SseParser), sseParser.reset = sseParser →
    p i (({ sseParser } : ProxySession).start .readRequest)
  closed : ∀ i s, p i s → p i (s.note .closeClient)
  enqueued : ∀ i (s : ProxySession), s.Idle → s.pending = [] → p i s →
    p i (({ s with queued := true } : ProxySession).start (.queueTimer false))
  promoted : ∀ i (s : ProxySession) host service clock, s.Idle → s.pending = [.queueTimer false] →
    p i s → p i (startedFromQueue host service clock s)
  destroyed : ∀ i s, p i s → p i { s with destroyed := true }

theorem KeptQuietly.quiet {w w' : World} {p : Nat → ProxySession → Prop} (hp : KeptQuietly p)
    (h : w.Sound) (hq : Quiet w w')
    (hall : ∀ (i : Nat) (s : ProxySession), w.sessions[i]? = some s → p i s) :
    ∀ (i : Nat) (s : ProxySession), w'.sessions[i]? = some s → p i s := by
  cases hq with
  | books _ hsame =>
      rw [hsame.sessions]
      exact hall
  | arrived sseParser accepting hfresh =>
      intro i s hi
      rcases Population.getElem?_snoc hi with hi | ⟨-, rfl⟩
      · exact hall i s hi
      · exact hp.created i sseParser hfresh
  | closed i s hlock =>
      obtain ⟨hget, -⟩ := lock_eq_some.mp hlock
      exact forall_put (c := (w.context i s).closeClient) hall hget (hp.closed i s (hall i s hget))
  | enqueued i s strand hstrand hlock =>
      obtain ⟨hget, -⟩ := lock_eq_some.mp hlock
      have halive : w.server.alive = true := h.alive_of_strand (hstrand ▸ List.cons_ne_nil _ _)
      obtain ⟨idle, -, pending, -⟩ := h.asked_of_head hstrand hlock
      rw [startQueueTimer_eq halive]
      exact forall_put (w := w.takeEnqueue i strand) hall hget
        (hp.enqueued i s idle pending (hall i s hget))
  | promoted i s halive hlock hqueued hclosed hwaiting hslot =>
      obtain ⟨hget, -⟩ := lock_eq_some.mp hlock
      obtain ⟨idle, -, pending, -⟩ := (h.phase i s hget).waiting_of_queued hqueued
      rw [tryStartFromQueue_of_queued _ hqueued idle.finished,
        startProxyRequest_eq _ halive idle.permit]
      exact forall_put (w := w.takePromoted) hall hget
        (hp.promoted i s _ _ w.clock idle pending (hall i s hget))
  | destructed i s hlock hpending hposted =>
      obtain ⟨hget, -⟩ := lock_eq_some.mp hlock
      rw [h.destruct_eq hlock hpending]
      exact forall_put (c := (w.context i s).setSelf { s with destroyed := true }) hall hget
        (hp.destroyed i s (hall i s hget))

/-- What the quiet changes and every delivered completion keep, a step keeps. -/
theorem KeptQuietly.step {w w' : World} {e : Event} {p : Nat → ProxySession → Prop}
    (hp : KeptQuietly p) (h : w.Sound) (hstep : World.step w e = some w')
    (hall : ∀ (i : Nat) (s : ProxySession), w.sessions[i]? = some s → p i s)
    (hcomplete : ∀ i op r s, e = .complete i op r → w.lock i = some s → op ∈ s.pending →
      deliverable s op r = true → p i ((w.context i (deliver s op r)).handle op r).self) :
    ∀ (i : Nat) (s : ProxySession), w'.sessions[i]? = some s → p i s := by
  rcases step_cases h hstep with
    ⟨i, op, r, s, rfl, hlock, hmem, hdeliverable, rfl⟩ |
      ⟨i, s, strand, -, hstrand, -, hlock, rfl⟩ | hquiet
  · obtain ⟨hget, -⟩ := lock_eq_some.mp hlock
    have hid : ((w.context i (deliver s op r)).handle op r).id = i :=
      (handle_handled op r _).frame.id
    refine forall_put hall (by rw [hid]; exact hget) ?_
    rw [hid]
    exact hcomplete i op r s rfl hlock hmem hdeliverable
  · obtain ⟨hget, -⟩ := lock_eq_some.mp hlock
    exact forall_put (w := w.setStrand strand) (c := ((w.setStrand strand).context i s).closeClient)
      hall hget (hp.closed i s (hall i s hget))
  · clear hstep hcomplete
    induction hquiet with
    | refl => exact hall
    | tail hfirst hq ih => exact hp.quiet (h.quiets hfirst) hq ih

theorem Quiet.metrics {w w' : World} (h : w.Sound) (hq : Quiet w w') :
    w'.server.metrics = w.server.metrics := by
  cases hq with
  | books _ hsame => exact hsame.metrics
  | arrived => rfl
  | closed => rfl
  | enqueued =>
      unfold startQueueTimer
      extract_lets c
      split <;> rfl
  | promoted i s halive hlock hqueued =>
      obtain ⟨hget, -⟩ := lock_eq_some.mp hlock
      obtain ⟨idle, -⟩ := (h.phase i s hget).waiting_of_queued hqueued
      rw [tryStartFromQueue_of_queued _ hqueued idle.finished,
        startProxyRequest_eq _ halive idle.permit]
      rfl
  | destructed i s hlock hpending =>
      rw [h.destruct_eq hlock hpending]
      rfl

theorem Sound.metrics_of_quiets {w w' : World} (h : w.Sound) (hq : ReflTransGen Quiet w w') :
    w'.server.metrics = w.server.metrics := by
  induction hq with
  | refl => rfl
  | tail hfirst hq ih => exact (hq.metrics (h.quiets hfirst)).trans ih

/-- A server as `create` and `start` make it. -/
structure Started (config : ProxyConfig) (server : ProxyServer) : Prop where
  config_eq : server.config = config
  maxInflight : server.limiter.maxInflight = config.maxInflight
  maxQueueSize : server.limiter.maxQueueSize = config.maxQueueSize
  currentInflight : server.limiter.currentInflight = 0
  queuedRequests : server.limiter.queuedRequests = 0
  closed : server.limiter.closed = false
  onRelease : server.limiter.onRelease = some .promote
  totalRequests : server.metrics.totalRequests = 0
  completedRequests : server.metrics.completedRequests = 0
  failedRequests : server.metrics.failedRequests = 0
  queuedSessions : server.queuedSessions = []
  strand : server.strand = []
  stopping : server.stopping = false
  accepting : server.accepting = true
  alive : server.alive = true

theorem create_started {config : ProxyConfig} {server : ProxyServer}
    (h : ProxyServer.create config = .ok server) : Started config server := by
  unfold ProxyServer.create at h
  unfold InflightLimiter.create at h
  split at h
  · cases h
  · obtain rfl := Except.ok.inj h
    exact ⟨rfl, rfl, rfl, rfl, rfl, rfl, rfl, rfl, rfl, rfl, rfl, rfl, rfl, rfl, rfl⟩

theorem Sound.init {config : ProxyConfig} {server : ProxyServer}
    (h : ProxyServer.create config = .ok server) : (World.init server).Sound := by
  have hstarted := create_started h
  have hposted (i : Nat) : server.posted i = 0 := by
    unfold ProxyServer.posted
    rw [hstarted.strand]
    rfl
  have hnone {i : Nat} {s : ProxySession} {p : Prop}
      (hi : (World.init server).sessions[i]? = some s) : p := by cases hi
  exact ⟨fun _ _ => hnone, fun i _ => hposted i, fun _ _ => hnone, hstarted.onRelease,
    fun _ => hstarted.strand⟩

/-- Every reachable world is sound. -/
theorem Sound.run {config : ProxyConfig} {server : ProxyServer}
    (h : ProxyServer.create config = .ok server) {events : List Event} {w : World}
    (hrun : Transition.run World.step (World.init server) events = some w) : w.Sound :=
  run_induct hrun (Sound.init h) fun _ _ _ hsound hstep => hsound.step hstep

end World

end VllmSloProxy
