import VllmSloProxy.Lib.Run
import VllmSloProxy.Lib.Population
import VllmSloProxy.WorldSteps

/-!
# The queue under several worker threads

The strand of the server and the strands of the sessions may run on different threads.  Each strand
runs one handler at a time; an event begins a handler or takes it to its next call of the limiter,
load or store of `queued_`, or posted task, so that the handlers interleave in any way.
-/

namespace VllmSloProxy

open Transition Population

/-- Where the handler that runs on the strand of a session has got to. -/
inductive SessionPoint where
  -- waits for the request of the client
  | reading
  -- no handler runs
  | idle
  -- `handle_request`: the limiter answered Admit and `permit` holds its slot, `start_proxy_request`
  -- is not yet called
  | admitted
  -- `handle_request`: the limiter answered Queue, `enqueue_session` has not yet posted its task
  | told
  -- the handler of `queue_timer_`: it found `queued_` set, called `cancel_queued`, reset `queued_`
  | timerChecked
  | timerCancelled
  | timerCleared
  -- the destructor has found `queued_` set
  | destroying
  -- `permit_` is to be released; its slot is back and the callback is to be called
  | releasing
  | posting (callback : Task)
  deriving DecidableEq, Repr

/-- Where the strand of the server has got to. -/
inductive StrandPoint where
  -- no task runs
  | free
  -- the task of `enqueue_session`: the session is in the queue, `start_queue_timer` set `queued_`
  | pushed (i : Nat)
  | stored (i : Nat)
  -- `promote_queued_sessions`: at the head of the loop, then with a session from the queue,
  -- which had `queued_` set, for which the limiter had no slot
  | looping
  | popped (i : Nat)
  | willPromote (i : Nat)
  | refused (i : Nat)
  -- `try_start_from_queue` with a valid permit: before it loads `queued_`, before it loads
  -- `finished_`, before it resets `queued_`, before it cancels the timer and before it starts
  | granted (i : Nat) (permit : ServerPermit)
  | readQueued (i : Nat) (permit : ServerPermit)
  | willStart (i : Nat) (permit : ServerPermit)
  | cleared (i : Nat) (permit : ServerPermit)
  | starting (i : Nat) (permit : ServerPermit)
  -- it returned false, so the permit is destroyed
  | returning (i : Nat) (permit : ServerPermit)
  | posting (i : Nat) (callback : Task)
  deriving DecidableEq, Repr

/-- What the queue protocol uses of a session. -/
structure ThreadedSession where
  point : SessionPoint := .reading
  queued : Bool := false
  finished : Bool := false
  permit : ServerPermit := {}
  -- `start_proxy_request` has run
  started : Bool := false
  -- a pending wait of `queue_timer_`, and whether it was cancelled
  queueTimer : Option Bool := none
  destroyed : Bool := false
  -- history: what became of the session, and how many reservations were taken back for it
  told : Bool := false
  promoted : Bool := false
  timedOut : Bool := false
  taken : Nat := 0
  deriving DecidableEq, Repr

structure ThreadedProxy where
  server : ProxyServer
  point : StrandPoint := .free
  sessions : List ThreadedSession := []

inductive ThreadEvent where
  | accept
  -- the request of a session ends without asking the limiter
  | dismiss (i : Nat)
  -- `handle_request` asks the limiter
  | request (i : Nat)
  | queueTimer (i : Nat) (ec : Bool)
  -- a handler of a started session calls `finish_request` or `fail_with_status`
  | endRequest (i : Nat)
  -- the last reference to a session goes away
  | destroySession (i : Nat)
  -- the handler that runs on a session's strand, or on that of the server, takes a step
  | session (i : Nat)
  | strand
  -- `stop()` is called
  | stop
  deriving DecidableEq, Repr

/-- The session that the strand holds a pointer to. -/
def StrandPoint.inHand : StrandPoint → Option Nat
  | free | looping => none
  | pushed i | stored i | popped i | willPromote i | refused i => some i
  | granted i _ | readQueued i _ | willStart i _ | cleared i _ | starting i _ => some i
  | returning i _ | posting i _ => some i

/-- The strand is not in the loop of `promote_queued_sessions`. -/
def StrandPoint.outside : StrandPoint → Bool
  | free | pushed _ | stored _ => true
  | _ => false

namespace ThreadedSession

/-- `finish_request` and `fail_with_status`, up to `permit_.reset()`. -/
def settle (s : ThreadedSession) : ThreadedSession :=
  if s.finished then { s with point := .idle }
  else { s with
    finished := true
    queueTimer := s.queueTimer.map fun _ => true
    point := .releasing }

/-- The handler of `queue_timer_`, up to its load of `queued_`. -/
def onQueueTimer (ec : Bool) (s : ThreadedSession) : ThreadedSession :=
  let s := { s with queueTimer := none }
  if ec || !s.queued then s else { s with point := .timerChecked }

end ThreadedSession

namespace ThreadedProxy

def setServer (w : ThreadedProxy) (server : ProxyServer) : ThreadedProxy := { w with server }

def setLimiter (w : ThreadedProxy) (limiter : InflightLimiter Task) : ThreadedProxy :=
  w.setServer { w.server with limiter }

def setQueue (w : ThreadedProxy) (queue : List Nat) : ThreadedProxy :=
  w.setServer { w.server with queuedSessions := queue }

def setStrand (w : ThreadedProxy) (strand : List Task) : ThreadedProxy :=
  w.setServer { w.server with strand }

def post (w : ThreadedProxy) (task : Task) : ThreadedProxy := w.setServer (w.server.post task)

def goTo (w : ThreadedProxy) (point : StrandPoint) : ThreadedProxy := { w with point }

def put (w : ThreadedProxy) (i : Nat) (s : ThreadedSession) : ThreadedProxy :=
  { w with sessions := w.sessions.set i s }

def lock (w : ThreadedProxy) (i : Nat) : Option ThreadedSession :=
  w.sessions[i]?.filter fun s => !s.destroyed

/-- `handle_request`, from its call of the limiter on. -/
def handleRequest (w : ThreadedProxy) (i : Nat) (s : ThreadedSession) : ThreadedProxy :=
  let acquire := w.server.limiter.tryAcquireOrQueue ()
  let w := w.setLimiter acquire.2
  match acquire.1.decision with
  | .admitted => w.put i { s with point := .admitted, permit := acquire.1.permit }
  | .queue => w.put i { s with point := .told, told := true }
  | .closed | .reject => w.put i s.settle

/-- `cancel_queued` for the session `i`, whose handler goes on at `next`. -/
def cancelFor (w : ThreadedProxy) (i : Nat) (s : ThreadedSession) (next : SessionPoint) :
    ThreadedProxy :=
  let cancelled := w.server.limiter.cancelQueued
  (w.setLimiter cancelled.2).put i { s with point := next, taken := s.taken + cancelled.1.toNat }

/-- The locked part of `release`, and the callback to call.  The server is there to be locked. -/
def release (w : ThreadedProxy) (permit : ServerPermit) : ThreadedProxy × Option Task :=
  let released := permit.release (some w.server.limiter)
  (w.setLimiter (released.2.1.getD w.server.limiter), released.2.2)

/-- `release` on the permit of the session `i`, whose handler goes on to call back. -/
def releaseFor (w : ThreadedProxy) (i : Nat) (s : ThreadedSession) : ThreadedProxy :=
  let released := w.release s.permit
  released.1.put i { s with
    point := released.2.elim .idle SessionPoint.posting
    permit := { s.permit with ownsSlot := false } }

/-- The handler on the strand of session `i` takes a step. -/
def sessionStep (w : ThreadedProxy) (i : Nat) (s : ThreadedSession) : Option ThreadedProxy :=
  match s.point with
  | .reading | .idle => none
  | .admitted => some (w.put i { s with point := .idle, started := true })
  | .told => some ((w.post (.enqueue i)).put i { s with point := .idle })
  | .timerChecked => some (w.cancelFor i s .timerCancelled)
  | .timerCancelled => some (w.put i { s with point := .timerCleared, queued := false })
  | .timerCleared => some (w.put i { s.settle with timedOut := true })
  | .destroying => some (w.cancelFor i s .releasing)
  | .releasing => some (w.releaseFor i s)
  | .posting callback => some ((w.post callback).put i { s with point := .idle })

/-- A task of the strand begins. -/
def begin (w : ThreadedProxy) : Task → ThreadedProxy
  | .enqueue i =>
      -- `close_client` only touches the socket
      if w.server.stopping then w
      else (w.setQueue (w.server.queuedSessions ++ [i])).goTo (.pushed i)
  | .promote => w.goTo .looping
  | .stop =>
      w.setServer { w.server with
        stopping := true
        limiter := w.server.limiter.close
        queuedSessions := [] }

/-- The strand of the server takes a step. -/
def strandStep (w : ThreadedProxy) : Option ThreadedProxy :=
  match w.point with
  | .free =>
      match w.server.strand with
      | [] => none
      | task :: strand => some ((w.setStrand strand).begin task)
  | .pushed i => do
      let s ← w.sessions[i]?
      return (w.put i { s with queued := true }).goTo (.stored i)
  | .stored i => do
      let s ← w.sessions[i]?
      return (w.put i { s with queueTimer := some false }).goTo .free
  | .looping =>
      match w.server.queuedSessions with
      | [] => some (w.goTo .free)
      | i :: queue =>
          match w.lock i with
          | none => some (w.setQueue queue)
          | some _ => some ((w.setQueue queue).goTo (.popped i))
  | .popped i => do
      let s ← w.sessions[i]?
      return w.goTo (if s.queued then .willPromote i else .looping)
  | .willPromote i => do
      let s ← w.sessions[i]?
      let promoted := w.server.limiter.tryPromoteQueued ()
      if promoted.1.valid then
        return ((w.setLimiter promoted.2).put i { s with taken := s.taken + 1 }).goTo
          (.granted i promoted.1)
      else return w.goTo (.refused i)
  | .refused i =>
      if w.server.limiter.snapshot.queuedRequests = 0 then some (w.goTo .looping)
      else some ((w.setQueue (i :: w.server.queuedSessions)).goTo .free)
  | .granted i permit => do
      let s ← w.sessions[i]?
      return w.goTo (if s.queued then .readQueued i permit else .returning i permit)
  | .readQueued i permit => do
      let s ← w.sessions[i]?
      return w.goTo (if s.finished then .returning i permit else .willStart i permit)
  | .willStart i permit => do
      let s ← w.sessions[i]?
      return (w.put i { s with queued := false }).goTo (.cleared i permit)
  | .cleared i permit => do
      let s ← w.sessions[i]?
      return (w.put i { s with queueTimer := s.queueTimer.map fun _ => true }).goTo
        (.starting i permit)
  | .starting i permit => do
      let s ← w.sessions[i]?
      return (w.put i { s with permit, started := true, promoted := true }).goTo .looping
  | .returning i permit =>
      let released := w.release permit
      some (released.1.goTo (released.2.elim .looping (StrandPoint.posting i)))
  | .posting _ callback => some ((w.post callback).goTo .looping)

def step (w : ThreadedProxy) : ThreadEvent → Option ThreadedProxy
  | .accept =>
      -- the handler of `async_accept` also runs on the strand of the server
      if w.point = .free ∧ w.server.accepting then
        some { w with
          server := { w.server with accepting := !w.server.stopping }
          sessions := w.sessions ++ [{}] }
      else none
  | .dismiss i => do
      let s ← w.lock i
      guard (s.point = .reading)
      return w.put i { s with point := .idle, finished := true }
  | .request i => do
      let s ← w.lock i
      guard (s.point = .reading)
      return w.handleRequest i s
  | .queueTimer i ec => do
      let s ← w.lock i
      let cancelled ← s.queueTimer
      guard (s.point = .idle ∧ (!ec || cancelled))
      return w.put i (s.onQueueTimer ec)
  | .endRequest i => do
      let s ← w.lock i
      guard (s.point = .idle ∧ s.started)
      return w.put i s.settle
  | .destroySession i => do
      let s ← w.lock i
      -- a handler, an exchange that goes on, a pending wait, a posted task and the strand hold it
      guard (s.point = .idle ∧ (s.started → s.finished) ∧ s.queueTimer = none ∧
        .enqueue i ∉ w.server.strand ∧ w.point.inHand ≠ some i)
      return w.put i { s with
        destroyed := true
        point := if s.queued then .destroying else .releasing }
  | .session i => do
      let s ← w.sessions[i]?
      w.sessionStep i s
  | .strand => w.strandStep
  | .stop => some (w.post .stop)

def init (server : ProxyServer) : ThreadedProxy := { server }

/-- Everything a step can do. -/
inductive Move (w : ThreadedProxy) : ThreadEvent → ThreadedProxy → Prop
  | accept :
      Move w .accept { w with
        server := { w.server with accepting := !w.server.stopping }
        sessions := w.sessions ++ [{}] }
  | dismiss {i s} (hlock : w.lock i = some s) (hpoint : s.point = .reading) :
      Move w (.dismiss i) (w.put i { s with point := .idle, finished := true })
  | admitted {i s} (hlock : w.lock i = some s) (hpoint : s.point = .reading)
      (hslot : w.server.limiter.currentInflight < w.server.limiter.maxInflight) :
      Move w (.request i)
        ((w.setLimiter { w.server.limiter with
          currentInflight := w.server.limiter.currentInflight + 1 }).put i
          { s with point := .admitted, permit := Permit.owning () })
  | told {i s} (hlock : w.lock i = some s) (hpoint : s.point = .reading)
      (hfull : w.server.limiter.maxInflight ≤ w.server.limiter.currentInflight) :
      Move w (.request i)
        ((w.setLimiter { w.server.limiter with
          queuedRequests := w.server.limiter.queuedRequests + 1 }).put i
          { s with point := .told, told := true })
  | turnedAway {i s} (hlock : w.lock i = some s) (hpoint : s.point = .reading) :
      Move w (.request i) (w.put i s.settle)
  | timerIgnored {i ec s} (hlock : w.lock i = some s) (hpoint : s.point = .idle)
      (htimer : s.queueTimer ≠ none) (hcancelled : ec = true → s.queueTimer = some true)
      (hignore : ec = true ∨ s.queued = false) :
      Move w (.queueTimer i ec) (w.put i { s with queueTimer := none })
  | timerChecked {i s} (hlock : w.lock i = some s) (hpoint : s.point = .idle)
      (htimer : s.queueTimer ≠ none) (hqueued : s.queued = true) :
      Move w (.queueTimer i false)
        (w.put i { s with queueTimer := none, point := .timerChecked })
  | endRequest {i s} (hlock : w.lock i = some s) (hpoint : s.point = .idle)
      (hstarted : s.started = true) : Move w (.endRequest i) (w.put i s.settle)
  | destroySession {i s} (hlock : w.lock i = some s) (hpoint : s.point = .idle)
      (hover : s.started = true → s.finished = true) (htimer : s.queueTimer = none)
      (htask : .enqueue i ∉ w.server.strand) (hhand : w.point.inHand ≠ some i) :
      Move w (.destroySession i) (w.put i { s with
        destroyed := true
        point := if s.queued then .destroying else .releasing })
  | began {i s} (hs : w.sessions[i]? = some s) (hpoint : s.point = .admitted) :
      Move w (.session i) (w.put i { s with point := .idle, started := true })
  | posted {i s} (hs : w.sessions[i]? = some s) (hpoint : s.point = .told) :
      Move w (.session i) ((w.post (.enqueue i)).put i { s with point := .idle })
  | cancelled {i s} (hs : w.sessions[i]? = some s) (hpoint : s.point = .timerChecked) :
      Move w (.session i) (w.cancelFor i s .timerCancelled)
  | timerCleared {i s} (hs : w.sessions[i]? = some s) (hpoint : s.point = .timerCancelled) :
      Move w (.session i) (w.put i { s with point := .timerCleared, queued := false })
  | timedOut {i s} (hs : w.sessions[i]? = some s) (hpoint : s.point = .timerCleared) :
      Move w (.session i) (w.put i { s.settle with timedOut := true })
  | destroyed {i s} (hs : w.sessions[i]? = some s) (hpoint : s.point = .destroying) :
      Move w (.session i) (w.cancelFor i s .releasing)
  | released {i s} (hs : w.sessions[i]? = some s) (hpoint : s.point = .releasing) :
      Move w (.session i) (w.releaseFor i s)
  | calledBack {i callback s} (hs : w.sessions[i]? = some s)
      (hpoint : s.point = .posting callback) :
      Move w (.session i) ((w.post callback).put i { s with point := .idle })
  | begin {task strand} (hpoint : w.point = .free) (hstrand : w.server.strand = task :: strand) :
      Move w .strand ((w.setStrand strand).begin task)
  | stored {i s} (hs : w.sessions[i]? = some s) (hpoint : w.point = .pushed i) :
      Move w .strand ((w.put i { s with queued := true }).goTo (.stored i))
  | armed {i s} (hs : w.sessions[i]? = some s) (hpoint : w.point = .stored i) :
      Move w .strand ((w.put i { s with queueTimer := some false }).goTo .free)
  | ranDry (hpoint : w.point = .looping) (hqueue : w.server.queuedSessions = []) :
      Move w .strand (w.goTo .free)
  | skipped {i queue} (hpoint : w.point = .looping) (hqueue : w.server.queuedSessions = i :: queue)
      (hlock : w.lock i = none) : Move w .strand (w.setQueue queue)
  | popped {i queue s} (hpoint : w.point = .looping)
      (hqueue : w.server.queuedSessions = i :: queue) (hlock : w.lock i = some s) :
      Move w .strand ((w.setQueue queue).goTo (.popped i))
  | stillQueued {i s} (hs : w.sessions[i]? = some s) (hpoint : w.point = .popped i)
      (hqueued : s.queued = true) : Move w .strand (w.goTo (.willPromote i))
  | notQueued {i s} (hs : w.sessions[i]? = some s) (hpoint : w.point = .popped i)
      (hqueued : s.queued = false) : Move w .strand (w.goTo .looping)
  | granted {i s} (hs : w.sessions[i]? = some s) (hpoint : w.point = .willPromote i)
      (hwaiting : 0 < w.server.limiter.queuedRequests)
      (hslot : w.server.limiter.currentInflight < w.server.limiter.maxInflight) :
      Move w .strand (((w.setLimiter { w.server.limiter with
        queuedRequests := w.server.limiter.queuedRequests - 1
        currentInflight := w.server.limiter.currentInflight + 1 }).put i
          { s with taken := s.taken + 1 }).goTo (.granted i (Permit.owning ())))
  | refused {i} (hpoint : w.point = .willPromote i)
      (hrefused : w.server.limiter.closed = true ∨ w.server.limiter.queuedRequests = 0 ∨
        w.server.limiter.maxInflight ≤ w.server.limiter.currentInflight) :
      Move w .strand (w.goTo (.refused i))
  | dropped {i} (hpoint : w.point = .refused i)
      (hnone : w.server.limiter.queuedRequests = 0) : Move w .strand (w.goTo .looping)
  | putBack {i} (hpoint : w.point = .refused i) (hsome : w.server.limiter.queuedRequests ≠ 0) :
      Move w .strand ((w.setQueue (i :: w.server.queuedSessions)).goTo .free)
  | readQueued {i permit s} (hs : w.sessions[i]? = some s) (hpoint : w.point = .granted i permit)
      (hqueued : s.queued = true) : Move w .strand (w.goTo (.readQueued i permit))
  | willStart {i permit s} (hs : w.sessions[i]? = some s)
      (hpoint : w.point = .readQueued i permit) (hfinished : s.finished = false) :
      Move w .strand (w.goTo (.willStart i permit))
  | tooLate {i permit s} (hs : w.sessions[i]? = some s)
      (hpoint : w.point = .granted i permit ∧ s.queued = false ∨
        w.point = .readQueued i permit ∧ s.finished = true) :
      Move w .strand (w.goTo (.returning i permit))
  | cleared {i permit s} (hs : w.sessions[i]? = some s) (hpoint : w.point = .willStart i permit) :
      Move w .strand ((w.put i { s with queued := false }).goTo (.cleared i permit))
  | starting {i permit s} (hs : w.sessions[i]? = some s) (hpoint : w.point = .cleared i permit) :
      Move w .strand ((w.put i { s with queueTimer := s.queueTimer.map fun _ => true }).goTo
        (.starting i permit))
  | started {i permit s} (hs : w.sessions[i]? = some s) (hpoint : w.point = .starting i permit) :
      Move w .strand
        ((w.put i { s with permit, started := true, promoted := true }).goTo .looping)
  | gaveBack {i permit} (hpoint : w.point = .returning i permit) :
      Move w .strand ((w.release permit).1.goTo
        ((w.release permit).2.elim .looping (StrandPoint.posting i)))
  | posting {i callback} (hpoint : w.point = .posting i callback) :
      Move w .strand ((w.post callback).goTo .looping)
  | stop : Move w .stop (w.post .stop)

variable {w w' : ThreadedProxy} {e : ThreadEvent}

theorem lock_eq_some {i : Nat} {s : ThreadedSession} :
    w.lock i = some s ↔ w.sessions[i]? = some s ∧ s.destroyed = false := by
  rw [lock, Option.filter_eq_some_iff, Bool.not_eq_true']

theorem handleRequest_move {i : Nat} {s : ThreadedSession} (hlock : w.lock i = some s)
    (hpoint : s.point = .reading) : Move w (.request i) (w.handleRequest i s) := by
  unfold handleRequest
  rcases w.server.limiter.tryAcquireOrQueue_cases () with
    ⟨-, heq⟩ | ⟨-, hslot, heq⟩ | ⟨-, hfull, -, heq⟩ | ⟨-, -, -, heq⟩ <;> rw [heq]
  · exact .turnedAway hlock hpoint
  · exact .admitted hlock hpoint hslot
  · exact .told hlock hpoint hfull
  · exact .turnedAway hlock hpoint

theorem sessionStep_move {i : Nat} {s : ThreadedSession} (hs : w.sessions[i]? = some s)
    (h : w.sessionStep i s = some w') : Move w (.session i) w' := by
  unfold sessionStep at h
  split at h
  case h_1 | h_2 => cases h
  all_goals
    rename_i hpoint
    obtain rfl := Option.some.inj h
  · exact .began hs hpoint
  · exact .posted hs hpoint
  · exact .cancelled hs hpoint
  · exact .timerCleared hs hpoint
  · exact .timedOut hs hpoint
  · exact .destroyed hs hpoint
  · exact .released hs hpoint
  · exact .calledBack hs hpoint

theorem promote_move {i : Nat} {s : ThreadedSession} (hs : w.sessions[i]? = some s)
    (hpoint : w.point = .willPromote i) (h : w.strandStep = some w') : Move w .strand w' := by
  simp only [strandStep, hpoint, hs, Option.bind_eq_bind, Option.bind_some] at h
  rcases w.server.limiter.tryPromoteQueued_cases () with
    ⟨hrefused, heq⟩ | ⟨-, hwaiting, hslot, heq⟩
  · simp only [heq, Permit.valid_empty, Bool.false_eq_true, ↓reduceIte] at h
    obtain rfl := Option.some.inj h
    exact .refused hpoint hrefused
  · simp only [heq, Permit.valid_owning, ↓reduceIte] at h
    obtain rfl := Option.some.inj h
    exact .granted hs hpoint hwaiting hslot

theorem loop_move (hpoint : w.point = .looping) (h : w.strandStep = some w') :
    Move w .strand w' := by
  simp only [strandStep, hpoint] at h
  cases hqueue : w.server.queuedSessions with
  | nil =>
      rw [hqueue] at h
      obtain rfl := Option.some.inj h
      exact .ranDry hpoint hqueue
  | cons i queue =>
      cases hlock : w.lock i with
      | none =>
          simp only [hqueue, hlock] at h
          obtain rfl := Option.some.inj h
          exact .skipped hpoint hqueue hlock
      | some s =>
          simp only [hqueue, hlock] at h
          obtain rfl := Option.some.inj h
          exact .popped hpoint hqueue hlock

theorem strandStep_move (h : w.strandStep = some w') : Move w .strand w' := by
  -- every point but the loop and the end of a promotion looks its session up first
  have found : ∀ {i : Nat} {f : ThreadedSession → Option ThreadedProxy},
      (w.sessions[i]?).bind f = some w' → ∃ s, w.sessions[i]? = some s ∧ f s = some w' :=
    fun hbind => Option.bind_eq_some_iff.mp hbind
  cases hpoint : w.point with
  | free =>
      cases hstrand : w.server.strand with
      | nil => simp [strandStep, hpoint, hstrand] at h
      | cons task strand =>
          simp only [strandStep, hpoint, hstrand] at h
          obtain rfl := Option.some.inj h
          exact .begin hpoint hstrand
  | looping => exact loop_move hpoint h
  | refused i =>
      simp only [strandStep, hpoint] at h
      split at h <;> obtain rfl := Option.some.inj h
      · exact .dropped hpoint ‹_›
      · exact .putBack hpoint ‹_›
  | returning i permit =>
      simp only [strandStep, hpoint] at h
      obtain rfl := Option.some.inj h
      exact .gaveBack hpoint
  | posting i callback =>
      simp only [strandStep, hpoint] at h
      obtain rfl := Option.some.inj h
      exact .posting hpoint
  | willPromote i =>
      have hbind := h
      simp only [strandStep, hpoint] at hbind
      obtain ⟨s, hs, -⟩ := found hbind
      exact promote_move hs hpoint h
  | pushed i =>
      simp only [strandStep, hpoint] at h
      obtain ⟨s, hs, h⟩ := found h
      obtain rfl := Option.some.inj h
      exact .stored hs hpoint
  | stored i =>
      simp only [strandStep, hpoint] at h
      obtain ⟨s, hs, h⟩ := found h
      obtain rfl := Option.some.inj h
      exact .armed hs hpoint
  | popped i =>
      simp only [strandStep, hpoint] at h
      obtain ⟨s, hs, h⟩ := found h
      obtain rfl := Option.some.inj h
      cases hqueued : s.queued with
      | true => exact .stillQueued hs hpoint hqueued
      | false => exact .notQueued hs hpoint hqueued
  | granted i permit =>
      simp only [strandStep, hpoint] at h
      obtain ⟨s, hs, h⟩ := found h
      obtain rfl := Option.some.inj h
      cases hqueued : s.queued with
      | true => exact .readQueued hs hpoint hqueued
      | false => exact .tooLate hs (.inl ⟨hpoint, hqueued⟩)
  | readQueued i permit =>
      simp only [strandStep, hpoint] at h
      obtain ⟨s, hs, h⟩ := found h
      obtain rfl := Option.some.inj h
      cases hfinished : s.finished with
      | true => exact .tooLate hs (.inr ⟨hpoint, hfinished⟩)
      | false => exact .willStart hs hpoint hfinished
  | willStart i permit =>
      simp only [strandStep, hpoint] at h
      obtain ⟨s, hs, h⟩ := found h
      obtain rfl := Option.some.inj h
      exact .cleared hs hpoint
  | cleared i permit =>
      simp only [strandStep, hpoint] at h
      obtain ⟨s, hs, h⟩ := found h
      obtain rfl := Option.some.inj h
      exact .starting hs hpoint
  | starting i permit =>
      simp only [strandStep, hpoint] at h
      obtain ⟨s, hs, h⟩ := found h
      obtain rfl := Option.some.inj h
      exact .started hs hpoint

theorem queueTimer_move {i : Nat} {ec : Bool} {s : ThreadedSession} (hlock : w.lock i = some s)
    (hpoint : s.point = .idle) (htimer : s.queueTimer ≠ none)
    (hcancelled : ec = true → s.queueTimer = some true) :
    Move w (.queueTimer i ec) (w.put i (s.onQueueTimer ec)) := by
  unfold ThreadedSession.onQueueTimer
  by_cases hignore : ec = true ∨ s.queued = false
  · have hcond : (ec || !s.queued) = true := by simpa using hignore
    simp only [hcond, ↓reduceIte]
    exact .timerIgnored hlock hpoint htimer hcancelled hignore
  · obtain ⟨hec, hqueued⟩ : ec = false ∧ s.queued = true := by simpa using hignore
    have hcond : (ec || !s.queued) = false := by rw [hec, hqueued]; rfl
    simp only [hcond, Bool.false_eq_true, ↓reduceIte]
    rw [hec]
    exact .timerChecked hlock hpoint htimer hqueued

/-- An event that begins a handler of a session that still exists. -/
theorem begins {i : Nat} {p : ThreadedSession → Prop} [DecidablePred p]
    {f : ThreadedSession → ThreadedProxy}
    (h : ((w.lock i).bind fun s => (guard (p s) : Option Unit).bind fun _ => some (f s)) =
      some w') :
    ∃ s, w.lock i = some s ∧ p s ∧ f s = w' := by
  obtain ⟨s, hlock, h⟩ := Option.bind_eq_some_iff.mp h
  obtain ⟨u, hguard, h⟩ := Option.bind_eq_some_iff.mp h
  exact ⟨s, hlock, (Option.guard_eq_some' u).mp hguard, Option.some.inj h⟩

theorem step_move (h : w.step e = some w') : Move w e w' := by
  cases e with
  | accept =>
      simp only [step] at h
      split at h
      · obtain rfl := Option.some.inj h
        exact .accept
      · cases h
  | strand => exact strandStep_move h
  | stop =>
      obtain rfl := Option.some.inj h
      exact .stop
  | session i =>
      obtain ⟨s, hs, h⟩ := Option.bind_eq_some_iff.mp h
      exact sessionStep_move hs h
  | dismiss i =>
      obtain ⟨s, hlock, hpoint, rfl⟩ := begins h
      exact .dismiss hlock hpoint
  | request i =>
      obtain ⟨s, hlock, hpoint, rfl⟩ := begins h
      exact handleRequest_move hlock hpoint
  | endRequest i =>
      obtain ⟨s, hlock, ⟨hpoint, hstarted⟩, rfl⟩ := begins h
      exact .endRequest hlock hpoint hstarted
  | destroySession i =>
      obtain ⟨s, hlock, ⟨hpoint, hover, htimer, htask, hhand⟩, rfl⟩ := begins h
      exact .destroySession hlock hpoint hover htimer htask hhand
  | queueTimer i ec =>
      obtain ⟨s, hlock, h⟩ := Option.bind_eq_some_iff.mp h
      obtain ⟨cancelled, htimer, h⟩ := Option.bind_eq_some_iff.mp h
      obtain ⟨u, hguard, h⟩ := Option.bind_eq_some_iff.mp h
      obtain rfl := Option.some.inj h
      obtain ⟨hpoint, hcancelled⟩ := (Option.guard_eq_some' u).mp hguard
      refine queueTimer_move hlock hpoint (Option.ne_none_iff_exists'.mpr ⟨_, htimer⟩) fun hec => ?_
      rw [htimer]
      simpa [hec] using hcancelled

/-- `release` does nothing, or a slot goes back and the callback is to be called. -/
theorem release_cases (w : ThreadedProxy) (permit : ServerPermit) :
    w.release permit = (w, none) ∨
    w.release permit = (w.setLimiter { w.server.limiter with
      currentInflight := w.server.limiter.currentInflight - 1 }, w.server.limiter.onRelease) := by
  unfold release
  cases howns : permit.ownsSlot with
  | false =>
      rw [Permit.release_idle howns]
      exact .inl rfl
  | true =>
      rw [Permit.release_owning howns]
      by_cases hzero : w.server.limiter.currentInflight = 0
      · refine .inl ?_
        simp only [InflightLimiter.giveBack, hzero, ↓reduceIte]
        rfl
      · refine .inr ?_
        rw [InflightLimiter.giveBack_of_pos (Nat.pos_of_ne_zero hzero)]
        rfl

theorem begin_enqueue (h : w.server.stopping = false) (i : Nat) :
    w.begin (.enqueue i) = (w.setQueue (w.server.queuedSessions ++ [i])).goTo (.pushed i) := by
  simp [begin, h]

/-- What holds of the server and of its limiter until `stop` is called. -/
structure Running (w : ThreadedProxy) : Prop where
  opened : w.server.limiter.closed = false
  accepts : w.server.stopping = false
  unstopped : .stop ∉ w.server.strand
  callback : w.server.limiter.onRelease = some .promote
  capped : w.server.limiter.currentInflight ≤ w.server.limiter.maxInflight
  calls : ∀ s ∈ w.sessions, ∀ task, s.point = .posting task → task = .promote
  strandCalls : ∀ i task, w.point = .posting i task → task = .promote

theorem settle_point_ne (s : ThreadedSession) (task : Task) : s.settle.point ≠ .posting task := by
  unfold ThreadedSession.settle
  split <;> nofun

namespace Running

variable {i : Nat} {s s' : ThreadedSession}

theorem put (h : w.Running) (hs' : ∀ task, s'.point = .posting task → task = .promote) :
    (w.put i s').Running := by
  refine { h with calls := fun t ht => ?_ }
  rcases List.mem_or_eq_of_mem_set ht with hmem | rfl
  · exact h.calls t hmem
  · exact hs'

theorem goTo (h : w.Running) {point : StrandPoint}
    (hpoint : ∀ i task, point = .posting i task → task = .promote) : (w.goTo point).Running :=
  { h with strandCalls := hpoint }

theorem setQueue (h : w.Running) (queue : List Nat) : (w.setQueue queue).Running := { h with }

theorem setStrand (h : w.Running) {strand : List Task} (hstrand : strand ⊆ w.server.strand) :
    (w.setStrand strand).Running :=
  { h with unstopped := fun hmem => h.unstopped (hstrand hmem) }

theorem post (h : w.Running) {task : Task} (htask : task ≠ .stop) : (w.post task).Running := by
  refine { h with unstopped := fun hmem => ?_ }
  rcases List.mem_append.mp hmem with hmem | hmem
  · exact h.unstopped hmem
  · exact htask (List.mem_singleton.mp hmem).symm

theorem setLimiter (h : w.Running) {limiter : InflightLimiter Task}
    (hclosed : limiter.closed = w.server.limiter.closed)
    (hcallback : limiter.onRelease = w.server.limiter.onRelease)
    (hcapped : limiter.currentInflight ≤ limiter.maxInflight) : (w.setLimiter limiter).Running :=
  { h with
    opened := hclosed.trans h.opened
    callback := hcallback.trans h.callback
    capped := hcapped }

theorem release (h : w.Running) (permit : ServerPermit) :
    (w.release permit).1.Running ∧ ∀ task, (w.release permit).2 = some task → task = .promote := by
  rcases w.release_cases permit with heq | heq <;> rw [heq]
  · exact ⟨h, fun _ hnone => (nomatch hnone)⟩
  · refine ⟨h.setLimiter rfl rfl ((Nat.sub_le _ _).trans h.capped), fun task hsome => ?_⟩
    exact (Option.some.inj (h.callback.symm.trans hsome)).symm

theorem cancelFor (h : w.Running) (next : SessionPoint)
    (hnext : ∀ task, next = .posting task → task = .promote) : (w.cancelFor i s next).Running := by
  have hlimiter : (w.setLimiter w.server.limiter.cancelQueued.2).Running := by
    rcases w.server.limiter.cancelQueued_cases with ⟨-, heq⟩ | ⟨-, heq⟩ <;> rw [heq]
    · exact h
    · exact h.setLimiter rfl rfl h.capped
  exact hlimiter.put hnext

theorem begin (h : w.Running) {task : Task} {strand : List Task}
    (hstrand : w.server.strand = task :: strand) : ((w.setStrand strand).begin task).Running := by
  have hrest : (w.setStrand strand).Running :=
    h.setStrand fun t hmem => by rw [hstrand]; exact List.mem_cons_of_mem _ hmem
  cases task with
  | enqueue i =>
      rw [begin_enqueue hrest.accepts]
      exact (hrest.setQueue _).goTo fun _ _ heq => (nomatch heq)
  | promote => exact hrest.goTo fun _ _ heq => (nomatch heq)
  | stop => exact absurd (by rw [hstrand]; exact List.mem_cons_self) h.unstopped

theorem move (h : w.Running) (hmove : Move w e w') (hstop : e ≠ .stop) : w'.Running := by
  have hcalls {i : Nat} {s : ThreadedSession} (hs : w.sessions[i]? = some s) :=
    h.calls s (List.mem_of_getElem? hs)
  cases hmove with
  -- no session is about to post anything but the callback of its limiter
  | accept =>
      refine { h with calls := fun s hs task hpoint => ?_ }
      rcases List.mem_append.mp hs with hmem | hmem
      · exact h.calls s hmem task hpoint
      · rw [List.mem_singleton.mp hmem] at hpoint
        cases hpoint
  | stop => exact absurd rfl hstop
  | dismiss | timerChecked | began | timerCleared => exact h.put (by nofun)
  | turnedAway | endRequest | timedOut =>
      exact h.put fun task hpoint => absurd hpoint (settle_point_ne _ task)
  | destroySession =>
      refine h.put fun task hpoint => ?_
      simp only at hpoint
      split at hpoint <;> cases hpoint
  | timerIgnored hlock hpoint => exact h.put (by rw [hpoint]; nofun)
  | admitted _ _ hslot =>
      apply Running.put _ (by nofun)
      exact h.setLimiter rfl rfl hslot
  | told =>
      apply Running.put _ (by nofun)
      exact h.setLimiter rfl rfl h.capped
  | posted => exact Running.put (h.post (by nofun)) (by nofun)
  | cancelled | destroyed => exact h.cancelFor _ (by nofun)
  | @released i s hs hpoint =>
      obtain ⟨hrunning, hcallback⟩ := h.release s.permit
      refine hrunning.put fun task hposting => hcallback task ?_
      cases hcall : (w.release s.permit).2 with
      | none => rw [hcall] at hposting; cases hposting
      | some callback => rw [hcall] at hposting; cases hposting; rfl
  | calledBack hs hpoint =>
      -- the callback posts a promotion, not a stop
      rw [hcalls hs _ hpoint]
      exact Running.put (h.post (by nofun)) (by nofun)
  | begin hpoint hstrand => exact h.begin hstrand
  | stored hs | armed hs | cleared hs | starting hs | started hs =>
      have hposting := hcalls hs
      exact Running.goTo (h.put (by exact hposting)) (by nofun)
  | ranDry | stillQueued | notQueued | refused | dropped | readQueued | willStart | tooLate =>
      exact h.goTo (by nofun)
  | skipped => exact h.setQueue _
  | popped | putBack => exact (h.setQueue _).goTo (by nofun)
  | granted hs hpoint hwaiting hslot =>
      have hposting := hcalls hs
      apply Running.goTo _ (by nofun)
      apply Running.put _ (by exact hposting)
      exact h.setLimiter rfl rfl hslot
  | @gaveBack i permit hpoint =>
      obtain ⟨hrunning, hcallback⟩ := h.release permit
      refine hrunning.goTo fun j task hposting => hcallback task ?_
      cases hcall : (w.release permit).2 with
      | none => rw [hcall] at hposting; cases hposting
      | some callback => rw [hcall] at hposting; cases hposting; rfl
  | posting hpoint =>
      rw [h.strandCalls _ _ hpoint]
      exact Running.goTo (h.post (by nofun)) (by nofun)

end Running

theorem init_running {config : ProxyConfig} {server : ProxyServer}
    (hcreate : ProxyServer.create config = .ok server) : (init server).Running := by
  have hstarted := World.create_started hcreate
  refine ⟨hstarted.closed, hstarted.stopping, ?_, hstarted.onRelease, ?_,
    fun s hs => absurd hs List.not_mem_nil, fun _ _ hpoint => (nomatch hpoint)⟩
  · show Task.stop ∉ server.strand
    rw [hstarted.strand]
    nofun
  · show server.limiter.currentInflight ≤ _
    rw [hstarted.currentInflight]
    exact Nat.zero_le _

end ThreadedProxy

end VllmSloProxy
