import VllmSloProxy.Lib.Run
import VllmSloProxy.ProxySession

/-!
# The proxy server and its sessions

`proxy_server.cpp`, and the world of one server with all the sessions that it has accepted.  The
event loop picks any pending operation or the next task of the strand and runs its handler to the
end, so a run is any interleaving of handlers.
-/

namespace VllmSloProxy

structure World where
  server : ProxyServer
  sessions : List ProxySession := []
  clock : Nat := 0
  journal : List QueueEvent := []

inductive Event where
  -- `async_accept` completes with a socket, or with an error
  | accept
  | acceptFailed
  | complete (i : Nat) (op : Op) (r : Outcome)
  | runTask
  -- `stop()` is called
  | stop
  -- the last reference to a session, or to the server, goes away
  | destroySession (i : Nat)
  | destroyServer
  | tick (nanoseconds : Nat)
  deriving DecidableEq, Repr

namespace ProxyServer

/-- The constructor, and `start()`, which sets the on-release callback and begins to accept. -/
def create (config : ProxyConfig) : Except String ProxyServer := do
  let limiter ← InflightLimiter.create config.maxInflight config.maxQueueSize
  let metrics ← ProxyMetrics.create 256
  return { config, limiter := limiter.setOnRelease .promote, metrics }

end ProxyServer

namespace World

def setServer (w : World) (server : ProxyServer) : World := { w with server }

def setStrand (w : World) (strand : List Task) : World :=
  w.setServer { w.server with strand }

def setQueue (w : World) (queue : List Nat) : World :=
  w.setServer { w.server with queuedSessions := queue }

/-- What `weak_ptr::lock` finds. -/
def lock (w : World) (i : Nat) : Option ProxySession :=
  w.sessions[i]?.filter fun s => !s.destroyed

def context (w : World) (i : Nat) (s : ProxySession) : Context where
  server := w.server
  self := s
  id := i
  clock := w.clock
  journal := w.journal

def put (w : World) (c : Context) : World :=
  { w with server := c.server, sessions := w.sessions.set c.id c.self, journal := c.journal }

def onSession (w : World) (i : Nat) (f : Context → Context) : World :=
  match w.lock i with
  | none => w
  | some s => w.put (f (w.context i s))

/-- The task of `enqueue_session`. -/
def enqueued (w : World) (i : Nat) : World :=
  if w.server.stopping then w.onSession i Context.closeClient
  else (w.setQueue (w.server.queuedSessions ++ [i])).onSession i Context.startQueueTimer

/-- The loop of `promote_queued_sessions`; each round takes an entry off the queue, or ends it. -/
def promoteLoop (w : World) : List Nat → World
  | [] => w.setQueue []
  | i :: queue =>
      match w.lock i with
      | none => (w.setQueue queue).promoteLoop queue
      | some s =>
          if !s.queued then (w.setQueue queue).promoteLoop queue
          else
            let promoted := w.server.limiter.tryPromoteQueued ()
            if !promoted.1.valid then
              if promoted.2.snapshot.queuedRequests = 0 then (w.setQueue queue).promoteLoop queue
              else w.setQueue (i :: queue)
            else
              let w := w.setServer
                { w.server with queuedSessions := queue, limiter := promoted.2 }
              let started := (w.context i s).tryStartFromQueue promoted.1
              -- whether the session was started makes no difference to the loop
              (w.put started.2).promoteLoop queue

def promoteQueuedSessions (w : World) : World := w.promoteLoop w.server.queuedSessions

/-- The task that `stop` posts. -/
def stopNow (w : World) : World :=
  let w := w.setServer { w.server with stopping := true, limiter := w.server.limiter.close }
  let queue := w.server.queuedSessions
  (queue.foldl (fun w i => w.onSession i Context.closeClient) w).setQueue []

def runTask (w : World) : Task → World
  | .enqueue i => w.enqueued i
  | .promote => w.promoteQueuedSessions
  | .stop => w.stopNow

/-- `on_accept`, without its error, makes a session that starts to read its request. -/
def accepted (w : World) : Option World :=
  match SseParser.create w.server.config.maxSseBufferBytes w.server.config.maxSseBufferBytes_lt with
  -- the exception of the constructor leaves the event loop
  | .error _ => none
  | .ok sseParser =>
      let session : ProxySession := { sseParser }
      some { w with
        server := { w.server with accepting := !w.server.stopping }
        sessions := w.sessions ++ [session.start .readRequest] }

/-- What the runtime may deliver for an operation: a timer that nobody cancelled has no error, and
a read copies no more than the room it was given. -/
def deliverable (s : ProxySession) (op : Op) (r : Outcome) : Bool :=
  match op with
  | .requestTimer cancelled | .queueTimer cancelled => r.ec.isNone || cancelled
  | .readBody => r.copied.length ≤ s.bodySize
  | _ => true

/-- The operation leaves the pending ones, and what a read has copied is in the buffer. -/
def deliver (s : ProxySession) (op : Op) (r : Outcome) : ProxySession :=
  let s := { s with
    pending := s.pending.erase op
    delivered := s.delivered ++ [(op, r)] }
  match op with
  | .readBody => s.receive r.copied
  | _ => s

def complete (w : World) (i : Nat) (op : Op) (r : Outcome) : Option World := do
  let s ← w.lock i
  guard (op ∈ s.pending ∧ deliverable s op r)
  return w.put ((w.context i (deliver s op r)).handle op r)

def step (w : World) : Event → Option World
  | .accept => if w.server.accepting then w.accepted else none
  | .acceptFailed =>
      if w.server.accepting then
        some (w.setServer { w.server with accepting := !w.server.stopping })
      else none
  | .complete i op r => w.complete i op r
  | .runTask =>
      match w.server.strand with
      | [] => none
      | task :: strand => some ((w.setStrand strand).runTask task)
  | .stop => if w.server.alive then some (w.setServer (w.server.post .stop)) else none
  | .destroySession i => do
      let s ← w.lock i
      -- pending operations and posted tasks hold the session
      guard (s.pending = [] ∧ .enqueue i ∉ w.server.strand)
      return w.put (w.context i s).destruct
  | .destroyServer =>
      -- so do a pending accept and the posted tasks with the server
      if w.server.alive ∧ !w.server.accepting ∧ w.server.strand = [] then
        some (w.setServer { w.server with alive := false })
      else none
  | .tick nanoseconds => some { w with clock := w.clock + nanoseconds }

def init (server : ProxyServer) : World := { server }

-- A server with one slot and a request for it, for concrete runs.

def oneSlotConfig : ProxyConfig := { maxInflight := 1 }

def oneSlotServer : ProxyServer where
  config := oneSlotConfig
  limiter := {
    maxInflight := 1
    maxQueueSize := 8
    onRelease := some .promote
    maxInflight_pos := by decide }
  metrics := { ttftWindow := {
    capacity := 256
    capacity_pos := by decide
    samples_length_le := by decide } }

theorem oneSlotServer_create : ProxyServer.create oneSlotConfig = .ok oneSlotServer := rfl

def chatRequest : HttpRequest := { method := .post, target := bytes "/v1/chat/completions" }

end World

end VllmSloProxy
