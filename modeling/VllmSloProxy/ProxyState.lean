import VllmSloProxy.HttpMessage
import VllmSloProxy.InflightLimiter
import VllmSloProxy.ProxyMetrics
import VllmSloProxy.SseParser

/-!
# The objects of the proxy

`proxy_config.hpp`, and the members of `ProxyServer` and `ProxySession`.  Each object also carries
what the runtime keeps for it: the asynchronous operations that are pending on a session and the
tasks posted to the server strand.  A timer may fire at any moment, so its duration is left out.
-/

namespace VllmSloProxy

structure ProxyConfig where
  upstreamHost : Bytes := bytes "127.0.0.1"
  upstreamPort : Nat := 8000
  maxInflight : Nat := 2
  maxQueueSize : Nat := 8
  maxSseBufferBytes : Nat := 1024 * 1024
  maxSseBufferBytes_lt : maxSseBufferBytes < SizeT.modulus := by decide

inductive ErrorCode where
  | needBuffer
  | endOfStream
  | operationAborted
  | other (code : Nat)
  deriving DecidableEq, Repr

/-- An asynchronous operation that a session has started, with what its handler has captured. -/
inductive Op where
  | readRequest
  | writeText (response : HttpResponse)
  | writeError (response : HttpResponse)
  | resolve (host service : Bytes)
  | connect
  | writeUpstream (request : HttpRequest)
  | readHeader
  | writeSseHeader (header : Bytes)
  | readBody
  | writeBody (payload : Bytes) (upstreamDone : Bool)
  | requestTimer (cancelled : Bool)
  | queueTimer (cancelled : Bool)
  deriving DecidableEq, Repr

/-- What an operation completes with.  Each handler reads the fields that its operation fills. -/
structure Outcome where
  ec : Option ErrorCode := none
  request : HttpRequest := {}
  status : HttpStatus := .ok
  copied : Bytes := []
  isDone : Bool := false
  deriving DecidableEq, Repr

/-- What a session does to the outside, in order: the operations it starts, each with whether it
held a valid permit then, and the calls that close, count and measure. -/
inductive Call where
  | start (op : Op) (permitValid : Bool)
  | closeUpstream
  | closeClient
  | recordStarted
  | recordCompleted
  | recordFailed
  | recordTtft
  deriving DecidableEq, Repr

/-- `upstream_body_buffer_.size()`. -/
abbrev bodyBufferSize : Nat := 8192

/-- There is one limiter, so a permit needs no name for it. -/
abbrev ServerPermit := Permit Unit

structure ProxySession where
  clientRequest : HttpRequest := {}
  upstreamRequest : HttpRequest := {}
  upstreamBodyBuffer : Bytes := List.replicate bodyBufferSize 0
  -- `body().data`, as an offset into the buffer, and `body().size`
  bodyData : Nat := 0
  bodySize : Nat := 0
  permit : Option ServerPermit := none
  requestStart : Option Nat := none
  sseParser : SseParser
  firstSseDataSeen : Bool := false
  queued : Bool := false
  finished : Bool := false
  responseStarted : Bool := false
  requestCounted : Bool := false
  -- the runtime: what is pending, what was delivered and what the session did
  pending : List Op := []
  delivered : List (Op × Outcome) := []
  calls : List Call := []
  destroyed : Bool := false

/-- What is posted to the strand of the server. -/
inductive Task where
  | enqueue (id : Nat)
  | promote
  | stop
  deriving DecidableEq, Repr

structure ProxyServer where
  config : ProxyConfig
  limiter : InflightLimiter Task
  metrics : ProxyMetrics
  -- weak pointers, as positions in the list of all sessions
  queuedSessions : List Nat := []
  stopping : Bool := false
  strand : List Task := []
  -- whether an `async_accept` is pending, and whether the object still exists
  accepting : Bool := true
  alive : Bool := true

/-- The queue answers, promotions and timeouts of all sessions in the order they happened. -/
inductive QueueEvent where
  | asked (id : Nat)
  | started (id : Nat)
  | timedOut (id : Nat)
  deriving DecidableEq, Repr

/-- What a handler of the session `id` can touch: the session and, through the weak pointer, the
server. -/
structure Context where
  server : ProxyServer
  self : ProxySession
  id : Nat
  clock : Nat := 0
  journal : List QueueEvent := []

namespace Op

def isTimer : Op → Bool
  | requestTimer _ | queueTimer _ => true
  | _ => false

/-- The operations of the exchange with the upstream. -/
def usesUpstream : Op → Bool
  | resolve _ _ | connect | writeUpstream _ | readHeader | readBody => true
  | _ => false

def writesClient : Op → Bool
  | writeText _ | writeError _ | writeSseHeader _ | writeBody _ _ => true
  | _ => false

/-- The operations whose handlers continue a proxied request; at most one of them is pending. -/
def isRelay : Op → Bool
  | writeSseHeader _ | writeBody _ _ => true
  | op => op.usesUpstream

/-- The operations that follow the response header of the upstream. -/
def afterHeader : Op → Bool
  | writeSseHeader _ | readBody | writeBody _ _ => true
  | _ => false

/-- `timer.cancel()`: a wait that is still pending is marked, and may now complete with an error;
if it had expired before, its handler still runs without one. -/
def cancelTimer : Op → Op
  | requestTimer _ => requestTimer true
  | queueTimer _ => queueTimer true
  | op => op

def cancelQueueTimer : Op → Op
  | queueTimer _ => queueTimer true
  | op => op

end Op

namespace ProxySession

def permitValid (s : ProxySession) : Bool := s.permit.any Permit.valid

/-- An operation is started. -/
def start (op : Op) (s : ProxySession) : ProxySession :=
  { s with pending := s.pending ++ [op], calls := s.calls ++ [.start op s.permitValid] }

def note (call : Call) (s : ProxySession) : ProxySession := { s with calls := s.calls ++ [call] }

/-- Beast's `buffer_body`: the copied bytes go to `body().data`, which moves on, and `body().size`
is what room is left. -/
def receive (copied : Bytes) (s : ProxySession) : ProxySession :=
  { s with
    upstreamBodyBuffer := s.upstreamBodyBuffer.take s.bodyData ++ copied ++
      s.upstreamBodyBuffer.drop (s.bodyData + copied.length)
    bodyData := s.bodyData + copied.length
    bodySize := s.bodySize - copied.length }

end ProxySession

namespace ProxyServer

def post (task : Task) (server : ProxyServer) : ProxyServer :=
  { server with strand := server.strand ++ [task] }

/-- `release` on a permit of this server's limiter.  The on-release callback posts its task. -/
def releasePermit (permit : ServerPermit) (server : ProxyServer) : ProxyServer :=
  match permit.release (if server.alive then some server.limiter else none) with
  | (_, some limiter, some task) => { server with limiter }.post task
  | (_, some limiter, none) => { server with limiter }
  | (_, none, _) => server

end ProxyServer

end VllmSloProxy
