import VllmSloProxy.ProxyState

/-!
# The proxy session

`proxy_session.cpp`, one function for each method and one for each completion handler.  A handler
runs to its end before the next one starts.  What the code prints to `stderr` is left out.
-/

namespace VllmSloProxy

namespace Context

def setSelf (c : Context) (s : ProxySession) : Context := { c with self := s }

def setServer (c : Context) (server : ProxyServer) : Context := { c with server }

def start (op : Op) (c : Context) : Context := c.setSelf (c.self.start op)

def note (call : Call) (c : Context) : Context := c.setSelf (c.self.note call)

def enter (event : QueueEvent) (c : Context) : Context :=
  { c with journal := c.journal ++ [event] }

def closeClient (c : Context) : Context := c.note .closeClient

def closeUpstream (c : Context) : Context := c.note .closeUpstream

def cancelTimers (c : Context) : Context :=
  c.setSelf { c.self with pending := c.self.pending.map Op.cancelTimer }

/-- `permit_.reset()`. -/
def resetPermit (c : Context) : Context :=
  match c.self.permit with
  | none => c
  | some permit =>
      (c.setServer (c.server.releasePermit permit)).setSelf { c.self with permit := none }

def setMetrics (c : Context) (metrics : ProxyMetrics) : Context :=
  c.setServer { c.server with metrics }

def setLimiter (c : Context) (limiter : InflightLimiter Task) : Context :=
  c.setServer { c.server with limiter }

inductive Ending where
  | completed
  | failed
  deriving DecidableEq, Repr

def Ending.record : Ending → ProxyMetrics → ProxyMetrics
  | .completed => ProxyMetrics.recordRequestCompleted
  | .failed => ProxyMetrics.recordRequestFailed

def Ending.call : Ending → Call
  | .completed => .recordCompleted
  | .failed => .recordFailed

def recordEnding (ending : Ending) (c : Context) : Context :=
  (c.setMetrics (ending.record c.server.metrics)).note ending.call

/-- What `finish_request` and `fail_with_status` do alike. -/
def settle (ending : Ending) (c : Context) : Context :=
  let c := c.setSelf { c.self with finished := true }
  let c := c.cancelTimers
  let c := c.closeUpstream
  let c := if c.server.alive && c.self.requestCounted then c.recordEnding ending else c
  c.resetPermit

def finishRequest (c : Context) : Context :=
  if c.self.finished then c
  else (c.settle .completed).closeClient

def jsonResponse (status : HttpStatus) (version : Nat) (body : Bytes) : HttpResponse :=
  HttpResponse.preparePayload
    { status, version
      fields := HttpFields.assign
        (HttpFields.assign [] .server (bytes "vllm-slo-proxy"))
        .contentType (bytes "application/json")
      keepAlive := false
      body }

def errorBody (error : String) : Bytes :=
  bytes "\x7b\"error\":\"" ++ jsonEscape (bytes error) ++ bytes "\"\x7d"

def failWithStatus (status : HttpStatus) (error : String) (c : Context) : Context :=
  if c.self.finished then c
  else
    let c := c.settle .failed
    if c.self.responseStarted then c.closeClient
    else c.start (.writeError (jsonResponse status c.self.clientRequest.version (errorBody error)))

def sendJsonError (status : HttpStatus) (error : String) (c : Context) : Context :=
  c.failWithStatus status error

def onWriteError (c : Context) : Context := c.closeClient

def sendTextResponse (status : HttpStatus) (body : Bytes) (c : Context) : Context :=
  c.start (.writeText (jsonResponse status c.self.clientRequest.version body))

def onWriteText (c : Context) : Context :=
  (c.setSelf { c.self with finished := true }).closeClient

def healthBody (config : ProxyConfig) (limit : InflightLimiterSnapshot)
    (metrics : ProxyMetricsSnapshot) : Bytes :=
  bytes "\x7b" ++
    bytes "\"status\":\"ok\"," ++
    bytes "\"proxy_healthy\":true," ++
    bytes "\"upstream_healthy\":null," ++
    bytes "\"current_inflight\":" ++ decimal limit.currentInflight ++ bytes "," ++
    bytes "\"queued_requests\":" ++ decimal limit.queuedRequests ++ bytes "," ++
    bytes "\"max_inflight\":" ++ decimal limit.maxInflight ++ bytes "," ++
    bytes "\"max_queue_size\":" ++ decimal limit.maxQueueSize ++ bytes "," ++
    bytes "\"total_requests\":" ++ decimal metrics.totalRequests ++ bytes "," ++
    bytes "\"completed_requests\":" ++ decimal metrics.completedRequests ++ bytes "," ++
    bytes "\"failed_requests\":" ++ decimal metrics.failedRequests ++ bytes "," ++
    bytes "\"upstream\":\"" ++ jsonEscape config.upstreamHost ++ bytes ":" ++
    decimal config.upstreamPort ++ bytes "\"" ++
    bytes "\x7d"

def sendHealth (c : Context) : Context :=
  if c.server.alive then
    c.sendTextResponse .ok
      (healthBody c.server.config c.server.limiter.snapshot c.server.metrics.snapshot)
  else c.sendJsonError .serviceUnavailable "proxy server is stopping"

def startRequestTimer (c : Context) : Context :=
  if c.server.alive then c.start (.requestTimer false) else c

def onRequestTimer (ec : Option ErrorCode) (c : Context) : Context :=
  if ec.isSome || c.self.finished then c
  else c.failWithStatus .gatewayTimeout "request timeout"

def resolveUpstream (c : Context) : Context :=
  if c.server.alive then
    c.start (.resolve c.server.config.upstreamHost (decimal c.server.config.upstreamPort))
  else c.failWithStatus .serviceUnavailable "proxy server is stopping"

def connectUpstream (c : Context) : Context :=
  if c.server.alive then c.start .connect
  else c.failWithStatus .serviceUnavailable "proxy server is stopping"

def onResolve (ec : Option ErrorCode) (c : Context) : Context :=
  if ec.isSome then c.failWithStatus .serviceUnavailable "upstream resolve failed"
  else c.connectUpstream

def upstreamRequestOf (config : ProxyConfig) (upstream client : HttpRequest) : HttpRequest :=
  HttpRequest.preparePayload
    { version := 11
      method := .post
      target := bytes "/v1/chat/completions"
      fields :=
        ((upstream.fields.assign .host config.upstreamHost).assign
          .userAgent (bytes "vllm-slo-proxy")
        |>.assign .contentType (bytes "application/json")
        |>.assign .accept (bytes "text/event-stream"))
      body := client.body }

def writeUpstreamRequest (c : Context) : Context :=
  if c.server.alive then
    let request := upstreamRequestOf c.server.config c.self.upstreamRequest c.self.clientRequest
    (c.setSelf { c.self with upstreamRequest := request }).start (.writeUpstream request)
  else c.failWithStatus .serviceUnavailable "proxy server is stopping"

def onConnect (ec : Option ErrorCode) (c : Context) : Context :=
  if ec.isSome then c.failWithStatus .serviceUnavailable "upstream connect failed"
  else c.writeUpstreamRequest

/-- `body().data` and `body().size` are set to the whole buffer. -/
def offerBuffer (c : Context) : Context :=
  c.setSelf { c.self with bodyData := 0, bodySize := bodyBufferSize }

def readUpstreamHeader (c : Context) : Context := c.offerBuffer.start .readHeader

def onWriteUpstream (ec : Option ErrorCode) (c : Context) : Context :=
  if ec.isSome then c.failWithStatus .serviceUnavailable "upstream write failed"
  else c.readUpstreamHeader

def sseHeader : Bytes :=
  bytes "HTTP/1.1 200 OK\r\n" ++
  bytes "Server: vllm-slo-proxy\r\n" ++
  bytes "Content-Type: text/event-stream\r\n" ++
  bytes "Cache-Control: no-cache\r\n" ++
  bytes "Connection: close\r\n" ++
  bytes "\r\n"

def writeDownstreamSseHeader (c : Context) : Context :=
  (c.setSelf { c.self with responseStarted := true }).start (.writeSseHeader sseHeader)

def onReadHeader (ec : Option ErrorCode) (status : HttpStatus) (c : Context) : Context :=
  if ec.isSome then c.failWithStatus .serviceUnavailable "upstream header read failed"
  else if status ≠ .ok then c.failWithStatus .serviceUnavailable "upstream returned non-200"
  else c.writeDownstreamSseHeader

def readUpstreamBody (c : Context) : Context :=
  if c.server.alive then c.offerBuffer.start .readBody
  else c.failWithStatus .serviceUnavailable "proxy server is stopping"

def onWriteSseHeader (ec : Option ErrorCode) (c : Context) : Context :=
  if ec.isSome then c.finishRequest else c.readUpstreamBody

def writeDownstreamBody (data : Bytes) (upstreamDone : Bool) (c : Context) : Context :=
  if data.isEmpty && upstreamDone then c.finishRequest
  else c.start (.writeBody data upstreamDone)

def onWriteBody (ec : Option ErrorCode) (upstreamDone : Bool) (c : Context) : Context :=
  if ec.isSome then c.failWithStatus .serviceUnavailable "downstream write failed"
  else if upstreamDone then c.finishRequest
  else c.readUpstreamBody

/-- The loop of `observe_sse_chunk` over the events of one `feed`.  `request_start_` is set before
any body is read, so its value when empty does not matter.  A `record_ttft` that throws ends the
loop in the `catch` block. -/
def observeEvents (done : Bool) (c : Context) : List SseEvent → Bool × Context
  | [] => (done, c)
  | event :: events =>
      if !c.self.firstSseDataSeen && !event.data.isEmpty then
        let c := c.setSelf { c.self with firstSseDataSeen := true }
        if c.server.alive then
          match c.server.metrics.recordTtft (c.self.requestStart.getD 0) c.clock with
          | .error _ => (true, c.note .recordTtft)
          | .ok metrics =>
              ((c.setMetrics metrics).note .recordTtft).observeEvents (done || event.isDone) events
        else c.observeEvents (done || event.isDone) events
      else c.observeEvents (done || event.isDone) events

def observeSseChunk (data : Bytes) (c : Context) : Bool × Context :=
  let fed := c.self.sseParser.feed data
  let c := c.setSelf { c.self with sseParser := fed.1 }
  match fed.2 with
  | .error _ => (true, c)
  | .ok events => c.observeEvents false events

def onReadBody (ec : Option ErrorCode) (isDone : Bool) (c : Context) : Context :=
  if ec = some .needBuffer then c.readUpstreamBody
  else if ec = some .endOfStream || isDone then c.writeDownstreamBody [] true
  else if ec.isSome then c.failWithStatus .serviceUnavailable "upstream body read failed"
  else
    let remaining := c.self.bodySize
    let consumed := bodyBufferSize - remaining
    let chunk := c.self.upstreamBodyBuffer.take consumed
    let observed := c.observeSseChunk chunk
    observed.2.writeDownstreamBody chunk observed.1

/-- The move assignment to `permit_`, which releases a permit that is still held there. -/
def assignPermit (permit : ServerPermit) (c : Context) : Context :=
  let c := c.resetPermit
  c.setSelf { c.self with permit := some permit }

def startProxyRequest (permit : ServerPermit) (c : Context) : Context :=
  let c := c.assignPermit permit
  let c := c.setSelf { c.self with requestStart := some c.clock }
  let c := c.startRequestTimer
  c.resolveUpstream

/-- `ProxyServer::enqueue_session`: the posted task holds the session. -/
def enqueueSession (c : Context) : Context := c.setServer (c.server.post (.enqueue c.id))

def handleRequest (c : Context) : Context :=
  if c.self.clientRequest.target = bytes "/health" then
    if c.self.clientRequest.method ≠ .get then
      c.sendJsonError .methodNotAllowed "GET required for /health"
    else c.sendHealth
  else if c.self.clientRequest.target ≠ bytes "/v1/chat/completions" then
    c.sendJsonError .notFound "unsupported path"
  else if c.self.clientRequest.method ≠ .post then
    c.sendJsonError .methodNotAllowed "POST required for /v1/chat/completions"
  else if !c.server.alive then
    c.sendJsonError .serviceUnavailable "proxy server is stopping"
  else
    let c := (c.setMetrics c.server.metrics.recordRequestStarted).note .recordStarted
    let c := c.setSelf { c.self with requestCounted := true }
    let acquire := c.server.limiter.tryAcquireOrQueue ()
    let c := c.setLimiter acquire.2
    match acquire.1.decision with
    | .admitted => c.startProxyRequest acquire.1.permit
    | .queue => (c.enter (.asked c.id)).enqueueSession
    | .closed => c.sendJsonError .serviceUnavailable "proxy is shutting down"
    | .reject => c.sendJsonError .tooManyRequests "admission queue is full"

def onReadRequest (ec : Option ErrorCode) (request : HttpRequest) (c : Context) : Context :=
  let c := c.setSelf { c.self with clientRequest := request }
  if ec.isSome then c.setSelf { c.self with finished := true }
  else c.handleRequest

def startQueueTimer (c : Context) : Context :=
  let c := c.setSelf { c.self with queued := true }
  if c.server.alive then c.start (.queueTimer false) else c.closeClient

def onQueueTimer (ec : Option ErrorCode) (c : Context) : Context :=
  if ec.isSome || !c.self.queued then c
  else
    let c := if c.server.alive then c.setLimiter c.server.limiter.cancelQueued.2 else c
    let c := (c.setSelf { c.self with queued := false }).enter (.timedOut c.id)
    c.sendJsonError .tooManyRequests "queue timeout"

/-- The permit is passed by value, so it is released when it has not been moved on. -/
def tryStartFromQueue (permit : ServerPermit) (c : Context) : Bool × Context :=
  if !c.self.queued || c.self.finished then
    (false, c.setServer (c.server.releasePermit permit))
  else
    let c := c.setSelf { c.self with queued := false }
    let c := c.setSelf { c.self with pending := c.self.pending.map Op.cancelQueueTimer }
    (true, (c.enter (.started c.id)).startProxyRequest permit)

/-- The destructor, and the destruction of the permit that is a member. -/
def destruct (c : Context) : Context :=
  let c :=
    if c.self.queued && c.server.alive then c.setLimiter c.server.limiter.cancelQueued.2 else c
  let c := c.resetPermit
  c.setSelf { c.self with destroyed := true }

/-- The handler of `op`, after the runtime has delivered what it completed with. -/
def handle (op : Op) (r : Outcome) (c : Context) : Context :=
  match op with
  | .readRequest => c.onReadRequest r.ec r.request
  | .writeText _ => c.onWriteText
  | .writeError _ => c.onWriteError
  | .resolve _ _ => c.onResolve r.ec
  | .connect => c.onConnect r.ec
  | .writeUpstream _ => c.onWriteUpstream r.ec
  | .readHeader => c.onReadHeader r.ec r.status
  | .writeSseHeader _ => c.onWriteSseHeader r.ec
  | .readBody => c.onReadBody r.ec r.isDone
  | .writeBody _ upstreamDone => c.onWriteBody r.ec upstreamDone
  | .requestTimer _ => c.onRequestTimer r.ec
  | .queueTimer _ => c.onQueueTimer r.ec

end Context

end VllmSloProxy
