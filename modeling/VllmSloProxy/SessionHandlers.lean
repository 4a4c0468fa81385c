import VllmSloProxy.ProxyServer

/-!
# What a handler can do

Every handler either leaves its session alone, ends it, moves the relay on by one operation, or
decides on a request.  The inversion theorem `handle_handled` says so with all the data, so that the
invariants are proved by cases on it and never look into the handlers.
-/

namespace VllmSloProxy

open Transition

namespace ProxySession

variable (s : ProxySession) (op : Op) (call : Call)

@[simp] theorem start_pending : (s.start op).pending = s.pending ++ [op] := rfl

@[simp] theorem start_calls :
    (s.start op).calls = s.calls ++ [.start op s.permitValid] := rfl

@[simp] theorem start_permit : (s.start op).permit = s.permit := rfl

@[simp] theorem start_permitValid : (s.start op).permitValid = s.permitValid := rfl

@[simp] theorem start_requestStart : (s.start op).requestStart = s.requestStart := rfl

@[simp] theorem start_queued : (s.start op).queued = s.queued := rfl

@[simp] theorem start_finished : (s.start op).finished = s.finished := rfl

@[simp] theorem start_responseStarted : (s.start op).responseStarted = s.responseStarted := rfl

@[simp] theorem start_requestCounted : (s.start op).requestCounted = s.requestCounted := rfl

@[simp] theorem start_delivered : (s.start op).delivered = s.delivered := rfl

@[simp] theorem start_bodyData : (s.start op).bodyData = s.bodyData := rfl

@[simp] theorem start_bodySize : (s.start op).bodySize = s.bodySize := rfl

@[simp] theorem start_upstreamBodyBuffer :
    (s.start op).upstreamBodyBuffer = s.upstreamBodyBuffer := rfl

@[simp] theorem start_destroyed : (s.start op).destroyed = s.destroyed := rfl

end ProxySession

namespace ProxyServer

/-- Everything `release` can do to the server. -/
theorem releasePermit_cases (permit : ServerPermit) (server : ProxyServer) :
    (server.releasePermit permit = server ∧ (permit.ownsSlot = false ∨ server.alive = false)) ∨
    (permit.ownsSlot = true ∧ server.alive = true ∧
      server.releasePermit permit = { server with
        limiter := server.limiter.giveBack.1
        strand := server.strand ++ server.limiter.giveBack.2.toList }) := by
  unfold releasePermit
  by_cases halive : server.alive = true
  · rw [if_pos halive]
    cases howns : permit.ownsSlot with
    | false => exact .inl ⟨by rw [Permit.release_idle howns], .inl rfl⟩
    | true =>
        refine .inr ⟨rfl, halive, ?_⟩
        rw [Permit.release_owning howns]
        cases server.limiter.giveBack.2 with
        | none => simp
        | some task => rfl
  · rw [if_neg halive]
    refine .inl ⟨?_, .inr (Bool.eq_false_iff.mpr halive)⟩
    -- the weak pointer finds no limiter
    unfold Permit.release
    cases permit.ownsSlot <;> rfl

/-- What no handler changes about the server. -/
structure Frame (server server' : ProxyServer) : Prop where
  config : server'.config = server.config
  queuedSessions : server'.queuedSessions = server.queuedSessions
  stopping : server'.stopping = server.stopping
  accepting : server'.accepting = server.accepting
  alive : server'.alive = server.alive
  maxInflight : server'.limiter.maxInflight = server.limiter.maxInflight
  maxQueueSize : server'.limiter.maxQueueSize = server.limiter.maxQueueSize
  closed : server'.limiter.closed = server.limiter.closed
  onRelease : server'.limiter.onRelease = server.limiter.onRelease

theorem Frame.refl (server : ProxyServer) : Frame server server :=
  ⟨rfl, rfl, rfl, rfl, rfl, rfl, rfl, rfl, rfl⟩

theorem Frame.trans {server server' server'' : ProxyServer} (h : Frame server server')
    (h' : Frame server' server'') : Frame server server'' :=
  ⟨h'.config.trans h.config, h'.queuedSessions.trans h.queuedSessions,
    h'.stopping.trans h.stopping, h'.accepting.trans h.accepting, h'.alive.trans h.alive,
    h'.maxInflight.trans h.maxInflight, h'.maxQueueSize.trans h.maxQueueSize,
    h'.closed.trans h.closed, h'.onRelease.trans h.onRelease⟩

theorem releasePermit_frame (permit : ServerPermit) (server : ProxyServer) :
    Frame server (server.releasePermit permit) := by
  rcases releasePermit_cases permit server with ⟨h, -⟩ | ⟨-, -, h⟩
  · rw [h]
    exact .refl server
  · rw [h]
    exact ⟨rfl, rfl, rfl, rfl, rfl, server.limiter.giveBack_maxInflight,
      server.limiter.giveBack_maxQueueSize, server.limiter.giveBack_closed,
      server.limiter.giveBack_onRelease⟩

end ProxyServer

namespace Context

attribute [simp] setSelf setServer start note enter closeClient closeUpstream setMetrics
  setLimiter offerBuffer ProxySession.note

variable (c : Context)

/-- What `settle` notes. -/
def endingCalls (ending : Ending) : List Call :=
  .closeUpstream :: if c.server.alive && c.self.requestCounted then [ending.call] else []

/-- The server after `settle` has recorded the ending, before the permit is given back. -/
def recordedServer (ending : Ending) : ProxyServer :=
  if c.server.alive && c.self.requestCounted then
    { c.server with metrics := ending.record c.server.metrics }
  else c.server

theorem resetPermit_eq : c.resetPermit = { c with
    self := { c.self with permit := none }
    server := c.self.permit.elim c.server c.server.releasePermit } := by
  unfold resetPermit
  cases h : c.self.permit with
  | none =>
      show c = { c with self := { c.self with permit := none } }
      rw [← h]
  | some permit => rfl

/-- `settle` in one piece. -/
theorem settle_eq (ending : Ending) : c.settle ending = { c with
    self := { c.self with
      finished := true
      pending := c.self.pending.map Op.cancelTimer
      permit := none
      calls := c.self.calls ++ c.endingCalls ending }
    server := c.self.permit.elim (c.recordedServer ending)
      (c.recordedServer ending).releasePermit } := by
  unfold settle endingCalls recordedServer
  simp only [cancelTimers, closeUpstream, setSelf, note, ProxySession.note]
  by_cases h : (c.server.alive && c.self.requestCounted) = true
  · simp only [h, if_true, resetPermit_eq, recordEnding, setMetrics, setServer, note, setSelf,
      ProxySession.note, List.append_assoc, List.singleton_append]
  · simp only [h, Bool.false_eq_true, if_false, resetPermit_eq]

/-- What watching the events of a chunk can change: the parser, the first-data flag and the
time-to-first-token metrics. -/
structure Observes (c c' : Context) : Prop where
  self : ∃ sseParser firstSseDataSeen calls, (∀ call ∈ calls, call = .recordTtft) ∧
    c'.self = { c.self with sseParser, firstSseDataSeen, calls := c.self.calls ++ calls }
  server : ∃ metrics : ProxyMetrics, metrics.totalRequests = c.server.metrics.totalRequests ∧
    metrics.completedRequests = c.server.metrics.completedRequests ∧
    metrics.failedRequests = c.server.metrics.failedRequests ∧
    c'.server = { c.server with metrics }
  id : c'.id = c.id
  clock : c'.clock = c.clock
  journal : c'.journal = c.journal

variable {c}

theorem Observes.trans {c' c'' : Context} (h : Observes c c') (h' : Observes c' c'') :
    Observes c c'' := by
  obtain ⟨parser, seen, calls, hcalls, hself⟩ := h.self
  obtain ⟨parser', seen', calls', hcalls', hself'⟩ := h'.self
  obtain ⟨metrics, htotal, hcompleted, hfailed, hserver⟩ := h.server
  obtain ⟨metrics', htotal', hcompleted', hfailed', hserver'⟩ := h'.server
  rw [hserver] at htotal' hcompleted' hfailed'
  refine ⟨⟨parser', seen', calls ++ calls', ?_, ?_⟩, ⟨metrics', ?_, ?_, ?_, ?_⟩, ?_, ?_, ?_⟩
  · intro call hmem
    exact (List.mem_append.mp hmem).elim (hcalls call) (hcalls' call)
  · rw [hself', hself, List.append_assoc]
  · exact htotal'.trans htotal
  · exact hcompleted'.trans hcompleted
  · exact hfailed'.trans hfailed
  · rw [hserver', hserver]
  · exact h'.id.trans h.id
  · exact h'.clock.trans h.clock
  · exact h'.journal.trans h.journal

/-- Only members that nobody else reads change. -/
theorem observes_setSelf (sseParser : SseParser) (firstSseDataSeen : Bool) :
    Observes c (c.setSelf { c.self with sseParser, firstSseDataSeen }) :=
  ⟨⟨sseParser, firstSseDataSeen, [], by simp, by simp⟩,
    ⟨c.server.metrics, rfl, rfl, rfl, rfl⟩, rfl, rfl, rfl⟩

theorem observes_noteTtft {metrics : ProxyMetrics} {start : Nat}
    (h : c.server.metrics.recordTtft start c.clock = .ok metrics) :
    Observes c ((c.setMetrics metrics).note .recordTtft) := by
  obtain ⟨htotal, hcompleted, hfailed⟩ := ProxyMetrics.recordTtft_ok h
  exact ⟨⟨c.self.sseParser, c.self.firstSseDataSeen, [.recordTtft], by simp, rfl⟩,
    ⟨metrics, htotal, hcompleted, hfailed, rfl⟩, rfl, rfl, rfl⟩

theorem observes_note : Observes c (c.note .recordTtft) :=
  ⟨⟨c.self.sseParser, c.self.firstSseDataSeen, [.recordTtft], by simp, rfl⟩,
    ⟨c.server.metrics, rfl, rfl, rfl, rfl⟩, rfl, rfl, rfl⟩

theorem observeEvents_observes (events : List SseEvent) (done : Bool) (c : Context) :
    Observes c (c.observeEvents done events).2 := by
  induction events generalizing c done with
  | nil => exact observes_setSelf c.self.sseParser c.self.firstSseDataSeen
  | cons event events ih =>
      rw [observeEvents]
      split
      · have hseen : Observes c (c.setSelf { c.self with firstSseDataSeen := true }) :=
          observes_setSelf c.self.sseParser true
        extract_lets c₁
        split
        · split
          · exact hseen.trans observes_note
          · rename_i metrics hmetrics
            exact hseen.trans ((observes_noteTtft hmetrics).trans (ih _ _))
        · exact hseen.trans (ih _ _)
      · exact ih _ _

theorem observeSseChunk_observes (data : Bytes) (c : Context) :
    Observes c (c.observeSseChunk data).2 := by
  have hfed : Observes c (c.setSelf { c.self with sseParser := (c.self.sseParser.feed data).1 }) :=
    observes_setSelf _ c.self.firstSseDataSeen
  unfold observeSseChunk
  extract_lets fed c₁
  split
  · exact hfed
  · exact hfed.trans (observeEvents_observes _ _ _)

/-- What `finish_request` and `fail_with_status` do: nothing when the session is finished, and
otherwise they end it, with an error response if it failed before a response had begun. -/
inductive Ends (ending : Ending) (c : Context) : Context → Prop where
  | already (hfinished : c.self.finished = true) : Ends ending c c
  | quietly (hfinished : c.self.finished = false)
      (hstarted : ending = .failed → c.self.responseStarted = true) :
      Ends ending c (c.settle ending).closeClient
  | withError (response : HttpResponse) (hending : ending = .failed)
      (hfinished : c.self.finished = false) (hstarted : c.self.responseStarted = false) :
      Ends ending c ((c.settle ending).start (.writeError response))

theorem settle_responseStarted (ending : Ending) :
    (c.settle ending).self.responseStarted = c.self.responseStarted := by
  rw [settle_eq]

theorem failWithStatus_ends (status : HttpStatus) (error : String) (c : Context) :
    Ends .failed c (c.failWithStatus status error) := by
  unfold failWithStatus
  cases hfinished : c.self.finished with
  | true => exact .already hfinished
  | false =>
      rw [if_neg Bool.false_ne_true]
      extract_lets c₁
      have hstarted : c₁.self.responseStarted = c.self.responseStarted :=
        settle_responseStarted .failed
      split
      · rename_i h
        exact .quietly hfinished fun _ => hstarted ▸ h
      · rename_i h
        exact .withError _ rfl hfinished (hstarted ▸ Bool.eq_false_iff.mpr h)

theorem finishRequest_ends (c : Context) : Ends .completed c c.finishRequest := by
  unfold finishRequest
  cases hfinished : c.self.finished with
  | true => exact .already hfinished
  | false => exact .quietly hfinished fun h => nomatch h

theorem Ends.finished {ending : Ending} {c' : Context} (h : Ends ending c c') :
    c'.self.finished = true := by
  cases h with
  | already hfinished => exact hfinished
  | quietly => simp [settle_eq]
  | withError => simp [settle_eq]

/-- The session is counted as started. -/
def counted (c : Context) : Context :=
  let c := (c.setMetrics c.server.metrics.recordRequestStarted).note .recordStarted
  c.setSelf { c.self with requestCounted := true }

/-- What can become of a request that was read. -/
inductive Requested (c : Context) : Context → Prop where
  | unread : Requested c (c.setSelf { c.self with finished := true })
  | refused (c' : Context) (hends : Ends .failed c c') : Requested c c'
  | health (response : HttpResponse) : Requested c (c.start (.writeText response))
  | admitted (halive : c.server.alive = true) (hclosed : c.server.limiter.closed = false)
      (hslot : c.server.limiter.currentInflight < c.server.limiter.maxInflight) :
      Requested c ((c.counted.setLimiter { c.server.limiter with
        currentInflight := c.server.limiter.currentInflight + 1 }).startProxyRequest
          (Permit.owning ()))
  | queued (halive : c.server.alive = true) (hclosed : c.server.limiter.closed = false)
      (hfull : c.server.limiter.maxInflight ≤ c.server.limiter.currentInflight)
      (hroom : c.server.limiter.queuedRequests < c.server.limiter.maxQueueSize) :
      Requested c (((c.counted.setLimiter { c.server.limiter with
        queuedRequests := c.server.limiter.queuedRequests + 1 }).enter
          (.asked c.id)).enqueueSession)
  | turnedAway (halive : c.server.alive = true) (c' : Context) (hends : Ends .failed c.counted c') :
      Requested c c'

theorem handleRequest_requested (c : Context) : Requested c c.handleRequest := by
  unfold handleRequest sendJsonError
  split
  · split
    · exact .refused _ (failWithStatus_ends ..)
    · unfold sendHealth sendJsonError
      split
      · exact .health _
      · exact .refused _ (failWithStatus_ends ..)
  · split
    · exact .refused _ (failWithStatus_ends ..)
    · split
      · exact .refused _ (failWithStatus_ends ..)
      · split
        · exact .refused _ (failWithStatus_ends ..)
        · rename_i hlocked
          have halive : c.server.alive = true := by simpa using hlocked
          extract_lets c₁ s₂ c₂ acquire c₃
          rcases c.server.limiter.tryAcquireOrQueue_cases () with
            ⟨-, hacq⟩ | ⟨hclosed, hslot, hacq⟩ | ⟨hclosed, hfull, hroom, hacq⟩ | ⟨-, -, -, hacq⟩
          all_goals
            have hacquire : acquire = _ := hacq
            simp only [c₃, hacquire]
          · exact .turnedAway halive _ (failWithStatus_ends ..)
          · exact .admitted halive hclosed hslot
          · exact .queued halive hclosed hfull hroom
          · exact .turnedAway halive _ (failWithStatus_ends ..)

/-- How the relay moves on when `op` has completed: what is prepared, and the operation that is
started next. -/
inductive Relay (op : Op) (r : Outcome) (c : Context) : Context → Op → Prop where
  | resolved (host service : Bytes) (hop : op = .resolve host service) (hec : r.ec = none)
      (halive : c.server.alive = true) : Relay op r c c .connect
  | connected (request : HttpRequest) (hop : op = .connect) (hec : r.ec = none)
      (halive : c.server.alive = true) :
      Relay op r c (c.setSelf { c.self with upstreamRequest := request }) (.writeUpstream request)
  | requestWritten (request : HttpRequest) (hop : op = .writeUpstream request)
      (hec : r.ec = none) : Relay op r c c.offerBuffer .readHeader
  | headerRead (hop : op = .readHeader) (hec : r.ec = none) (hstatus : r.status = .ok) :
      Relay op r c (c.setSelf { c.self with responseStarted := true }) (.writeSseHeader sseHeader)
  | headerWritten (header : Bytes) (hop : op = .writeSseHeader header) (hec : r.ec = none)
      (halive : c.server.alive = true) : Relay op r c c.offerBuffer .readBody
  | bodyWritten (payload : Bytes) (hop : op = .writeBody payload false) (hec : r.ec = none)
      (halive : c.server.alive = true) : Relay op r c c.offerBuffer .readBody
  | bufferFull (hop : op = .readBody) (hec : r.ec = some .needBuffer)
      (halive : c.server.alive = true) : Relay op r c c.offerBuffer .readBody
  | chunk (c₁ : Context) (done : Bool) (hop : op = .readBody) (hec : r.ec = none)
      (hdone : r.isDone = false)
      (hobserved : c.observeSseChunk
        (c.self.upstreamBodyBuffer.take (bodyBufferSize - c.self.bodySize)) = (done, c₁)) :
      Relay op r c c₁
        (.writeBody (c.self.upstreamBodyBuffer.take (bodyBufferSize - c.self.bodySize)) done)

/-- The queue timer has fired on a session that is still queued. -/
def timeOut (c : Context) : Context :=
  let c := if c.server.alive then c.setLimiter c.server.limiter.cancelQueued.2 else c
  (c.setSelf { c.self with queued := false }).enter (.timedOut c.id)

/-- Everything the handler of `op` can do. -/
inductive Handled (op : Op) (r : Outcome) (c : Context) : Context → Prop where
  | timer (hop : op.isTimer = true)
      (hrequest : ∀ b, op = .requestTimer b → r.ec.isSome = true ∨ c.self.finished = true)
      (hqueue : ∀ b, op = .queueTimer b → r.ec.isSome = true ∨ c.self.queued = false) :
      Handled op r c c
  | timedOut (b : Bool) (c' : Context) (hop : op = .queueTimer b) (hec : r.ec = none)
      (hqueued : c.self.queued = true) (hends : Ends .failed c.timeOut c') : Handled op r c c'
  | expired (b : Bool) (c' : Context) (hop : op = .requestTimer b) (hec : r.ec = none)
      (hends : Ends .failed c c') : Handled op r c c'
  | read (c' : Context) (hop : op = .readRequest)
      (hrequested : Requested (c.setSelf { c.self with clientRequest := r.request }) c') :
      Handled op r c c'
  | wroteText (response : HttpResponse) (hop : op = .writeText response) :
      Handled op r c (c.setSelf { c.self with finished := true }).closeClient
  | wroteError (response : HttpResponse) (hop : op = .writeError response) :
      Handled op r c c.closeClient
  | ended (ending : Ending) (c₁ c' : Context) (hop : op.isRelay = true)
      (hcompleted : ending = .completed → op.afterHeader = true) (hobserves : Observes c c₁)
      (hends : Ends ending c₁ c') : Handled op r c c'
  | relayed (c₁ : Context) (next : Op) (hrelay : Relay op r c c₁ next) :
      Handled op r c (c₁.start next)

theorem Observes.refl (c : Context) : Observes c c :=
  observes_setSelf c.self.sseParser c.self.firstSseDataSeen

variable {op : Op} {r : Outcome}

theorem handled_fail (hop : op.isRelay = true) (status : HttpStatus) (error : String) :
    Handled op r c (c.failWithStatus status error) :=
  .ended .failed c _ hop (fun h => nomatch h) (Observes.refl c) (failWithStatus_ends ..)

theorem handled_finish (hop : op.isRelay = true) (hheader : op.afterHeader = true) :
    Handled op r c c.finishRequest :=
  .ended .completed c _ hop (fun _ => hheader) (Observes.refl c) (finishRequest_ends c)

theorem onReadBody_handled (r : Outcome) (c : Context) :
    Handled .readBody r c (c.onReadBody r.ec r.isDone) := by
  unfold onReadBody
  split
  · rename_i hec
    unfold readUpstreamBody
    split
    · rename_i halive
      exact .relayed _ _ (.bufferFull rfl hec halive)
    · exact handled_fail rfl ..
  · split
    · exact handled_finish rfl rfl
    · rename_i hend
      split
      · exact handled_fail rfl ..
      · rename_i hec
        extract_lets remaining consumed chunk observed
        have hobserves : Observes c observed.2 := observeSseChunk_observes chunk c
        unfold writeDownstreamBody
        split
        · exact .ended .completed _ _ rfl (fun _ => rfl) hobserves (finishRequest_ends _)
        · refine .relayed _ _ (.chunk _ _ rfl ?_ ?_ rfl)
          · simpa using hec
          · simp only [Bool.or_eq_true, not_or, Bool.not_eq_true] at hend
            exact hend.2

theorem onWriteBody_handled (payload : Bytes) (upstreamDone : Bool) (r : Outcome) (c : Context) :
    Handled (.writeBody payload upstreamDone) r c (c.onWriteBody r.ec upstreamDone) := by
  unfold onWriteBody
  split
  · exact handled_fail rfl ..
  · rename_i hec
    cases upstreamDone with
    | true => exact handled_finish rfl rfl
    | false =>
        rw [if_neg Bool.false_ne_true]
        unfold readUpstreamBody
        split
        · rename_i halive
          exact .relayed _ _ (.bodyWritten payload rfl (by simpa using hec) halive)
        · exact handled_fail rfl ..

theorem handle_handled (op : Op) (r : Outcome) (c : Context) :
    Handled op r c (c.handle op r) := by
  cases op with
  | readRequest =>
      refine .read _ rfl ?_
      show Requested _ (c.onReadRequest r.ec r.request)
      unfold onReadRequest
      split
      · exact .unread
      · exact handleRequest_requested _
  | writeText response => exact .wroteText response rfl
  | writeError response => exact .wroteError response rfl
  -- each handler of the relay tests `ec` first, then whether the server still lives
  | resolve host service =>
      show Handled _ r c (c.onResolve r.ec)
      unfold onResolve connectUpstream
      split
      · exact handled_fail rfl ..
      · rename_i hec
        split
        · rename_i halive
          exact .relayed _ _ (.resolved host service rfl (by simpa using hec) halive)
        · exact handled_fail rfl ..
  | connect =>
      show Handled _ r c (c.onConnect r.ec)
      unfold onConnect writeUpstreamRequest
      split
      · exact handled_fail rfl ..
      · rename_i hec
        split
        · rename_i halive
          exact .relayed _ _ (.connected _ rfl (by simpa using hec) halive)
        · exact handled_fail rfl ..
  | writeUpstream request =>
      show Handled _ r c (c.onWriteUpstream r.ec)
      unfold onWriteUpstream
      split
      · exact handled_fail rfl ..
      · rename_i hec
        exact .relayed _ _ (.requestWritten request rfl (by simpa using hec))
  | readHeader =>
      show Handled _ r c (c.onReadHeader r.ec r.status)
      unfold onReadHeader
      split
      · exact handled_fail rfl ..
      · rename_i hec
        split
        · exact handled_fail rfl ..
        · rename_i hstatus
          exact .relayed _ _ (.headerRead rfl (by simpa using hec) (by simpa using hstatus))
  -- a failed header write finishes the request, it does not fail it
  | writeSseHeader header =>
      show Handled _ r c (c.onWriteSseHeader r.ec)
      unfold onWriteSseHeader readUpstreamBody
      split
      · exact handled_finish rfl rfl
      · rename_i hec
        split
        · rename_i halive
          exact .relayed _ _ (.headerWritten header rfl (by simpa using hec) halive)
        · exact handled_fail rfl ..
  | readBody => exact onReadBody_handled r c
  | writeBody payload upstreamDone => exact onWriteBody_handled payload upstreamDone r c
  -- a timer handler does nothing when the timer was cancelled or the state has moved on
  | requestTimer b =>
      show Handled _ r c (c.onRequestTimer r.ec)
      unfold onRequestTimer
      split
      · rename_i h
        exact .timer rfl (fun _ _ => by simpa using h) fun _ hop => nomatch hop
      · rename_i h
        exact .expired b _ rfl (by simp at h; exact h.1) (failWithStatus_ends ..)
  | queueTimer b =>
      show Handled _ r c (c.onQueueTimer r.ec)
      unfold onQueueTimer
      split
      · rename_i h
        exact .timer rfl (fun _ hop => nomatch hop) fun _ _ => by simpa using h
      · rename_i h
        simp only [Bool.or_eq_true, not_or, Bool.not_eq_true, Option.isSome_eq_false_iff,
          Option.isNone_iff_eq_none, Bool.not_eq_false'] at h
        exact .timedOut b _ rfl h.1 h.2 (failWithStatus_ends ..)

/-- What no handler changes. -/
structure Frame (c c' : Context) : Prop where
  id : c'.id = c.id
  clock : c'.clock = c.clock
  destroyed : c'.self.destroyed = c.self.destroyed
  server : c.server.Frame c'.server

variable {c' c₁ : Context} {next : Op}

theorem Frame.trans (h : Frame c c₁) (h' : Frame c₁ c') : Frame c c' :=
  ⟨h'.id.trans h.id, h'.clock.trans h.clock, h'.destroyed.trans h.destroyed,
    h.server.trans h'.server⟩

theorem Frame.of_self (s : ProxySession) (h : s.destroyed = c.self.destroyed) :
    Frame c (c.setSelf s) := ⟨rfl, rfl, h, .refl _⟩

theorem recordedServer_frame (ending : Ending) : c.server.Frame (c.recordedServer ending) := by
  unfold recordedServer
  split
  · exact ⟨rfl, rfl, rfl, rfl, rfl, rfl, rfl, rfl, rfl⟩
  · exact .refl _

theorem settle_frame (ending : Ending) : Frame c (c.settle ending) := by
  rw [settle_eq]
  refine ⟨rfl, rfl, rfl, ?_⟩
  cases c.self.permit with
  | none => exact recordedServer_frame ending
  | some permit =>
      exact (recordedServer_frame ending).trans (ProxyServer.releasePermit_frame permit _)

theorem Ends.frame {ending : Ending} (h : Ends ending c c') : Frame c c' := by
  cases h with
  | already => exact .of_self c.self rfl
  | quietly => exact (settle_frame ending).trans (.of_self _ rfl)
  | withError => exact (settle_frame ending).trans (.of_self _ rfl)

theorem Observes.frame (h : Observes c c₁) : Frame c c₁ := by
  obtain ⟨parser, seen, calls, -, hself⟩ := h.self
  obtain ⟨metrics, -, -, -, hserver⟩ := h.server
  refine ⟨h.id, h.clock, by rw [hself], ?_⟩
  rw [hserver]
  exact ⟨rfl, rfl, rfl, rfl, rfl, rfl, rfl, rfl, rfl⟩

theorem resetPermit_frame : Frame c c.resetPermit := by
  rw [resetPermit_eq]
  refine ⟨rfl, rfl, rfl, ?_⟩
  cases c.self.permit with
  | none => exact .refl _
  | some permit => exact ProxyServer.releasePermit_frame permit _

theorem startRequestTimer_frame : Frame c c.startRequestTimer := by
  unfold startRequestTimer
  split
  · exact .of_self _ rfl
  · exact .of_self c.self rfl

theorem resolveUpstream_frame : Frame c c.resolveUpstream := by
  unfold resolveUpstream
  split
  · exact .of_self _ rfl
  · exact (failWithStatus_ends ..).frame

theorem startProxyRequest_frame (permit : ServerPermit) : Frame c (c.startProxyRequest permit) := by
  have hassign : Frame c (c.assignPermit permit) :=
    resetPermit_frame.trans (.of_self (c := c.resetPermit) _ rfl)
  have hstart (c₁ : Context) : Frame c₁
      (c₁.setSelf { c₁.self with requestStart := some c₁.clock }) := .of_self _ rfl
  exact ((hassign.trans (hstart _)).trans startRequestTimer_frame).trans resolveUpstream_frame

theorem Requested.frame (h : Requested c c') : Frame c c' := by
  have hcounted : Frame c c.counted := ⟨rfl, rfl, rfl, rfl, rfl, rfl, rfl, rfl, rfl, rfl, rfl, rfl⟩
  cases h with
  | unread => exact .of_self _ rfl
  | refused _ hends => exact hends.frame
  | health => exact .of_self _ rfl
  | admitted =>
      refine Frame.trans ?_ (startProxyRequest_frame _)
      exact ⟨rfl, rfl, rfl, rfl, rfl, rfl, rfl, rfl, rfl, rfl, rfl, rfl⟩
  | queued => exact ⟨rfl, rfl, rfl, rfl, rfl, rfl, rfl, rfl, rfl, rfl, rfl, rfl⟩
  | turnedAway _ _ hends => exact hcounted.trans hends.frame

theorem Relay.frame (h : Relay op r c c₁ next) : Frame c c₁ := by
  cases h with
  | chunk _ done hop hec hdone hobserved =>
      have hobserves := observeSseChunk_observes
        (c.self.upstreamBodyBuffer.take (bodyBufferSize - c.self.bodySize)) c
      rw [hobserved] at hobserves
      exact hobserves.frame
  | _ => exact .of_self _ rfl

theorem cancelQueued_frame {server : ProxyServer} :
    server.Frame { server with limiter := server.limiter.cancelQueued.2 } := by
  rcases server.limiter.cancelQueued_cases with ⟨-, h⟩ | ⟨-, h⟩ <;> rw [h] <;>
    exact ⟨rfl, rfl, rfl, rfl, rfl, rfl, rfl, rfl, rfl⟩

theorem timeOut_frame : Frame c c.timeOut := by
  unfold timeOut
  split
  · exact ⟨rfl, rfl, rfl, cancelQueued_frame⟩
  · exact ⟨rfl, rfl, rfl, .refl _⟩

theorem Handled.frame (h : Handled op r c c') : Frame c c' := by
  cases h with
  | timer => exact .of_self c.self rfl
  | timedOut _ _ _ _ _ hends => exact timeOut_frame.trans hends.frame
  | expired _ _ _ _ hends => exact hends.frame
  | read _ _ hrequested =>
      exact Frame.trans (.of_self { c.self with clientRequest := r.request } rfl) hrequested.frame
  | wroteText => exact .of_self _ rfl
  | wroteError => exact .of_self _ rfl
  | ended _ _ _ _ _ hobserves hends => exact hobserves.frame.trans hends.frame
  | relayed _ _ hrelay => exact hrelay.frame.trans (.of_self _ rfl)

theorem startQueueTimer_eq (halive : c.server.alive = true) : c.startQueueTimer =
    c.setSelf (({ c.self with queued := true } : ProxySession).start (.queueTimer false)) :=
  if_pos halive

theorem startQueueTimer_frame : Frame c c.startQueueTimer := by
  unfold startQueueTimer
  extract_lets s₁ c₁
  split
  · exact .of_self _ rfl
  · exact .of_self _ rfl

/-- The destructor changes the limiter only. -/
theorem destruct_frame_server : c.server.Frame c.destruct.server := by
  unfold destruct
  extract_lets c₁ c₂
  simp only [c₂, c₁]
  split
  · exact (show c.server.Frame (c.setLimiter _).server from cancelQueued_frame).trans
      (resetPermit_frame (c := c.setLimiter _)).server
  · exact resetPermit_frame.server

end Context

end VllmSloProxy
