import VllmSloProxy.JsonBodies
import VllmSloProxy.SessionInvariants

/-!
# What the messages of a session carry

Every operation that a session starts carries what the source puts into it: the request to the
upstream is a fresh one with the client's body, and a complete response is the health report or one
of thirteen failures.
-/

namespace VllmSloProxy

open Context Transition Json

namespace Context

/-- The failures that the handler of an operation reports before a response has begun.  What it
reports after that, a body read or a body write that fails, no client is told. -/
def failuresOf (op : Op) (r : Outcome) : List (HttpStatus × String) :=
  match op with
  | .readRequest => [
      (.methodNotAllowed, "GET required for /health"),
      (.notFound, "unsupported path"),
      (.methodNotAllowed, "POST required for /v1/chat/completions"),
      (.serviceUnavailable, "proxy server is stopping"),
      (.serviceUnavailable, "proxy is shutting down"),
      (.tooManyRequests, "admission queue is full")]
  | .resolve _ _ => [
      (.serviceUnavailable, "upstream resolve failed"),
      (.serviceUnavailable, "proxy server is stopping")]
  | .connect => [
      (.serviceUnavailable, "upstream connect failed"),
      (.serviceUnavailable, "proxy server is stopping")]
  | .writeUpstream _ => [(.serviceUnavailable, "upstream write failed")]
  | .readHeader => [
      (.serviceUnavailable, "upstream header read failed"),
      (.serviceUnavailable, "upstream returned non-200")]
  | .requestTimer _ => if r.ec.isSome then [] else [(.gatewayTimeout, "request timeout")]
  | .queueTimer _ => if r.ec.isSome then [] else [(.tooManyRequests, "queue timeout")]
  | _ => []

/-- All that a client can be told of. -/
def failures : List (HttpStatus × String) :=
  (failuresOf .readRequest {} ++ failuresOf .connect {} ++ failuresOf .readHeader {} ++
    failuresOf (.requestTimer false) {} ++ failuresOf (.queueTimer false) {}) ++
  [(.serviceUnavailable, "upstream resolve failed"), (.serviceUnavailable, "upstream write failed")]

theorem failuresOf_subset (op : Op) (r : Outcome) :
    ∀ failure ∈ failuresOf op r, failure ∈ failures := by
  cases op with
  | requestTimer _ =>
      unfold failuresOf
      split <;> simp [failures, failuresOf]
  | queueTimer _ =>
      unfold failuresOf
      split <;> simp [failures, failuresOf]
  | _ => simp [failures, failuresOf]

/-- What an operation carries that a session starts for the request `client`.  The health report
shows `figures`, and the failures are those that may be `told`. -/
def Carries (config : ProxyConfig)
    (figures : InflightLimiterSnapshot → ProxyMetricsSnapshot → Prop)
    (told : HttpStatus × String → Prop) (client : HttpRequest) : Op → Prop
  | .writeText response => ∃ limit metrics, figures limit metrics ∧
      response = jsonResponse .ok client.version (healthBody config limit metrics)
  | .writeError response => ∃ failure, told failure ∧
      response = jsonResponse failure.1 client.version (errorBody failure.2)
  | .resolve host service => host = config.upstreamHost ∧ service = decimal config.upstreamPort
  | .writeUpstream request => request = upstreamRequestOf config {} client
  | .writeSseHeader header => header = sseHeader
  | _ => True

end Context

variable {config : ProxyConfig} {figures : InflightLimiterSnapshot → ProxyMetricsSnapshot → Prop}
  {told : HttpStatus × String → Prop}

theorem Context.Carries.mono {told' : HttpStatus × String → Prop} {client : HttpRequest} {op : Op}
    (h : Carries config figures told client op) (htold : ∀ failure, told failure → told' failure) :
    Carries config figures told' client op := by
  cases op with
  | writeError response =>
      obtain ⟨failure, hfailure, heq⟩ := h
      exact ⟨failure, htold failure hfailure, heq⟩
  | _ => exact h

/-- Writing the request anew does not change it. -/
theorem upstreamRequestOf_again (config : ProxyConfig) (client : HttpRequest) :
    upstreamRequestOf config (upstreamRequestOf config {} client) client =
      upstreamRequestOf config {} client := by
  simp [upstreamRequestOf, HttpRequest.preparePayload, HttpFields.assign]

namespace ProxySession

/-- A session that has read its request, as far as its messages go. -/
structure Faithful (config : ProxyConfig)
    (figures : InflightLimiterSnapshot → ProxyMetricsSnapshot → Prop)
    (told : HttpStatus × String → Prop) (s : ProxySession) : Prop where
  read : .readRequest ∉ s.pending
  upstreamRequest : s.upstreamRequest = {} ∨
    s.upstreamRequest = upstreamRequestOf config {} s.clientRequest
  calls : ∀ op valid, .start op valid ∈ s.calls → Carries config figures told s.clientRequest op

/-- A session that still reads its request has started nothing else. -/
inductive Authentic (config : ProxyConfig)
    (figures : InflightLimiterSnapshot → ProxyMetricsSnapshot → Prop)
    (told : HttpStatus × String → Prop) (s : ProxySession) : Prop where
  | reading (pending : s.pending = [.readRequest]) (fresh : s.upstreamRequest = {})
      (calls : ∀ op valid, .start op valid ∈ s.calls → op = .readRequest)
  | read (faithful : s.Faithful config figures told)

variable {s s' : ProxySession}

theorem Authentic.carries (h : s.Authentic config figures told) {op : Op} {valid : Bool}
    (hmem : .start op valid ∈ s.calls) : Carries config figures told s.clientRequest op := by
  cases h with
  | reading _ _ calls =>
      rw [calls op valid hmem]
      trivial
  | read faithful => exact faithful.calls op valid hmem

/-- Nothing is started, and what is pending was pending, apart from timers that are cancelled. -/
theorem Faithful.extend (h : s.Faithful config figures told) (more : List Call)
    (hcalls : s'.calls = s.calls ++ more) (hmore : ∀ op valid, .start op valid ∉ more)
    (hread : .readRequest ∈ s'.pending → .readRequest ∈ s.pending)
    (hclient : s'.clientRequest = s.clientRequest)
    (hupstream : s'.upstreamRequest = s.upstreamRequest) : s'.Faithful config figures told := by
  refine ⟨fun hmem => h.read (hread hmem), ?_, fun op valid hmem => ?_⟩
  · rw [hupstream, hclient]
    exact h.upstreamRequest
  · rw [hcalls] at hmem
    rw [hclient]
    exact (List.mem_append.mp hmem).elim (h.calls op valid) fun hmem => absurd hmem (hmore op valid)

theorem Faithful.start (h : s.Faithful config figures told) {op : Op} (hne : op ≠ .readRequest)
    (hop : Carries config figures told s.clientRequest op) :
    (s.start op).Faithful config figures told := by
  refine ⟨fun hmem => ?_, h.upstreamRequest, fun op' valid hmem => ?_⟩
  · rcases List.mem_append.mp hmem with hmem | hmem
    · exact h.read hmem
    · exact hne (List.mem_singleton.mp hmem).symm
  · rcases List.mem_append.mp hmem with hmem | hmem
    · exact h.calls op' valid hmem
    · obtain ⟨rfl, -⟩ : op' = op ∧ _ := by simpa using hmem
      exact hop

theorem Authentic.mono {told' : HttpStatus × String → Prop} (h : s.Authentic config figures told)
    (htold : ∀ failure, told failure → told' failure) : s.Authentic config figures told' := by
  cases h with
  | reading pending fresh calls => exact .reading pending fresh calls
  | read faithful =>
      exact .read ⟨faithful.read, faithful.upstreamRequest,
        fun op valid hmem => (faithful.calls op valid hmem).mono htold⟩

/-- A session that does not read its request has read it. -/
theorem Authentic.faithful (h : s.Authentic config figures told)
    (hpending : s.pending ≠ [.readRequest]) : s.Faithful config figures told := by
  cases h with
  | reading pending => exact absurd pending hpending
  | read faithful => exact faithful

theorem Authentic.extend (h : s.Authentic config figures told) (more : List Call)
    (hcalls : s'.calls = s.calls ++ more) (hmore : ∀ op valid, .start op valid ∉ more)
    (hpending : s'.pending = s.pending) (hclient : s'.clientRequest = s.clientRequest)
    (hupstream : s'.upstreamRequest = s.upstreamRequest) : s'.Authentic config figures told := by
  cases h with
  | reading pending fresh calls =>
      refine .reading (hpending.trans pending) (hupstream.trans fresh) fun op valid hmem => ?_
      rw [hcalls] at hmem
      exact (List.mem_append.mp hmem).elim (calls op valid) fun hmem => absurd hmem (hmore op valid)
  | read faithful =>
      exact .read (faithful.extend more hcalls hmore (fun hmem => hpending ▸ hmem)
        hclient hupstream)

theorem readRequest_mem_map {f : Op → Op} {ops : List Op} (hf : ∀ op, (f op).isTimer = op.isTimer)
    (hsame : ∀ op, op.isTimer = false → f op = op) (hmem : .readRequest ∈ ops.map f) :
    .readRequest ∈ ops := by
  obtain ⟨op, hop, heq⟩ := List.mem_map.mp hmem
  have htimer : op.isTimer = false := by rw [← hf, heq]; rfl
  rwa [← heq, hsame op htimer]

end ProxySession

namespace Context

variable {c c' c₁ : Context} {ending : Ending}

theorem not_start_mem_endingCalls (c : Context) (ending : Ending) (op : Op) (valid : Bool) :
    .start op valid ∉ c.endingCalls ending := by
  unfold endingCalls
  split
  · cases ending <;> simp [Ending.call]
  · simp

theorem settle_faithful (h : c.self.Faithful config figures told) (ending : Ending) :
    (c.settle ending).self.Faithful config figures told := by
  rw [settle_eq]
  exact h.extend (c.endingCalls ending) rfl (c.not_start_mem_endingCalls ending)
    (ProxySession.readRequest_mem_map Op.cancelTimer_isTimer
      fun _ => Op.cancelTimer_of_not_timer) rfl rfl

theorem closeClient_faithful (h : c.self.Faithful config figures told) :
    c.closeClient.self.Faithful config figures told :=
  h.extend [.closeClient] rfl (by simp) (fun hmem => hmem) rfl rfl

theorem finishRequest_faithful (h : c.self.Faithful config figures told) :
    c.finishRequest.self.Faithful config figures told := by
  unfold finishRequest
  split
  · exact h
  · exact closeClient_faithful (settle_faithful h _)

/-- A failure is one of the table, or the response has begun and nothing is written. -/
theorem failWithStatus_faithful (h : c.self.Faithful config figures told) {status : HttpStatus}
    {error : String} (hfailure : c.self.responseStarted = true ∨ told (status, error)) :
    (c.failWithStatus status error).self.Faithful config figures told := by
  have hstarted : (c.settle .failed).self.responseStarted = c.self.responseStarted :=
    settle_responseStarted .failed
  have hsettled := settle_faithful h .failed
  unfold failWithStatus
  split
  · exact h
  · dsimp only
    rw [hstarted]
    split
    · exact closeClient_faithful hsettled
    · rename_i hnot
      have htold : told (status, error) := hfailure.resolve_left hnot
      refine hsettled.start (fun heq => nomatch heq) ⟨_, htold, ?_⟩
      rw [show (c.settle .failed).self.clientRequest = c.self.clientRequest by rw [settle_eq]]

theorem setSelf_faithful {s : ProxySession} (h : c.self.Faithful config figures told)
    (hpending : s.pending = c.self.pending) (hcalls : s.calls = c.self.calls)
    (hclient : s.clientRequest = c.self.clientRequest)
    (hupstream : s.upstreamRequest = c.self.upstreamRequest) :
    (c.setSelf s).self.Faithful config figures told :=
  h.extend [] (by rw [List.append_nil]; exact hcalls) (by simp)
    (fun hmem => hpending ▸ hmem) hclient hupstream

theorem observeEvents_faithful (events : List SseEvent) (done : Bool)
    (h : c.self.Faithful config figures told) :
    (c.observeEvents done events).2.self.Faithful config figures told := by
  induction events generalizing c done with
  | nil => exact h
  | cons event events ih =>
      have hseen := setSelf_faithful (s := { c.self with firstSseDataSeen := true }) h
        rfl rfl rfl rfl
      have hnote {c : Context} (h : c.self.Faithful config figures told) :
          (c.note .recordTtft).self.Faithful config figures told :=
        h.extend [.recordTtft] rfl (by simp) (fun hmem => hmem) rfl rfl
      rw [observeEvents]
      split
      · extract_lets c₁
        split
        · split
          · exact hnote hseen
          · exact ih _ (hnote (c := setMetrics _ _) hseen)
        · exact ih _ hseen
      · exact ih _ h

theorem observeSseChunk_faithful (data : Bytes) (h : c.self.Faithful config figures told) :
    (c.observeSseChunk data).2.self.Faithful config figures told := by
  have hfed := setSelf_faithful (s := { c.self with sseParser := (c.self.sseParser.feed data).1 })
    h rfl rfl rfl rfl
  unfold observeSseChunk
  extract_lets fed c₁
  split
  · exact hfed
  · exact observeEvents_faithful _ _ hfed

theorem writeDownstreamBody_faithful (h : c.self.Faithful config figures told) (data : Bytes)
    (upstreamDone : Bool) :
    (c.writeDownstreamBody data upstreamDone).self.Faithful config figures told := by
  unfold writeDownstreamBody
  split
  · exact finishRequest_faithful h
  · exact h.start (fun heq => nomatch heq) trivial

theorem readUpstreamBody_faithful (hstarted : c.self.responseStarted = true)
    (h : c.self.Faithful config figures told) :
    c.readUpstreamBody.self.Faithful config figures told := by
  unfold readUpstreamBody
  split
  · exact (setSelf_faithful (s := { c.self with bodyData := 0, bodySize := bodyBufferSize })
      h rfl rfl rfl rfl).start (fun heq => nomatch heq) trivial
  · exact failWithStatus_faithful h (.inl hstarted)

theorem startProxyRequest_faithful (permit : ServerPermit) (halive : c.server.alive = true)
    (hpermit : c.self.permit = none) (hconfig : c.server.config = config)
    (h : c.self.Faithful config figures told) :
    (c.startProxyRequest permit).self.Faithful config figures told := by
  rw [startProxyRequest_eq permit halive hpermit, hconfig]
  have hassigned := setSelf_faithful
    (s := { c.self with permit := some permit, requestStart := some c.clock }) h rfl rfl rfl rfl
  exact (hassigned.start (fun (heq : Op.requestTimer false = _) => nomatch heq) trivial).start
    (fun heq => nomatch heq) ⟨rfl, rfl⟩

/-- The request is decided on with the figures of the server at this moment. -/
theorem handleRequest_faithful (hpermit : c.self.permit = none) (hconfig : c.server.config = config)
    (hfigures : figures c.server.limiter.snapshot c.server.metrics.snapshot)
    (htold : ∀ failure ∈ failuresOf .readRequest {}, told failure)
    (h : c.self.Faithful config figures told) :
    c.handleRequest.self.Faithful config figures told := by
  have hcounted (limiter : InflightLimiter Task) :
      (c.counted.setLimiter limiter).self.Faithful config figures told :=
    h.extend [.recordStarted] rfl (by simp) (fun hmem => hmem) rfl rfl
  unfold handleRequest sendJsonError
  split
  · split
    · exact failWithStatus_faithful h (.inr (htold _ (by simp [failuresOf])))
    · unfold sendHealth sendJsonError
      split
      · exact h.start (fun heq => nomatch heq) ⟨_, _, hfigures, by rw [hconfig]⟩
      · exact failWithStatus_faithful h (.inr (htold _ (by simp [failuresOf])))
  · split
    · exact failWithStatus_faithful h (.inr (htold _ (by simp [failuresOf])))
    · split
      · exact failWithStatus_faithful h (.inr (htold _ (by simp [failuresOf])))
      · split
        · exact failWithStatus_faithful h (.inr (htold _ (by simp [failuresOf])))
        · rename_i hlocked
          have halive : c.server.alive = true := by simpa using hlocked
          extract_lets c₁ s₂ c₂ acquire c₃
          rcases c.server.limiter.tryAcquireOrQueue_cases () with
            ⟨-, hacq⟩ | ⟨-, -, hacq⟩ | ⟨-, -, -, hacq⟩ | ⟨-, -, -, hacq⟩
          all_goals
            have hacquire : acquire = _ := hacq
            simp only [c₃, hacquire]
          · exact failWithStatus_faithful (hcounted _) (.inr (htold _ (by simp [failuresOf])))
          · exact startProxyRequest_faithful _ (c := c.counted.setLimiter _) halive hpermit hconfig
              (hcounted _)
          · exact hcounted { c.server.limiter with
              queuedRequests := c.server.limiter.queuedRequests + 1 }
          · exact failWithStatus_faithful (hcounted _) (.inr (htold _ (by simp [failuresOf])))

/-- What every handler keeps once the request has been read. -/
theorem handle_faithful {op : Op} (r : Outcome) (hop : op ≠ .readRequest)
    (hconfig : c.server.config = config)
    (hstarted : op.afterHeader = true → c.self.responseStarted = true)
    (htold : ∀ failure ∈ failuresOf op r, told failure)
    (h : c.self.Faithful config figures told) :
    (c.handle op r).self.Faithful config figures told := by
  cases op with
  | readRequest => exact absurd rfl hop
  -- a response was written: `finished_` is set and the client socket closed
  | writeText response =>
      exact closeClient_faithful (c := c.setSelf { c.self with finished := true })
        (setSelf_faithful h rfl rfl rfl rfl)
  | writeError response => exact closeClient_faithful h
  | resolve host service =>
      show (c.onResolve r.ec).self.Faithful config figures told
      unfold onResolve connectUpstream
      split
      · exact failWithStatus_faithful h (.inr (htold _ (by simp [failuresOf])))
      · split
        · exact h.start (fun heq => nomatch heq) trivial
        · exact failWithStatus_faithful h (.inr (htold _ (by simp [failuresOf])))
  | connect =>
      show (c.onConnect r.ec).self.Faithful config figures told
      unfold onConnect writeUpstreamRequest
      split
      · exact failWithStatus_faithful h (.inr (htold _ (by simp [failuresOf])))
      · split
        · -- the request is made of the client's, also if it is made again
          have hrequest : upstreamRequestOf c.server.config c.self.upstreamRequest
              c.self.clientRequest = upstreamRequestOf config {} c.self.clientRequest := by
            rw [hconfig]
            rcases h.upstreamRequest with heq | heq
            · rw [heq]
            · rw [heq, upstreamRequestOf_again]
          dsimp only
          rw [hrequest]
          have hset : ({ c.self with
              upstreamRequest := upstreamRequestOf config {} c.self.clientRequest } :
              ProxySession).Faithful config figures told := ⟨h.read, .inr rfl, h.calls⟩
          exact hset.start (fun heq => nomatch heq) rfl
        · exact failWithStatus_faithful h (.inr (htold _ (by simp [failuresOf])))
  | writeUpstream request =>
      show (c.onWriteUpstream r.ec).self.Faithful config figures told
      unfold onWriteUpstream readUpstreamHeader
      split
      · exact failWithStatus_faithful h (.inr (htold _ (by simp [failuresOf])))
      · exact (setSelf_faithful (s := { c.self with bodyData := 0, bodySize := bodyBufferSize })
          h rfl rfl rfl rfl).start (fun heq => nomatch heq) trivial
  -- `response_started_` is set before the header write is begun
  | readHeader =>
      show (c.onReadHeader r.ec r.status).self.Faithful config figures told
      unfold onReadHeader writeDownstreamSseHeader
      split
      · exact failWithStatus_faithful h (.inr (htold _ (by simp [failuresOf])))
      · split
        · exact failWithStatus_faithful h (.inr (htold _ (by simp [failuresOf])))
        · exact (setSelf_faithful (s := { c.self with responseStarted := true })
            h rfl rfl rfl rfl).start (fun heq => nomatch heq) rfl
  | writeSseHeader header =>
      show (c.onWriteSseHeader r.ec).self.Faithful config figures told
      unfold onWriteSseHeader
      split
      · exact finishRequest_faithful h
      · exact readUpstreamBody_faithful (hstarted rfl) h
  -- past the header the failures send no text any more, as `response_started_` is set
  | readBody =>
      show (c.onReadBody r.ec r.isDone).self.Faithful config figures told
      unfold onReadBody
      split
      · exact readUpstreamBody_faithful (hstarted rfl) h
      · split
        · exact writeDownstreamBody_faithful h _ _
        · split
          · exact failWithStatus_faithful h (.inl (hstarted rfl))
          · exact writeDownstreamBody_faithful (observeSseChunk_faithful _ h) _ _
  | writeBody payload upstreamDone =>
      show (c.onWriteBody r.ec upstreamDone).self.Faithful config figures told
      unfold onWriteBody
      split
      · exact failWithStatus_faithful h (.inl (hstarted rfl))
      · split
        · exact finishRequest_faithful h
        · exact readUpstreamBody_faithful (hstarted rfl) h
  | requestTimer b =>
      show (c.onRequestTimer r.ec).self.Faithful config figures told
      unfold onRequestTimer
      split
      · exact h
      · exact failWithStatus_faithful h (.inr (htold _ (by simp_all [failuresOf])))
  | queueTimer b =>
      show (c.onQueueTimer r.ec).self.Faithful config figures told
      unfold onQueueTimer sendJsonError
      split
      · exact h
      · -- `cancel_queued` changes the limiter, not what the session says
        refine failWithStatus_faithful (c := c.timeOut) ?_
          (.inr (htold _ (by simp_all [failuresOf])))
        rw [timeOut_self]
        exact setSelf_faithful (s := { c.self with queued := false }) h rfl rfl rfl rfl

end Context

namespace World

variable {reported : Nat → InflightLimiterSnapshot → ProxyMetricsSnapshot → Prop}
  {all : Nat → HttpStatus × String → Prop} {server : ProxyServer} {w w' : World} {i : Nat}

/-- What keeps the messages of all sessions from one step to the next. -/
structure Delivering (config : ProxyConfig)
    (figures : Nat → InflightLimiterSnapshot → ProxyMetricsSnapshot → Prop)
    (told : Nat → HttpStatus × String → Prop) (w : World) : Prop where
  sound : w.Sound
  configured : w.server.Configured config
  authentic : ∀ (i : Nat) (s : ProxySession), w.sessions[i]? = some s →
    s.Authentic config (figures i) (told i)

theorem authentic_complete {op : Op} {r : Outcome} {s : ProxySession} {e : Nat} {c : Context}
    (hself : c.self = deliver s op r) (hphase : s.Phase e) (hmem : op ∈ s.pending)
    (hconfig : c.server.config = config)
    (hfigures : op = .readRequest →
      figures c.server.limiter.snapshot c.server.metrics.snapshot)
    (htold : ∀ failure ∈ failuresOf op r, told failure)
    (h : s.Authentic config figures told) : (c.handle op r).self.Authentic config figures told := by
  by_cases hop : op = .readRequest
  · -- the request arrives, and nothing has been made of it so far
    obtain ⟨idle, -, pending⟩ := hphase.of_opening hmem (by rw [hop]; rfl)
    have hnone : Op.readRequest ∉ c.self.pending := by
      rw [hself, deliver_pending, pending, hop]
      simp
    cases h with
    | read faithful => exact absurd (hop ▸ hmem) faithful.read
    | reading _ fresh calls =>
        have hread : ({ c.self with clientRequest := r.request } : ProxySession).Faithful config
            figures told := by
          refine ⟨hnone, .inl ?_, fun op' valid hmem' => ?_⟩
          · rw [hself, hop]
            exact fresh
          · have hmem' : Call.start op' valid ∈ c.self.calls := hmem'
            rw [hself, deliver_calls] at hmem'
            rw [calls op' valid hmem']
            trivial
        rw [hop]
        refine .read ?_
        show (c.onReadRequest r.ec r.request).self.Faithful config figures told
        unfold onReadRequest
        split
        · exact setSelf_faithful (c := c.setSelf { c.self with clientRequest := r.request }) hread
            rfl rfl rfl rfl
        · refine handleRequest_faithful (c := c.setSelf { c.self with clientRequest := r.request })
            ?_ hconfig (hfigures hop) (by rw [hop] at htold; exact htold) hread
          show c.self.permit = none
          rw [hself, deliver_permit, idle.permit]
  · cases h with
    | reading pending => exact absurd (List.mem_singleton.mp (pending ▸ hmem)) hop
    | read faithful =>
        refine .read (handle_faithful r hop hconfig (fun hafter => ?_) ?_ ?_)
        · have hrelay : op.isRelay = true := by cases op <;> first | rfl | cases hafter
          rw [hself, deliver_responseStarted, ← hphase.afterHeader_of_relay hmem hrelay, hafter]
        · exact htold
        · have hsame : (deliver s op r).clientRequest = s.clientRequest ∧
              (deliver s op r).upstreamRequest = s.upstreamRequest := by
            cases op <;> exact ⟨rfl, rfl⟩
          rw [hself]
          refine faithful.extend [] (by simp) (by simp) (fun hread => ?_) hsame.1 hsame.2
          rw [deliver_pending] at hread
          exact List.mem_of_mem_erase hread

theorem authentic_keptFrom (w : World) :
    KeptFrom config w fun i s => s.Authentic config (reported i) (all i) := by
  constructor
  case created =>
    intro sseParser _
    refine .reading rfl rfl fun op valid hmem => ?_
    have hmem : Call.start op valid ∈ [Call.start .readRequest false] := hmem
    simp only [List.mem_singleton, Call.start.injEq] at hmem
    exact hmem.1
  case closed => exact fun i s hs => hs.extend [.closeClient] rfl (by simp) rfl rfl rfl
  case enqueued =>
    intro i s _ _ pending hs
    have hread := hs.faithful (by rw [pending]; exact (List.cons_ne_nil _ _).symm)
    have hqueued : ({ s with queued := true } : ProxySession).Faithful config
      (reported i) (all i) :=
      ⟨hread.read, hread.upstreamRequest, hread.calls⟩
    exact .read (hqueued.start (fun heq => nomatch heq) trivial)
  case promoted =>
    intro i s _ pending hs
    have hread := hs.faithful (by rw [pending]; simp)
    have hstarted : ({ s with
        queued := false
        pending := s.pending.map Op.cancelQueueTimer
        permit := some (Permit.owning ())
        requestStart := some w.clock } : ProxySession).Faithful config (reported i) (all i) :=
      hread.extend [] (List.append_nil _).symm (by simp)
        (ProxySession.readRequest_mem_map Op.cancelQueueTimer_isTimer
          fun _ => Op.cancelQueueTimer_of_not_timer) rfl rfl
    have hbegun := hstarted.start (fun (heq : Op.requestTimer false = _) => nomatch heq)
      trivial
    exact .read (hbegun.start (fun heq => nomatch heq) ⟨rfl, rfl⟩)
  case destroyed => exact fun i s hs => hs.extend [] (by simp) (by simp) rfl rfl rfl

theorem Delivering.step {e : Event} (h : Delivering config reported all w)
    (hfigures : ∀ i r, e = .complete i .readRequest r →
      reported i w.server.limiter.snapshot w.server.metrics.snapshot)
    (htold : ∀ i op r, e = .complete i op r → ∀ failure ∈ failuresOf op r, all i failure)
    (hstep : World.step w e = some w') : Delivering config reported all w' := by
  have hkept := (authentic_keptFrom w).step h.sound h.configured hstep h.authentic
    fun i op r s he hlock hmem _ => by
      obtain ⟨hget, -⟩ := lock_eq_some.mp hlock
      exact authentic_complete rfl (h.sound.phase i s hget) hmem h.configured.config_eq
        (fun hop => hfigures i r (hop ▸ he)) (htold i op r he) (h.authentic i s hget)
  exact ⟨h.sound.step hstep, hkept.configured, hkept.sessions⟩

theorem Delivering.init (hcreate : ProxyServer.create config = .ok server) :
    Delivering config reported all (World.init server) := by
  have hstarted := create_started hcreate
  exact ⟨Sound.init hcreate, ⟨hstarted.config_eq, hstarted.maxInflight, hstarted.maxQueueSize⟩,
    fun _ _ hi => nomatch hi⟩

end World

/-- What a client relies on that reads a complete response. -/
structure Readable (client : HttpRequest) (response : HttpResponse) : Prop where
  version : response.version = client.version
  keepAlive : response.keepAlive = false
  contentType : response.fields.lookup .contentType = some (bytes "application/json")
  contentLength : response.fields.lookup .contentLength = some (decimal response.body.length)
  valid : Valid response.body

theorem readable_jsonResponse {body : Bytes} (hvalid : Valid body) (status : HttpStatus)
    (client : HttpRequest) : Readable client (jsonResponse status client.version body) :=
  ⟨rfl, rfl, rfl, rfl, hvalid⟩

theorem escapable_of_all {text : List Char} (h : text.all (fun c => Escapable c) = true) :
    ∀ c ∈ text, Escapable c := by
  simpa using h

theorem escapable_failures : ∀ failure ∈ failures, ∀ c ∈ failure.2.toList, Escapable c := by
  intro failure hmem
  have hall : failures.all (fun failure => failure.2.toList.all fun c => Escapable c) = true := by
    decide
  exact escapable_of_all (List.all_eq_true.mp hall failure hmem)

namespace World

variable {server : ProxyServer} {w : World} {events : List Event} {host : String}

/-- In every run, a complete response that a session begins is readable, and it is the health report
or one of the failures.  The name of the upstream host must be one that `json_escape` can carry. -/
theorem responses_readable (hcreate : ProxyServer.create config = .ok server)
    (hhost : config.upstreamHost = bytes host) (hescapable : ∀ c ∈ host.toList, Escapable c)
    (hrun : run World.step (World.init server) events = some w) {s : ProxySession}
    (hs : s ∈ w.sessions) {response : HttpResponse} {valid : Bool}
    (hcall : .start (.writeText response) valid ∈ s.calls ∨
      .start (.writeError response) valid ∈ s.calls) :
    Readable s.clientRequest response ∧
      ((response.status = .ok ∧ ∃ limit metrics, response.body = healthBody config limit metrics) ∨
        ∃ failure ∈ failures, response.status = failure.1 ∧
          response.body = errorBody failure.2) := by
  have hdelivering :
      Delivering config (fun _ _ _ => True) (fun _ failure => failure ∈ failures) w :=
    run_induct hrun (Delivering.init hcreate) fun _ _ _ h hstep =>
      h.step (fun _ _ _ => trivial) (fun _ op r _ => failuresOf_subset op r) hstep
  obtain ⟨i, hi⟩ := List.getElem?_of_mem hs
  have hauthentic := hdelivering.authentic i s hi
  rcases hcall with hcall | hcall
  · obtain ⟨limit, metrics, -, rfl⟩ := hauthentic.carries hcall
    have hvalid : Valid (healthBody config limit metrics) := by
      have heq : config = { config with upstreamHost := bytes host } := by rw [← hhost]
      rw [heq]
      exact healthBody_valid hescapable config limit metrics
    exact ⟨readable_jsonResponse hvalid _ _, .inl ⟨rfl, limit, metrics, rfl⟩⟩
  · obtain ⟨failure, hmem, rfl⟩ := hauthentic.carries hcall
    have hvalid := errorBody_valid (escapable_failures failure hmem)
    exact ⟨readable_jsonResponse hvalid _ _, .inr ⟨failure, hmem, rfl, rfl⟩⟩

/-- A request for the health report, answered. -/
def healthAsked : List Event :=
  [.accept, .complete 0 .readRequest { request := { target := bytes "/health" } }]

def healthAnswer : HttpResponse :=
  jsonResponse .ok 11 (healthBody oneSlotConfig { maxInflight := 1, maxQueueSize := 8 } {})

theorem healthAsked_calls :
    (run World.step (World.init oneSlotServer) healthAsked).map
    (fun w => w.sessions.map (·.calls)) =
      some [[.start .readRequest false, .start (.writeText healthAnswer) false]] :=
  rfl

theorem responses_readable_health : ∃ w s,
    run World.step (World.init oneSlotServer) healthAsked = some w ∧ s ∈ w.sessions ∧
    .start (.writeText healthAnswer) false ∈ s.calls ∧ Readable s.clientRequest healthAnswer := by
  obtain ⟨w, hrun, hcalls⟩ := Option.map_eq_some_iff.mp healthAsked_calls
  obtain ⟨s, hs, heq⟩ := List.mem_map.mp (hcalls ▸ List.mem_singleton_self _)
  have hcall : Call.start (.writeText healthAnswer) false ∈ s.calls := by
    rw [heq]
    exact List.mem_cons_of_mem _ (List.mem_singleton_self _)
  have hescapable : ∀ c ∈ "127.0.0.1".toList, Escapable c := escapable_of_all (by decide)
  exact ⟨w, s, hrun, hs, hcall,
    (responses_readable oneSlotServer_create rfl hescapable hrun hs (.inl hcall)).1⟩

end World

end VllmSloProxy
