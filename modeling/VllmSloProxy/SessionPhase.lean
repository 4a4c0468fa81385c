import Mathlib.Data.List.Count
import VllmSloProxy.SessionHandlers

/-!
# The phases of a session

A session reads its request, may wait in the queue, relays and is over.  In each phase it is known
which operations are pending and who holds a permit; the handlers move from phase to phase.
-/

namespace VllmSloProxy

open Context

namespace Op

def isError : Op → Bool
  | writeError _ => true
  | _ => false

def isBody : Op → Bool
  | writeBody _ _ => true
  | _ => false

/-- The operations before a request is counted. -/
def isOpening : Op → Bool
  | readRequest | writeText _ => true
  | _ => false

@[simp] theorem cancelTimer_isTimer (op : Op) : op.cancelTimer.isTimer = op.isTimer := by
  cases op <;> rfl

@[simp] theorem cancelQueueTimer_isTimer (op : Op) : op.cancelQueueTimer.isTimer = op.isTimer := by
  cases op <;> rfl

theorem cancelTimer_of_not_timer {op : Op} (h : op.isTimer = false) : op.cancelTimer = op := by
  cases op <;> first | rfl | cases h

theorem cancelQueueTimer_of_not_timer {op : Op} (h : op.isTimer = false) :
    op.cancelQueueTimer = op := by
  cases op <;> first | rfl | cases h

theorem isTimer_of_isRelay {op : Op} (h : op.isRelay = true) : op.isTimer = false := by
  cases op <;> first | rfl | cases h

theorem isTimer_of_isOpening {op : Op} (h : op.isOpening = true) : op.isTimer = false := by
  cases op <;> first | rfl | cases h

theorem isRelay_of_isOpening {op : Op} (h : op.isOpening = true) : op.isRelay = false := by
  cases op <;> first | rfl | cases h

theorem isError_of_isOpening {op : Op} (h : op.isOpening = true) : op.isError = false := by
  cases op <;> first | rfl | cases h

theorem isError_of_isRelay {op : Op} (h : op.isRelay = true) : op.isError = false := by
  cases op <;> first | rfl | cases h

end Op

namespace ProxySession

/-- The pending operations that are no timers. -/
def control (s : ProxySession) : List Op := s.pending.filter fun op => !op.isTimer

theorem control_start {op : Op} (s : ProxySession) (h : op.isTimer = false) :
    (s.start op).control = s.control ++ [op] := by
  simp [control, h]

theorem control_start_timer {op : Op} (s : ProxySession) (h : op.isTimer = true) :
    (s.start op).control = s.control := by
  simp [control, h]

-- Cancelling timers changes timers only.
theorem filter_map_timer {f : Op → Op} (ops : List Op) (hf : ∀ op, (f op).isTimer = op.isTimer)
    (hsame : ∀ op, op.isTimer = false → f op = op) :
    (ops.map f).filter (fun op => !op.isTimer) = ops.filter fun op => !op.isTimer := by
  induction ops with
  | nil => rfl
  | cons op ops ih =>
      rw [List.map_cons, List.filter_cons, List.filter_cons, hf, ih]
      cases h : op.isTimer with
      | true => rfl
      | false => simp only [Bool.not_false, if_true, hsame op h]

/-- What can be pending on a session that nothing has been done for yet. -/
structure Idle (s : ProxySession) : Prop where
  permit : s.permit = none
  requestStart : s.requestStart = none
  finished : s.finished = false
  responseStarted : s.responseStarted = false

/-- A session that relays, with the operation that continues it. -/
structure Running (op : Op) (s : ProxySession) : Prop where
  isRelay : op.isRelay = true
  control : s.control = [op]
  permit : s.permit = some (Permit.owning ())
  requestStart : s.requestStart.isSome = true
  finished : s.finished = false
  queued : s.queued = false
  counted : s.requestCounted = true
  responseStarted : s.responseStarted = op.afterHeader

/-- A session that is over; an operation of the relay may still be pending. -/
structure Over (s : ProxySession) : Prop where
  permit : s.permit = none
  finished : s.finished = true
  queued : s.queued = false
  relays : s.control.countP Op.isRelay ≤ 1
  errors : s.control.countP Op.isError ≤ 1
  control : ∀ op ∈ s.control,
    (op.isRelay = true ∧ op.afterHeader = s.responseStarted) ∨ op.isError = true

/-- The phases, where `e` tasks on the strand are to enqueue the session. -/
inductive Phase : Nat → ProxySession → Prop where
  | reading {s : ProxySession} (idle : s.Idle) (queued : s.queued = false)
      (counted : s.requestCounted = false) (pending : s.pending = [.readRequest]) : Phase 0 s
  | health {s : ProxySession} (response : HttpResponse) (idle : s.Idle) (queued : s.queued = false)
      (counted : s.requestCounted = false) (pending : s.pending = [.writeText response]) : Phase 0 s
  | asked {e : Nat} {s : ProxySession} (idle : s.Idle) (queued : s.queued = false)
      (counted : s.requestCounted = true) (pending : s.pending = []) (he : e ≤ 1) : Phase e s
  | waiting {s : ProxySession} (idle : s.Idle) (queued : s.queued = true)
      (counted : s.requestCounted = true) (pending : s.pending = [.queueTimer false]) : Phase 0 s
  | running {s : ProxySession} (op : Op) (running : s.Running op) : Phase 0 s
  | ended {s : ProxySession} (isOver : s.Over) : Phase 0 s

theorem Phase.created (sseParser : SseParser) :
    Phase 0 (({ sseParser } : ProxySession).start .readRequest) :=
  .reading ⟨rfl, rfl, rfl, rfl⟩ rfl rfl rfl

end ProxySession

namespace World

variable (s : ProxySession) (op : Op) (r : Outcome)

@[simp] theorem deliver_pending : (deliver s op r).pending = s.pending.erase op := by
  cases op <;> rfl

@[simp] theorem deliver_delivered : (deliver s op r).delivered = s.delivered ++ [(op, r)] := by
  cases op <;> rfl

@[simp] theorem deliver_calls : (deliver s op r).calls = s.calls := by
  cases op <;> rfl

@[simp] theorem deliver_permit : (deliver s op r).permit = s.permit := by
  cases op <;> rfl

@[simp] theorem deliver_permitValid : (deliver s op r).permitValid = s.permitValid := by
  cases op <;> rfl

@[simp] theorem deliver_requestStart : (deliver s op r).requestStart = s.requestStart := by
  cases op <;> rfl

@[simp] theorem deliver_queued : (deliver s op r).queued = s.queued := by
  cases op <;> rfl

@[simp] theorem deliver_finished : (deliver s op r).finished = s.finished := by
  cases op <;> rfl

@[simp] theorem deliver_responseStarted :
    (deliver s op r).responseStarted = s.responseStarted := by
  cases op <;> rfl

@[simp] theorem deliver_requestCounted : (deliver s op r).requestCounted = s.requestCounted := by
  cases op <;> rfl

@[simp] theorem deliver_destroyed : (deliver s op r).destroyed = s.destroyed := by
  cases op <;> rfl

theorem deliver_control : (deliver s op r).control =
    if op.isTimer then s.control else s.control.erase op := by
  unfold ProxySession.control
  rw [deliver_pending]
  cases h : op.isTimer with
  | true =>
      rw [if_pos rfl, ← List.erase_filter, List.erase_of_not_mem]
      simp [h]
  | false => rw [if_neg Bool.false_ne_true, List.erase_filter]

theorem deliver_control_sublist : (deliver s op r).control.Sublist s.control := by
  rw [deliver_control]
  split
  · exact List.Sublist.refl _
  · exact List.erase_sublist

end World

namespace ProxyServer

/-- How many posted tasks are to enqueue the session `i`. -/
def posted (i : Nat) (server : ProxyServer) : Nat := server.strand.count (.enqueue i)

variable {server : ProxyServer}

/-- The task at the head of the strand is one of them. -/
theorem posted_head {i : Nat} {strand : List Task}
    (hstrand : server.strand = .enqueue i :: strand) :
    server.posted i = strand.count (.enqueue i) + 1 := by
  unfold posted
  rw [hstrand, List.count_cons_self]

theorem giveBack_task (hcb : server.limiter.onRelease = some .promote) (i : Nat) :
    server.limiter.giveBack.2.toList.count (.enqueue i) = 0 := by
  unfold InflightLimiter.giveBack
  split
  · rfl
  · rw [hcb]
    rfl

theorem posted_releasePermit (hcb : server.limiter.onRelease = some .promote)
    (permit : ServerPermit) (i : Nat) :
    (server.releasePermit permit).posted i = server.posted i := by
  rcases releasePermit_cases permit server with ⟨h, -⟩ | ⟨-, -, h⟩
  · rw [h]
  · rw [h]
    simp only [posted, List.count_append, giveBack_task hcb, Nat.add_zero]

end ProxyServer

namespace Context

variable {c c' c₁ : Context} {op next : Op} {r : Outcome} {ending : Ending}

@[simp] theorem recordedServer_limiter (ending : Ending) :
    (c.recordedServer ending).limiter = c.server.limiter := by
  unfold recordedServer
  split <;> rfl

@[simp] theorem recordedServer_posted (ending : Ending) (i : Nat) :
    (c.recordedServer ending).posted i = c.server.posted i := by
  unfold recordedServer
  split <;> rfl

theorem settle_posted (hcb : c.server.limiter.onRelease = some .promote) (ending : Ending)
    (i : Nat) : (c.settle ending).server.posted i = c.server.posted i := by
  rw [settle_eq]
  cases c.self.permit with
  | none => exact recordedServer_posted ending i
  | some permit =>
      have hcb' : (c.recordedServer ending).limiter.onRelease = some .promote := by
        rw [recordedServer_limiter, hcb]
      exact (ProxyServer.posted_releasePermit hcb' permit i).trans (recordedServer_posted ending i)

theorem Ends.posted (hends : Ends ending c c') (hcb : c.server.limiter.onRelease = some .promote)
    (i : Nat) : c'.server.posted i = c.server.posted i := by
  cases hends with
  | already => rfl
  | quietly => exact settle_posted hcb ending i
  | withError => exact settle_posted hcb ending i

theorem settle_control (ending : Ending) : (c.settle ending).self.control = c.self.control := by
  rw [settle_eq]
  exact ProxySession.filter_map_timer _ Op.cancelTimer_isTimer
    fun _ => Op.cancelTimer_of_not_timer

/-- A session that ends while at most one operation of the relay is pending is over. -/
theorem Ends.isOver (hends : Ends ending c c') (hfinished : c.self.finished = false)
    (hqueued : c.self.queued = false) (hlen : c.self.control.length ≤ 1)
    (hcontrol : ∀ op ∈ c.self.control,
      op.isRelay = true ∧ op.afterHeader = c.self.responseStarted) : c'.self.Over := by
  have hrelays : c.self.control.countP Op.isRelay ≤ 1 :=
    Nat.le_trans List.countP_le_length hlen
  have herrors : c.self.control.countP Op.isError = 0 := by
    refine List.countP_eq_zero.mpr fun op hmem => ?_
    exact Bool.eq_false_iff.mp (Op.isError_of_isRelay (hcontrol op hmem).1)
  cases hends with
  | already h => rw [h] at hfinished; cases hfinished
  | quietly =>
      have hctl : (c.settle ending).closeClient.self.control = c.self.control :=
        settle_control ending
      refine ⟨?_, ?_, ?_, hctl ▸ hrelays, ?_, fun op hmem => .inl ?_⟩
      · simp [settle_eq]
      · simp [settle_eq]
      · simp [settle_eq, hqueued]
      · rw [hctl, herrors]; exact Nat.zero_le 1
      · have h := hcontrol op (hctl ▸ hmem)
        exact ⟨h.1, h.2.trans (settle_responseStarted ending).symm⟩
  | withError response =>
      have hctl : ((c.settle ending).start (.writeError response)).self.control =
          c.self.control ++ [.writeError response] := by
        have hstart := (c.settle ending).self.control_start
          (rfl : (Op.writeError response).isTimer = false)
        rw [settle_control] at hstart
        exact hstart
      refine ⟨?_, ?_, ?_, ?_, ?_, fun op hmem => ?_⟩
      · simp [settle_eq]
      · simp [settle_eq]
      · simp [settle_eq, hqueued]
      · rw [hctl, List.countP_append]; exact hrelays
      · rw [hctl, List.countP_append, herrors]; exact Nat.le_refl 1
      · rw [hctl] at hmem
        rcases List.mem_append.mp hmem with hmem | hmem
        · have h := hcontrol op hmem
          exact .inl ⟨h.1, h.2.trans (settle_responseStarted ending).symm⟩
        · rw [List.mem_singleton.mp hmem]
          exact .inr rfl

/-- What the step from one operation of the relay to the next leaves as it is. -/
structure Prepares (c c₁ : Context) : Prop where
  pending : c₁.self.pending = c.self.pending
  permit : c₁.self.permit = c.self.permit
  requestStart : c₁.self.requestStart = c.self.requestStart
  queued : c₁.self.queued = c.self.queued
  finished : c₁.self.finished = c.self.finished
  counted : c₁.self.requestCounted = c.self.requestCounted
  delivered : c₁.self.delivered = c.self.delivered
  destroyed : c₁.self.destroyed = c.self.destroyed
  calls : ∃ calls, (∀ call ∈ calls, call = .recordTtft) ∧ c₁.self.calls = c.self.calls ++ calls
  server : ∃ metrics : ProxyMetrics, metrics.totalRequests = c.server.metrics.totalRequests ∧
    metrics.completedRequests = c.server.metrics.completedRequests ∧
    metrics.failedRequests = c.server.metrics.failedRequests ∧
    c₁.server = { c.server with metrics }
  id : c₁.id = c.id
  journal : c₁.journal = c.journal

theorem Observes.prepares (h : Observes c c₁) : Prepares c c₁ := by
  obtain ⟨parser, seen, calls, hcalls, hself⟩ := h.self
  exact ⟨by rw [hself], by rw [hself], by rw [hself], by rw [hself], by rw [hself], by rw [hself],
    by rw [hself], by rw [hself], ⟨calls, hcalls, by rw [hself]⟩, h.server, h.id, h.journal⟩

theorem Observes.responseStarted (h : Observes c c₁) :
    c₁.self.responseStarted = c.self.responseStarted := by
  obtain ⟨parser, seen, calls, -, hself⟩ := h.self
  rw [hself]

theorem Prepares.of_self {s : ProxySession} (h : s.pending = c.self.pending ∧
    s.permit = c.self.permit ∧ s.requestStart = c.self.requestStart ∧ s.queued = c.self.queued ∧
    s.finished = c.self.finished ∧ s.requestCounted = c.self.requestCounted ∧
    s.delivered = c.self.delivered ∧ s.destroyed = c.self.destroyed ∧ s.calls = c.self.calls) :
    Prepares c (c.setSelf s) :=
  have ⟨h₁, h₂, h₃, h₄, h₅, h₆, h₇, h₈, h₉⟩ := h
  ⟨h₁, h₂, h₃, h₄, h₅, h₆, h₇, h₈, ⟨[], by simp, by simpa using h₉⟩,
    ⟨c.server.metrics, rfl, rfl, rfl, rfl⟩, rfl, rfl⟩

theorem Relay.prepares (h : Relay op r c c₁ next) : Prepares c c₁ := by
  cases h with
  | resolved => exact (Observes.refl c).prepares
  | connected => exact .of_self ⟨rfl, rfl, rfl, rfl, rfl, rfl, rfl, rfl, rfl⟩
  | requestWritten => exact .of_self ⟨rfl, rfl, rfl, rfl, rfl, rfl, rfl, rfl, rfl⟩
  | headerRead => exact .of_self ⟨rfl, rfl, rfl, rfl, rfl, rfl, rfl, rfl, rfl⟩
  | headerWritten => exact .of_self ⟨rfl, rfl, rfl, rfl, rfl, rfl, rfl, rfl, rfl⟩
  | bodyWritten => exact .of_self ⟨rfl, rfl, rfl, rfl, rfl, rfl, rfl, rfl, rfl⟩
  | bufferFull => exact .of_self ⟨rfl, rfl, rfl, rfl, rfl, rfl, rfl, rfl, rfl⟩
  | chunk _ done hop hec hdone hobserved =>
      have hobserves := observeSseChunk_observes
        (c.self.upstreamBodyBuffer.take (bodyBufferSize - c.self.bodySize)) c
      rw [hobserved] at hobserves
      exact hobserves.prepares

theorem Relay.isRelay (h : Relay op r c c₁ next) : op.isRelay = true ∧ next.isRelay = true := by
  cases h <;> simp_all [Op.isRelay, Op.usesUpstream]

theorem Relay.afterHeader (h : Relay op r c c₁ next)
    (hop : op.afterHeader = c.self.responseStarted) :
    c₁.self.responseStarted = next.afterHeader := by
  cases h with
  | chunk _ done hop' hec hdone hobserved =>
      have hobserves := observeSseChunk_observes
        (c.self.upstreamBodyBuffer.take (bodyBufferSize - c.self.bodySize)) c
      rw [hobserved] at hobserves
      rw [hobserves.responseStarted, ← hop, hop']
      rfl
  | headerRead => rfl
  | _ => simp_all [Op.afterHeader]

theorem Prepares.control (h : Prepares c c₁) : c₁.self.control = c.self.control := by
  unfold ProxySession.control
  rw [h.pending]

theorem Prepares.posted (h : Prepares c c₁) (i : Nat) :
    c₁.server.posted i = c.server.posted i := by
  obtain ⟨metrics, -, -, -, hserver⟩ := h.server
  rw [hserver]
  rfl

theorem Prepares.limiter (h : Prepares c c₁) : c₁.server.limiter = c.server.limiter := by
  obtain ⟨metrics, -, -, -, hserver⟩ := h.server
  rw [hserver]

/-- `start_proxy_request` with a server to lock and no permit held yet. -/
theorem startProxyRequest_eq (permit : ServerPermit) (halive : c.server.alive = true)
    (hpermit : c.self.permit = none) :
    c.startProxyRequest permit = c.setSelf
      ((({ c.self with permit := some permit, requestStart := some c.clock } : ProxySession).start
        (.requestTimer false)).start
        (.resolve c.server.config.upstreamHost (decimal c.server.config.upstreamPort))) := by
  have hreset : c.resetPermit = c := by
    unfold resetPermit
    rw [hpermit]
  unfold startProxyRequest assignPermit startRequestTimer resolveUpstream
  rw [hreset]
  simp [halive]

theorem startProxyRequest_server (permit : ServerPermit) (halive : c.server.alive = true)
    (hpermit : c.self.permit = none) : (c.startProxyRequest permit).server = c.server := by
  rw [startProxyRequest_eq permit halive hpermit]
  rfl

theorem startProxyRequest_running (halive : c.server.alive = true) (hidle : c.self.Idle)
    (hqueued : c.self.queued = false) (hcounted : c.self.requestCounted = true)
    (hcontrol : c.self.control = []) :
    ∃ op, (c.startProxyRequest (Permit.owning ())).self.Running op := by
  rw [startProxyRequest_eq _ halive hidle.permit]
  refine ⟨.resolve c.server.config.upstreamHost (decimal c.server.config.upstreamPort),
    rfl, ?_, rfl, rfl, hidle.finished, hqueued, hcounted, hidle.responseStarted⟩
  rw [setSelf, ProxySession.control_start _ rfl, ProxySession.control_start_timer _ rfl]
  show c.self.control ++ _ = _
  rw [hcontrol]
  rfl

theorem startProxyRequest_phase (halive : c.server.alive = true) (hidle : c.self.Idle)
    (hqueued : c.self.queued = false) (hcounted : c.self.requestCounted = true)
    (hcontrol : c.self.control = []) (hposted : c.server.posted c.id = 0) :
    (c.startProxyRequest (Permit.owning ())).self.Phase
      ((c.startProxyRequest (Permit.owning ())).server.posted c.id) := by
  obtain ⟨op, hrunning⟩ := startProxyRequest_running halive hidle hqueued hcounted hcontrol
  rw [startProxyRequest_server _ halive hidle.permit, hposted]
  exact .running op hrunning

theorem control_of_pending_nil {s : ProxySession} (h : s.pending = []) : s.control = [] := by
  unfold ProxySession.control
  rw [h]
  rfl

theorem over_of_nil {s : ProxySession} (hpermit : s.permit = none) (hfinished : s.finished = true)
    (hqueued : s.queued = false) (hpending : s.pending = []) : s.Over := by
  refine ⟨hpermit, hfinished, hqueued, ?_, ?_, ?_⟩ <;> rw [control_of_pending_nil hpending]
  · exact Nat.zero_le 1
  · exact Nat.zero_le 1
  · intro op hmem; cases hmem

theorem Ends.over_of_idle (hends : Ends ending c c') (hidle : c.self.Idle)
    (hqueued : c.self.queued = false) (hpending : c.self.pending = []) : c'.self.Over := by
  have hcontrol : c.self.control = [] := control_of_pending_nil hpending
  refine hends.isOver hidle.finished hqueued ?_ ?_
  · rw [hcontrol]; exact Nat.zero_le 1
  · rw [hcontrol]; intro op hmem; cases hmem

theorem Requested.phase (h : Requested c c') (hidle : c.self.Idle) (hqueued : c.self.queued = false)
    (hcounted : c.self.requestCounted = false) (hpending : c.self.pending = [])
    (hposted : c.server.posted c.id = 0) (hcb : c.server.limiter.onRelease = some .promote) :
    c'.self.Phase (c'.server.posted c.id) := by
  have hcontrol : c.self.control = [] := control_of_pending_nil hpending
  have hcountedIdle : c.counted.self.Idle := ⟨hidle.1, hidle.2, hidle.3, hidle.4⟩
  cases h with
  | unread =>
      show ProxySession.Phase (c.server.posted c.id) { c.self with finished := true }
      rw [hposted]
      exact .ended (over_of_nil hidle.permit rfl hqueued hpending)
  | refused _ hends =>
      rw [hends.posted hcb, hposted]
      exact .ended (hends.over_of_idle hidle hqueued hpending)
  | health response =>
      show ProxySession.Phase (c.server.posted c.id) (c.self.start (.writeText response))
      rw [hposted]
      refine .health response ⟨hidle.1, hidle.2, hidle.3, hidle.4⟩ hqueued hcounted ?_
      rw [ProxySession.start_pending, hpending, List.nil_append]
  | admitted halive =>
      exact startProxyRequest_phase (c := c.counted.setLimiter _) halive hcountedIdle hqueued rfl
        hcontrol hposted
  | queued =>
      have hone : (c.server.post (.enqueue c.id)).posted c.id = 1 := by
        have hcount : c.server.strand.count (.enqueue c.id) = 0 := hposted
        simp [ProxyServer.posted, ProxyServer.post, hcount]
      show ProxySession.Phase ((c.server.post (.enqueue c.id)).posted c.id) c.counted.self
      rw [hone]
      exact .asked hcountedIdle hqueued rfl hpending (Nat.le_refl 1)
  | turnedAway halive _ hends =>
      rw [hends.posted hcb]
      show ProxySession.Phase (c.server.posted c.id) _
      rw [hposted]
      exact .ended (hends.over_of_idle hcountedIdle hqueued hpending)

theorem timeOut_posted (i : Nat) : c.timeOut.server.posted i = c.server.posted i := by
  unfold timeOut
  split <;> rfl

theorem timeOut_self : c.timeOut.self = { c.self with queued := false } := by
  unfold timeOut
  split <;> rfl

/-- The relay has one operation pending, moves on by one and has one pending again. -/
theorem Relay.running {s : ProxySession} (h : Relay op r c c₁ next)
    (hself : c.self = World.deliver s op r) (hrunning : s.Running op) :
    (c₁.start next).self.Running next := by
  have hprep : Prepares c c₁ := h.prepares
  have hnext : next.isTimer = false := Op.isTimer_of_isRelay h.isRelay.2
  have hempty : c₁.self.control = [] := by
    rw [hprep.control, hself, World.deliver_control, hrunning.control,
      Op.isTimer_of_isRelay h.isRelay.1]
    simp
  have hstarted : op.afterHeader = c.self.responseStarted := by
    rw [hself, World.deliver_responseStarted, hrunning.responseStarted]
  refine ⟨h.isRelay.2, ?_, ?_, ?_, ?_, ?_, ?_, h.afterHeader hstarted⟩
  · show (c₁.self.start next).control = [next]
    rw [ProxySession.control_start _ hnext, hempty, List.nil_append]
  · exact hprep.permit.trans (by rw [hself, World.deliver_permit, hrunning.permit])
  · show c₁.self.requestStart.isSome = true
    rw [hprep.requestStart, hself, World.deliver_requestStart, hrunning.requestStart]
  · exact hprep.finished.trans (by rw [hself, World.deliver_finished, hrunning.finished])
  · exact hprep.queued.trans (by rw [hself, World.deliver_queued, hrunning.queued])
  · exact hprep.counted.trans (by rw [hself, World.deliver_requestCounted, hrunning.counted])

/-- On a session that is over the relay may go on, but it stays over. -/
theorem Relay.isOver {s : ProxySession} (h : Relay op r c c₁ next)
    (hself : c.self = World.deliver s op r) (hmem : op ∈ s.pending) (hover : s.Over) :
    (c₁.start next).self.Over := by
  have hprep : Prepares c c₁ := h.prepares
  have htimer : op.isTimer = false := Op.isTimer_of_isRelay h.isRelay.1
  have hnext : next.isTimer = false := Op.isTimer_of_isRelay h.isRelay.2
  have hop : op ∈ s.control := List.mem_filter.mpr ⟨hmem, by rw [htimer]; rfl⟩
  have hrest : c₁.self.control = s.control.erase op := by
    rw [hprep.control, hself, World.deliver_control, htimer, if_neg Bool.false_ne_true]
  have hcontrol : (c₁.start next).self.control = s.control.erase op ++ [next] := by
    rw [← hrest]
    exact ProxySession.control_start _ hnext
  have hafter : op.afterHeader = s.responseStarted := by
    rcases hover.control op hop with ⟨-, h'⟩ | h'
    · exact h'
    · rw [Op.isError_of_isRelay h.isRelay.1] at h'; cases h'
  -- `op` was the one relay operation pending
  have hnone : (s.control.erase op).countP Op.isRelay = 0 := by
    rw [List.countP_erase, if_pos ⟨hop, h.isRelay.1⟩]
    have := hover.relays
    omega
  have herrors : (s.control.erase op).countP Op.isError ≤ 1 :=
    Nat.le_trans (List.Sublist.countP_le List.erase_sublist) hover.errors
  refine ⟨?_, ?_, ?_, ?_, ?_, ?_⟩
  · exact hprep.permit.trans (by rw [hself, World.deliver_permit, hover.permit])
  · exact hprep.finished.trans (by rw [hself, World.deliver_finished, hover.finished])
  · exact hprep.queued.trans (by rw [hself, World.deliver_queued, hover.queued])
  · rw [hcontrol, List.countP_append, hnone, List.countP_singleton]
    split <;> omega
  · rw [hcontrol, List.countP_append, List.countP_singleton,
      Op.isError_of_isRelay h.isRelay.2]
    exact herrors
  · intro op' hmem'
    rw [hcontrol] at hmem'
    rcases List.mem_append.mp hmem' with hmem' | hmem'
    · rcases hover.control op' (List.mem_of_mem_erase hmem') with ⟨hrelay, -⟩ | herr
      · exact absurd hrelay (List.countP_eq_zero.mp hnone op' hmem')
      · exact .inr herr
    · rw [List.mem_singleton.mp hmem']
      refine .inl ⟨h.isRelay.2, ?_⟩
      exact (h.afterHeader (by rw [hself, World.deliver_responseStarted, hafter])).symm

/-- A session that is over stays over when one of its operations completes without a relay. -/
theorem over_deliver {s : ProxySession} (hover : s.Over) (op : Op) (r : Outcome) :
    (World.deliver s op r).Over := by
  have hsub : (World.deliver s op r).control.Sublist s.control :=
    World.deliver_control_sublist s op r
  refine ⟨?_, ?_, ?_, ?_, ?_, ?_⟩
  · rw [World.deliver_permit, hover.permit]
  · rw [World.deliver_finished, hover.finished]
  · rw [World.deliver_queued, hover.queued]
  · exact Nat.le_trans hsub.countP_le hover.relays
  · exact Nat.le_trans hsub.countP_le hover.errors
  · intro op' hmem
    rw [World.deliver_responseStarted]
    exact hover.control op' (hsub.subset hmem)

theorem Observes.isOver (h : Observes c c₁) (hover : c.self.Over) : c₁.self.Over := by
  obtain ⟨parser, seen, calls, -, hself⟩ := h.self
  rw [hself]
  exact ⟨hover.1, hover.2, hover.3, hover.4, hover.5, hover.6⟩

theorem over_note (call : Call) (hover : c.self.Over) : (c.note call).self.Over :=
  ⟨hover.1, hover.2, hover.3, hover.4, hover.5, hover.6⟩

theorem Handled.isOver {s : ProxySession} (h : Handled op r c c')
    (hself : c.self = World.deliver s op r) (hmem : op ∈ s.pending) (hover : s.Over) :
    c'.self.Over := by
  have hcover : c.self.Over := hself ▸ over_deliver hover op r
  have hnot {op' : Op} (h' : op = op') (htimer : op'.isTimer = false)
      (hrelay : op'.isRelay = false) (herror : op'.isError = false) : False := by
    subst h'
    have hop : op ∈ s.control := List.mem_filter.mpr ⟨hmem, by rw [htimer]; rfl⟩
    rcases hover.control op hop with ⟨h', -⟩ | h'
    · rw [hrelay] at h'; cases h'
    · rw [herror] at h'; cases h'
  have hends {ending : Ending} {c₁ c₂ : Context} (h₁ : c₁.self.Over) (h₂ : Ends ending c₁ c₂) :
      c₂.self.Over := by
    cases h₂ with
    | already => exact h₁
    | quietly hf => rw [h₁.finished] at hf; cases hf
    | withError _ _ hf => rw [h₁.finished] at hf; cases hf
  cases h with
  | timer => exact hcover
  | timedOut b _ hop hec hqueued =>
      rw [hcover.queued] at hqueued
      cases hqueued
  | expired b _ hop hec h' => exact hends hcover h'
  | read _ hop => exact (hnot hop rfl rfl rfl).elim
  | wroteText response hop => exact (hnot hop rfl rfl rfl).elim
  | wroteError response hop => exact over_note .closeClient hcover
  | ended _ c₁ _ hop _ hobserves h' => exact hends (hobserves.isOver hcover) h'
  | relayed c₁ next hrelay => exact hrelay.isOver hself hmem hover

theorem Handled.posted_of_not_read (h : Handled op r c c')
    (hop : op ≠ .readRequest) (hcb : c.server.limiter.onRelease = some .promote) (i : Nat) :
    c'.server.posted i = c.server.posted i := by
  cases h with
  | timer => rfl
  | timedOut b _ _ _ _ hends =>
      rw [hends.posted (timeOut_frame.server.onRelease.trans hcb), timeOut_posted]
  | expired b _ _ _ hends => exact hends.posted hcb i
  | read _ h' => exact absurd h' hop
  | wroteText => rfl
  | wroteError => rfl
  | ended _ c₁ _ _ _ hobserves hends =>
      have hprep := hobserves.prepares
      rw [hends.posted (by rw [hprep.limiter, hcb]), hprep.posted]
  | relayed c₁ next hrelay => exact hrelay.prepares.posted i

theorem Handled.phase_of_running {s : ProxySession} {op' : Op} (h : Handled op r c c')
    (hrunning : s.Running op') (he : c.server.posted c.id = 0)
    (hself : c.self = World.deliver s op r) (hmem : op ∈ s.pending)
    (hcb : c.server.limiter.onRelease = some .promote) :
    c'.self.Phase (c'.server.posted c.id) := by
  have hfinished : c.self.finished = false := by
    rw [hself, World.deliver_finished, hrunning.finished]
  have hqueued : c.self.queued = false := by rw [hself, World.deliver_queued, hrunning.queued]
  have hop (htimer : op.isTimer = false) : op = op' := by
    have hop : op ∈ s.control := List.mem_filter.mpr ⟨hmem, by rw [htimer]; rfl⟩
    rw [hrunning.control] at hop
    exact List.mem_singleton.mp hop
  -- what is left pending besides timers, and that it belongs to the relay
  have hsub : c.self.control.Sublist [op'] := by
    rw [hself, World.deliver_control, hrunning.control]
    split
    · exact List.Sublist.refl _
    · exact List.erase_sublist
  have hover {ending : Ending} {c₁ c₂ : Context} (hobserves : Observes c c₁)
      (hends : Ends ending c₁ c₂) : c₂.self.Over := by
    have hprep := hobserves.prepares
    refine hends.isOver (hprep.finished.trans hfinished) (hprep.queued.trans hqueued) ?_ ?_
    · rw [hprep.control]
      exact hsub.length_le
    · intro op₁ hmem₁
      rw [hprep.control] at hmem₁
      rw [List.mem_singleton.mp (hsub.subset hmem₁)]
      refine ⟨hrunning.isRelay, ?_⟩
      rw [hobserves.responseStarted, hself, World.deliver_responseStarted,
        hrunning.responseStarted]
  have hne (hread : op = .readRequest) : False := by
    have := hrunning.isRelay
    rw [← hop (by rw [hread]; rfl), hread] at this
    cases this
  rw [h.posted_of_not_read hne hcb, he]
  cases h with
  | timer hop' =>
      refine .running op' ?_
      rw [hself]
      refine ⟨hrunning.isRelay, ?_, ?_, ?_, ?_, ?_, ?_, ?_⟩
      · rw [World.deliver_control, hop', if_pos rfl, hrunning.control]
      · rw [World.deliver_permit, hrunning.permit]
      · rw [World.deliver_requestStart, hrunning.requestStart]
      · rw [World.deliver_finished, hrunning.finished]
      · rw [World.deliver_queued, hrunning.queued]
      · rw [World.deliver_requestCounted, hrunning.counted]
      · rw [World.deliver_responseStarted, hrunning.responseStarted]
  | timedOut b _ _ _ h' => rw [hqueued] at h'; cases h'
  | expired b _ _ _ hends => exact .ended (hover (Observes.refl c) hends)
  | read _ hread => exact (hne hread).elim
  | wroteText response h' =>
      have := hrunning.isRelay
      rw [← hop (by rw [h']; rfl), h'] at this
      cases this
  | wroteError response h' =>
      have := hrunning.isRelay
      rw [← hop (by rw [h']; rfl), h'] at this
      cases this
  | ended _ c₁ _ _ _ hobserves hends => exact .ended (hover hobserves hends)
  | relayed c₁ next hrelay =>
      obtain rfl := hop (Op.isTimer_of_isRelay hrelay.isRelay.1)
      exact .running next (hrelay.running hself hrunning)

/-- Every handler takes a session from a phase to a phase. -/
theorem Handled.phase {s : ProxySession} {e : Nat} (h : Handled op r c c')
    (hphase : s.Phase e) (he : c.server.posted c.id = e)
    (hself : c.self = World.deliver s op r) (hmem : op ∈ s.pending)
    (hdeliverable : World.deliverable s op r = true)
    (hcb : c.server.limiter.onRelease = some .promote) :
    c'.self.Phase (c'.server.posted c.id) := by
  have hpending : c.self.pending = s.pending.erase op := by rw [hself, World.deliver_pending]
  have hidle (h' : s.Idle) : c.self.Idle := by
    rw [hself]
    exact ⟨by rw [World.deliver_permit, h'.1], by rw [World.deliver_requestStart, h'.2],
      by rw [World.deliver_finished, h'.3], by rw [World.deliver_responseStarted, h'.4]⟩
  cases hphase with
  | reading idle queued counted pending =>
      obtain rfl : op = .readRequest := by simpa [pending] using hmem
      have hnil : c.self.pending = [] := by rw [hpending, pending]; rfl
      cases h with
      | timer hop => cases hop
      | timedOut b _ hop => cases hop
      | expired b _ hop => cases hop
      | wroteText response hop => cases hop
      | wroteError response hop => cases hop
      | ended _ c₁ _ hop => cases hop
      | relayed c₁ next hrelay => cases hrelay.isRelay.1
      | read _ _ hrequested =>
          have hi := hidle idle
          exact hrequested.phase ⟨hi.1, hi.2, hi.3, hi.4⟩
            (by show c.self.queued = false; rw [hself, World.deliver_queued, queued])
            (by
              show c.self.requestCounted = false
              rw [hself, World.deliver_requestCounted, counted])
            hnil he hcb
  | health response idle queued counted pending =>
      obtain rfl : op = .writeText response := by simpa [pending] using hmem
      have hnil : c.self.pending = [] := by rw [hpending, pending]; simp
      cases h with
      | timer hop => cases hop
      | timedOut b _ hop => cases hop
      | expired b _ hop => cases hop
      | read _ hop => cases hop
      | wroteError response hop => cases hop
      | ended _ c₁ _ hop => cases hop
      | relayed c₁ next hrelay => cases hrelay.isRelay.1
      | wroteText =>
          show ProxySession.Phase (c.server.posted c.id) _
          rw [he]
          refine .ended (over_note (c := c.setSelf _) .closeClient ?_)
          exact over_of_nil (hidle idle).permit rfl
            (by show c.self.queued = false; rw [hself, World.deliver_queued, queued]) hnil
  | asked idle queued counted pending he' => rw [pending] at hmem; cases hmem
  | waiting idle queued counted pending =>
      obtain rfl : op = .queueTimer false := by simpa [pending] using hmem
      have hnil : c.self.pending = [] := by rw [hpending, pending]; rfl
      have hec : r.ec = none := by simpa [World.deliverable] using hdeliverable
      cases h with
      | timer _ _ hqueue =>
          -- the timer was not cancelled, and the session still waits
          rcases hqueue false rfl with h' | h'
          · rw [hec] at h'; cases h'
          · rw [hself, World.deliver_queued, queued] at h'; cases h'
      | timedOut b _ _ _ _ hends =>
          have hi := hidle idle
          rw [hends.posted (timeOut_frame.server.onRelease.trans hcb), timeOut_posted, he]
          refine .ended (hends.over_of_idle ?_ ?_ ?_) <;> rw [timeOut_self]
          · exact ⟨hi.1, hi.2, hi.3, hi.4⟩
          · exact hnil
      | expired b _ hop => cases hop
      | read _ hop => cases hop
      | wroteText response hop => cases hop
      | wroteError response hop => cases hop
      | ended _ c₁ _ hop => cases hop
      | relayed c₁ next hrelay => cases hrelay.isRelay.1
  | running op' running => exact h.phase_of_running running he hself hmem hcb
  | ended hover =>
      have hne : op ≠ .readRequest := by
        rintro rfl
        have hop : Op.readRequest ∈ s.control := List.mem_filter.mpr ⟨hmem, rfl⟩
        rcases hover.control _ hop with ⟨h', -⟩ | h' <;> cases h'
      rw [h.posted_of_not_read hne hcb, he]
      exact .ended (h.isOver hself hmem hover)

end Context

namespace ProxySession

variable {s : ProxySession} {e : Nat}

-- What a phase is known by.

theorem Phase.of_opening {op : Op} (h : s.Phase e) (hmem : op ∈ s.pending)
    (hopening : op.isOpening = true) :
    s.Idle ∧ s.requestCounted = false ∧ s.pending = [op] := by
  have hop : op ∈ s.control :=
    List.mem_filter.mpr ⟨hmem, by rw [Op.isTimer_of_isOpening hopening]; rfl⟩
  cases h with
  | reading idle _ counted pending =>
      rw [pending, List.mem_singleton] at hmem
      exact ⟨idle, counted, hmem ▸ pending⟩
  | health response idle _ counted pending =>
      rw [pending, List.mem_singleton] at hmem
      exact ⟨idle, counted, hmem ▸ pending⟩
  | asked _ _ _ pending => rw [pending] at hmem; cases hmem
  | waiting _ _ _ pending =>
      rw [pending, List.mem_singleton] at hmem
      rw [hmem] at hopening
      cases hopening
  | running op' running =>
      rw [running.control, List.mem_singleton] at hop
      have hrelay := running.isRelay
      rw [← hop, Op.isRelay_of_isOpening hopening] at hrelay
      cases hrelay
  | ended hover =>
      rcases hover.control op hop with ⟨hrelay, -⟩ | herror
      · rw [Op.isRelay_of_isOpening hopening] at hrelay; cases hrelay
      · rw [Op.isError_of_isOpening hopening] at herror; cases herror

theorem Phase.of_relay {op : Op} (h : s.Phase e) (hmem : op ∈ s.pending)
    (hrelay : op.isRelay = true) : s.Running op ∨ s.Over := by
  have hop : op ∈ s.control :=
    List.mem_filter.mpr ⟨hmem, by rw [Op.isTimer_of_isRelay hrelay]; rfl⟩
  cases h with
  | running op' running =>
      rw [running.control, List.mem_singleton] at hop
      exact .inl (hop ▸ running)
  | ended hover => exact .inr hover
  | reading _ _ _ pending =>
      rw [pending, List.mem_singleton] at hmem
      rw [hmem] at hrelay
      cases hrelay
  | health _ _ _ _ pending =>
      rw [pending, List.mem_singleton] at hmem
      rw [hmem] at hrelay
      cases hrelay
  | asked _ _ _ pending => rw [pending] at hmem; cases hmem
  | waiting _ _ _ pending =>
      rw [pending, List.mem_singleton] at hmem
      rw [hmem] at hrelay
      cases hrelay

theorem Phase.finished_of_error {op : Op} (h : s.Phase e) (hmem : op ∈ s.pending)
    (herror : op.isError = true) : s.finished = true := by
  cases h with
  | ended hover => exact hover.finished
  | running op' running =>
      have hop : op ∈ s.control :=
        List.mem_filter.mpr ⟨hmem, by cases op <;> first | rfl | cases herror⟩
      rw [running.control, List.mem_singleton] at hop
      rw [hop, Op.isError_of_isRelay running.isRelay] at herror
      cases herror
  | reading _ _ _ pending =>
      rw [pending, List.mem_singleton] at hmem
      rw [hmem] at herror
      cases herror
  | health _ _ _ _ pending =>
      rw [pending, List.mem_singleton] at hmem
      rw [hmem] at herror
      cases herror
  | asked _ _ _ pending => rw [pending] at hmem; cases hmem
  | waiting _ _ _ pending =>
      rw [pending, List.mem_singleton] at hmem
      rw [hmem] at herror
      cases herror

theorem Phase.afterHeader_of_relay {op : Op} (h : s.Phase e) (hmem : op ∈ s.pending)
    (hrelay : op.isRelay = true) : op.afterHeader = s.responseStarted := by
  have hop : op ∈ s.control :=
    List.mem_filter.mpr ⟨hmem, by rw [Op.isTimer_of_isRelay hrelay]; rfl⟩
  rcases h.of_relay hmem hrelay with hrunning | hover
  · exact hrunning.responseStarted.symm
  · rcases hover.control op hop with ⟨-, h'⟩ | h'
    · exact h'
    · rw [Op.isError_of_isRelay hrelay] at h'; cases h'

theorem Idle.deliver (h : s.Idle) (op : Op) (r : Outcome) : (World.deliver s op r).Idle :=
  ⟨by rw [World.deliver_permit, h.1], by rw [World.deliver_requestStart, h.2],
    by rw [World.deliver_finished, h.3], by rw [World.deliver_responseStarted, h.4]⟩

theorem Phase.waiting_of_queued (h : s.Phase e) (hqueued : s.queued = true) :
    s.Idle ∧ s.requestCounted = true ∧ s.pending = [.queueTimer false] ∧ e = 0 := by
  cases h with
  | waiting idle _ counted pending => exact ⟨idle, counted, pending, rfl⟩
  | running op running => rw [running.queued] at hqueued; cases hqueued
  | ended hover => rw [hover.queued] at hqueued; cases hqueued
  | _ => simp_all

theorem Phase.asked_of_posted (h : s.Phase e) (he : e ≠ 0) :
    s.Idle ∧ s.queued = false ∧ s.requestCounted = true ∧ s.pending = [] ∧ e = 1 := by
  cases h with
  | asked idle queued counted pending hle => exact ⟨idle, queued, counted, pending, by omega⟩
  | _ => exact absurd rfl he

/-- The calls made and the end of the object are no part of a phase. -/
theorem Phase.aside (h : s.Phase e) (calls : List Call) (destroyed : Bool) :
    ({ s with calls, destroyed } : ProxySession).Phase e := by
  cases h with
  | reading idle queued counted pending =>
      exact .reading ⟨idle.1, idle.2, idle.3, idle.4⟩ queued counted pending
  | health response idle queued counted pending =>
      exact .health response ⟨idle.1, idle.2, idle.3, idle.4⟩ queued counted pending
  | asked idle queued counted pending he =>
      exact .asked ⟨idle.1, idle.2, idle.3, idle.4⟩ queued counted pending he
  | waiting idle queued counted pending =>
      exact .waiting ⟨idle.1, idle.2, idle.3, idle.4⟩ queued counted pending
  | running op h => exact .running op ⟨h.1, h.2, h.3, h.4, h.5, h.6, h.7, h.8⟩
  | ended h => exact .ended ⟨h.1, h.2, h.3, h.4, h.5, h.6⟩

theorem Phase.note (h : s.Phase e) (call : Call) : (s.note call).Phase e :=
  h.aside (s.calls ++ [call]) s.destroyed

theorem Phase.destroy (h : s.Phase e) : ({ s with destroyed := true } : ProxySession).Phase e :=
  h.aside s.calls true

/-- A session with nothing pending was told to wait, or is over. -/
theorem Phase.of_pending_nil (h : s.Phase e) (hpending : s.pending = []) :
    s.permit = none ∧ s.queued = false := by
  cases h with
  | asked idle queued => exact ⟨idle.permit, queued⟩
  | ended hover => exact ⟨hover.permit, hover.queued⟩
  | running op running =>
      have hnil : s.control = [] := Context.control_of_pending_nil hpending
      rw [running.control] at hnil
      cases hnil
  | _ => simp_all

end ProxySession

end VllmSloProxy
