import VllmSloProxy.HealthFigures
import VllmSloProxy.ThreadSchedules

/-!
# One thread among several

With one worker thread the event loop runs each handler to its end, as in the world of the server.
Each such run is also a schedule of the strands: until `stop` is called, the threads can do whatever
the world does, call by call, and arrive at the same limiter, queue and strand.
-/

namespace VllmSloProxy

open Context Transition

/-- What a pending wait of the queue timer knows of being cancelled. -/
def Op.queueWait : Op → Option Bool
  | queueTimer cancelled => some cancelled
  | _ => none

namespace ProxySession

def waits (s : ProxySession) : List Bool := s.pending.filterMap Op.queueWait

def opening (s : ProxySession) : Bool := s.pending.any Op.isOpening

/-- Between two handlers a session reads its request, or nothing runs. -/
def point (s : ProxySession) : SessionPoint := if s.opening then .reading else .idle

/-- What the queue protocol knows of a session. -/
structure Shows (s : ProxySession) (u : ThreadedSession) : Prop where
  queued : u.queued = s.queued
  finished : u.finished = s.finished
  permit : u.permit.ownsSlot = s.permitValid
  started : u.started = s.requestStart.isSome
  waits : u.queueTimer.toList = s.waits
  destroyed : u.destroyed = s.destroyed

theorem queueWait_of_not_timer {op : Op} (h : op.isTimer = false) : op.queueWait = none := by
  cases op <;> first | rfl | cases h

theorem filterMap_erase_of_none {ops : List Op} {op : Op} (hop : op.queueWait = none) :
    (ops.erase op).filterMap Op.queueWait = ops.filterMap Op.queueWait := by
  induction ops with
  | nil => rfl
  | cons op' ops ih =>
      rw [List.erase_cons]
      split
      · rename_i heq
        rw [List.filterMap_cons, eq_of_beq heq, hop]
      · rw [List.filterMap_cons, List.filterMap_cons, ih]

/-- A wait that completes was the only one. -/
theorem filterMap_erase_of_some {ops : List Op} {op : Op} {b : Bool} {timer : Option Bool}
    (hmem : op ∈ ops) (hop : op.queueWait = some b)
    (hwaits : timer.toList = ops.filterMap Op.queueWait) :
    timer = some b ∧ (ops.erase op).filterMap Op.queueWait = [] := by
  have hperm := (List.perm_cons_erase hmem).filterMap Op.queueWait
  rw [← hwaits, List.filterMap_cons, hop] at hperm
  cases timer with
  | none => cases hperm.nil_eq
  | some b' =>
      have hsame : [b'] = b :: (ops.erase op).filterMap Op.queueWait :=
        List.singleton_perm.mp hperm
      obtain ⟨hb, hnil⟩ := List.cons.inj hsame
      exact ⟨congrArg some hb, hnil.symm⟩

theorem opening_erase {ops : List Op} {op : Op} (hop : op.isOpening = false) :
    (ops.erase op).any Op.isOpening = ops.any Op.isOpening := by
  induction ops with
  | nil => rfl
  | cons op' ops ih =>
      rw [List.erase_cons]
      split
      · rename_i heq
        rw [List.any_cons, eq_of_beq heq, hop, Bool.false_or]
      · rw [List.any_cons, List.any_cons, ih]

end ProxySession

open ProxySession

/-- The servers agree on all that the queue protocol uses. -/
structure SameQueue (server server' : ProxyServer) : Prop where
  limiter : server'.limiter = server.limiter
  queuedSessions : server'.queuedSessions = server.queuedSessions
  stopping : server'.stopping = server.stopping
  strand : server'.strand = server.strand
  accepting : server'.accepting = server.accepting
  alive : server'.alive = server.alive

namespace SameQueue

variable {server server' : ProxyServer}

theorem setMetrics (h : SameQueue server server') (metrics : ProxyMetrics) :
    SameQueue { server with metrics } server' := ⟨h.1, h.2, h.3, h.4, h.5, h.6⟩

theorem setLimiter (h : SameQueue server server') (limiter : InflightLimiter Task) :
    SameQueue { server with limiter } { server' with limiter } := ⟨rfl, h.2, h.3, h.4, h.5, h.6⟩

theorem post (h : SameQueue server server') (task : Task) :
    SameQueue (server.post task) (server'.post task) :=
  ⟨h.1, h.2, h.3, congrArg (· ++ [task]) h.4, h.5, h.6⟩

theorem releasePermit (h : SameQueue server server') {p p' : ServerPermit}
    (howns : p'.ownsSlot = p.ownsSlot) :
    SameQueue (server.releasePermit p) (server'.releasePermit p') := by
  rcases ProxyServer.releasePermit_cases p server with ⟨heq, hnone⟩ | ⟨hslot, halive, heq⟩
  · rcases ProxyServer.releasePermit_cases p' server' with ⟨heq', -⟩ | ⟨hslot', halive', -⟩
    · rw [heq, heq']
      exact h
    · rw [howns] at hslot'
      rw [h.alive] at halive'
      rcases hnone with hno | hno
      · exact absurd (hslot'.symm.trans hno) (by decide)
      · exact absurd (halive'.symm.trans hno) (by decide)
  · rcases ProxyServer.releasePermit_cases p' server' with ⟨-, hnone⟩ | ⟨-, -, heq'⟩
    · rw [howns, h.alive] at hnone
      rcases hnone with hno | hno
      · exact absurd (hslot.symm.trans hno) (by decide)
      · exact absurd (halive.symm.trans hno) (by decide)
    · rw [heq, heq', h.limiter, h.strand]
      exact ⟨rfl, h.2, h.3, rfl, h.5, h.6⟩

end SameQueue

namespace ProxySession

variable {s s' : ProxySession} {u v : ThreadedSession}

theorem waits_start (op : Op) (s : ProxySession) :
    (s.start op).waits = s.waits ++ op.queueWait.toList := by
  show (s.pending ++ [op]).filterMap Op.queueWait = _
  rw [List.filterMap_append]
  cases op <;> rfl

theorem opening_start (op : Op) (s : ProxySession) :
    (s.start op).opening = (s.opening || op.isOpening) := by
  show (s.pending ++ [op]).any Op.isOpening = _
  rw [List.any_append, List.any_cons, List.any_nil, Bool.or_false]
  rfl

theorem opening_eq_false (h : ∀ op ∈ s.pending, op.isOpening = false) : s.opening = false :=
  List.any_eq_false.mpr fun op hmem => Bool.eq_false_iff.mp (h op hmem)

/-- An operation that is pending beside others, or that is none of these, tells that the request has
been read. -/
theorem Phase.opening_eq_false {n : Nat} {op : Op} (h : s.Phase n) (hmem : op ∈ s.pending)
    (hop : op.isOpening = false) : s.opening = false := by
  refine Bool.eq_false_iff.mpr fun hopening => ?_
  obtain ⟨op', hmem', hop'⟩ := List.any_eq_true.mp hopening
  obtain ⟨-, -, pending⟩ := h.of_opening hmem' hop'
  rw [pending, List.mem_singleton] at hmem
  rw [hmem, hop'] at hop
  cases hop

theorem Shows.frame (h : s.Shows u) (hqueued : s'.queued = s.queued)
    (hfinished : s'.finished = s.finished) (hpermit : s'.permit = s.permit)
    (hstart : s'.requestStart = s.requestStart) (hwaits : s'.waits = s.waits)
    (hdestroyed : s'.destroyed = s.destroyed) : s'.Shows u :=
  ⟨h.queued.trans hqueued.symm, h.finished.trans hfinished.symm,
    h.permit.trans (by unfold permitValid; rw [hpermit]), h.started.trans (by rw [hstart]),
    h.waits.trans hwaits.symm, h.destroyed.trans hdestroyed.symm⟩

/-- A session that is being settled, before its permit is given back. -/
structure Settles (s : ProxySession) (v : ThreadedSession) : Prop where
  point : v.point = .releasing
  queued : v.queued = s.queued
  finished : v.finished = true
  permit : v.permit.ownsSlot = s.permitValid
  started : v.started = s.requestStart.isSome
  waits : v.queueTimer.toList = s.waits.map fun _ => true
  destroyed : v.destroyed = s.destroyed

theorem toList_map (timer : Option Bool) :
    (timer.map fun _ => true).toList = timer.toList.map fun _ => true := by
  cases timer <;> rfl

theorem Shows.settle (h : s.Shows u) (hfinished : s.finished = false) : s.Settles u.settle := by
  unfold ThreadedSession.settle
  rw [h.finished, hfinished, if_neg Bool.false_ne_true]
  exact ⟨rfl, h.queued, rfl, h.permit, h.started, by rw [← h.waits]; exact toList_map _,
    h.destroyed⟩

theorem waits_cancel (ops : List Op) : (ops.map Op.cancelTimer).filterMap Op.queueWait =
    (ops.filterMap Op.queueWait).map fun _ => true := by
  induction ops with
  | nil => rfl
  | cons op ops ih =>
      rw [List.map_cons, List.filterMap_cons, List.filterMap_cons, ih]
      cases op <;> rfl

theorem opening_map {f : Op → Op} (hf : ∀ op, (f op).isOpening = op.isOpening) (ops : List Op) :
    (ops.map f).any Op.isOpening = ops.any Op.isOpening := by
  rw [List.any_map]
  exact congrArg ops.any (funext hf)

theorem cancelTimer_isOpening (op : Op) : op.cancelTimer.isOpening = op.isOpening := by
  cases op <;> rfl

end ProxySession

namespace Context

variable {c c' : Context} {t : ThreadedProxy} {u v : ThreadedSession} {s : ProxySession}
  {server : ProxyServer} {ending : Ending} {op : Op} {r : Outcome}

/-- The threads can do what the handler has done. -/
def Arrives (t : ThreadedProxy) (c : Context) : Prop :=
  ∃ server u, SameQueue c.server server ∧ c.self.Shows u ∧ u.point = c.self.point ∧
    t.Leads ((t.setServer server).put c.id u)

theorem Arrives.refl (hserver : SameQueue c.server t.server) (hget : t.sessions[c.id]? = some u)
    (hshows : c.self.Shows u) (hpoint : u.point = c.self.point) : Arrives t c := by
  refine ⟨t.server, u, hserver, hshows, hpoint, ?_⟩
  have hsame : t.sessions.set c.id u = t.sessions := by
    obtain ⟨hlt, rfl⟩ := List.getElem?_eq_some_iff.mp hget
    exact List.set_getElem_self hlt
  have hput : (t.setServer t.server).put c.id u = t := by
    unfold ThreadedProxy.put
    exact congrArg (fun sessions => { t with sessions }) hsame
  rw [hput]
  exact .refl t

/-- The session is being settled, and its permit goes back. -/
theorem Ends.arrives (hends : Ends ending c c') (hfinished : c.self.finished = false)
    (hserver : SameQueue c.server t.server) (halive : c.server.alive = true)
    (hget : t.sessions[c.id]? = some v) (hsettles : c.self.Settles v)
    (hopening : c.self.opening = false) : Arrives t c' := by
  have hrecorded : SameQueue (c.recordedServer ending) t.server := by
    unfold recordedServer
    split
    · exact hserver.setMetrics _
    · exact hserver
  -- the permit goes back on both sides, or there is none on both
  have hreleased : SameQueue (c.settle ending).server (t.server.releasePermit v.permit) := by
    rw [settle_eq]
    have howns := hsettles.permit
    unfold permitValid at howns
    cases hpermit : c.self.permit with
    | none =>
        rw [hpermit] at howns
        rcases ProxyServer.releasePermit_cases v.permit t.server with ⟨heq, -⟩ | ⟨hslot, -, -⟩
        · rw [heq]
          exact hrecorded
        · exact absurd (hslot.symm.trans howns) (by decide)
    | some permit =>
        rw [hpermit] at howns
        exact hrecorded.releasePermit howns
  have hshows : (c.settle ending).self.Shows
      { v with point := .idle, permit := { v.permit with ownsSlot := false } } := by
    rw [settle_eq]
    refine ⟨hsettles.queued, hsettles.finished, rfl, hsettles.started, ?_, hsettles.destroyed⟩
    exact hsettles.waits.trans (waits_cancel c.self.pending).symm
  have hidle : (c.settle ending).self.opening = false := by
    rw [settle_eq]
    exact (opening_map cancelTimer_isOpening c.self.pending).trans hopening
  -- the threaded session has released and posts its promotion
  have hleads := ThreadedProxy.released_leads hget hsettles.point (hserver.alive.trans halive)
  have hid : (c.settle ending).id = c.id := (settle_frame ending).id
  cases hends with
  | already hdone => exact absurd (hfinished.symm.trans hdone) (by decide)
  | quietly =>
      refine ⟨_, _, hreleased, hshows.frame rfl rfl rfl rfl rfl rfl, ?_, hid ▸ hleads⟩
      show _ = (c.settle ending).self.point
      rw [point, hidle]
      rfl
  | withError response =>
      refine ⟨_, _, hreleased, hshows.frame rfl rfl rfl rfl ?_ rfl, ?_, hid ▸ hleads⟩
      · rw [start, setSelf, waits_start]
        exact List.append_nil _
      · rw [point, start, setSelf, opening_start, hidle]
        rfl

end Context

namespace Context

variable {c c' c₁ : Context} {t t' : ThreadedProxy} {u v : ThreadedSession} {s : ProxySession}
  {server : ProxyServer} {ending : Ending} {op next : Op} {r : Outcome} {n : Nat}

/-- The threads go on from a state that has the server and the one session changed. -/
theorem Arrives.after (hleads : t.Leads ((t.setServer server).put c.id v))
    (h : Arrives ((t.setServer server).put c.id v) c) : Arrives t c := by
  obtain ⟨server', u, hserver, hshows, hpoint, hrest⟩ := h
  refine ⟨server', u, hserver, hshows, hpoint, hleads.trans ?_⟩
  exact (ThreadedProxy.put_put (t := t.setServer server') (u := v) (v := u)) ▸ hrest

theorem Prepares.shows (hprep : Prepares c c₁) (h : c.self.Shows u) : c₁.self.Shows u :=
  h.frame hprep.queued hprep.finished hprep.permit hprep.requestStart
    (congrArg (List.filterMap Op.queueWait) hprep.pending) hprep.destroyed

theorem Prepares.point (hprep : Prepares c c₁) : c₁.self.point = c.self.point := by
  unfold ProxySession.point opening
  rw [hprep.pending]

theorem Prepares.sameQueue (hprep : Prepares c c₁) (h : SameQueue c.server server) :
    SameQueue c₁.server server := by
  obtain ⟨metrics, -, -, -, hserver⟩ := hprep.server
  rw [hserver]
  exact h.setMetrics metrics

theorem point_idle (h : s.opening = false) : s.point = .idle := by
  rw [ProxySession.point, h]
  rfl

/-- A handler of a session that was started ends it. -/
theorem Ends.arrives_of_started (hends : Ends ending c c') (hserver : SameQueue c.server t.server)
    (halive : c.server.alive = true) (hget : t.sessions[c.id]? = some u) (hshows : c.self.Shows u)
    (hpoint : u.point = .idle) (hopening : c.self.opening = false)
    (hexists : c.self.destroyed = false)
    (hstarted : c.self.finished = false → c.self.requestStart.isSome = true) : Arrives t c' := by
  cases hfinished : c.self.finished with
  | true =>
      cases hends with
      | already => exact .refl hserver hget hshows (hpoint.trans (point_idle hopening).symm)
      | quietly h => exact absurd (hfinished.symm.trans h) (by decide)
      | withError _ _ h => exact absurd (hfinished.symm.trans h) (by decide)
  | false =>
      have hlock := ThreadedProxy.lock_of_get hget (hshows.destroyed.trans hexists)
      have hleads := ThreadedProxy.endRequest_leads hlock hpoint
        (hshows.started.trans (hstarted hfinished))
      have hid : c'.id = c.id := hends.frame.id
      have hleads' : t.Leads ((t.setServer t.server).put c'.id u.settle) := hid ▸ hleads
      refine .after hleads' ?_
      refine hends.arrives hfinished hserver halive ?_ (hshows.settle hfinished) hopening
      rw [hid]
      exact ThreadedProxy.put_get hget

/-- The request of a session ends before the limiter was asked. -/
theorem Ends.dismissed (hends : Ends ending c c') (hfinished : c.self.finished = false)
    (hpermit : c.self.permit = none) (hpending : c.self.pending = []) (hshows : c.self.Shows u)
    (hserver : SameQueue c.server server) :
    SameQueue c'.server server ∧ c'.self.Shows { u with point := .idle, finished := true } ∧
      c'.self.point = .idle := by
  have hsettled : SameQueue (c.settle ending).server server := by
    rw [settle_eq, hpermit]
    show SameQueue (c.recordedServer ending) server
    unfold recordedServer
    split
    · exact hserver.setMetrics _
    · exact hserver
  have hnothing : (c.settle ending).self.pending = [] := by
    rw [settle_eq, hpending]
    rfl
  -- without a permit and without a timer there is nothing else to settle
  have hfields : (c.settle ending).self.Shows { u with point := .idle, finished := true } := by
    have hpermit' := hshows.permit
    have hwaits := hshows.waits
    unfold permitValid at hpermit'
    unfold waits at hwaits
    rw [hpermit] at hpermit'
    rw [hpending] at hwaits
    rw [settle_eq]
    exact ⟨hshows.queued, rfl, hpermit', hshows.started, by rw [waits, hpending]; exact hwaits,
      hshows.destroyed⟩
  cases hends with
  | already hdone => exact absurd (hfinished.symm.trans hdone) (by decide)
  | quietly =>
      refine ⟨hsettled, hfields.frame rfl rfl rfl rfl rfl rfl, point_idle ?_⟩
      show (c.settle ending).self.pending.any Op.isOpening = false
      rw [hnothing]
      rfl
  | withError response =>
      refine ⟨hsettled, hfields.frame rfl rfl rfl rfl ?_ rfl, point_idle ?_⟩
      · rw [start, setSelf, waits_start]
        exact List.append_nil _
      · rw [start, setSelf, opening_start]
        show ((c.settle ending).self.pending.any Op.isOpening || false) = false
        rw [hnothing]
        rfl

/-- What the limiter has answered, where it was asked. -/
inductive Answered (c : Context) : Context → Prop where
  | dismissed (c' : Context) (hends : Ends .failed c c') : Answered c c'
  | health (response : HttpResponse) : Answered c (c.start (.writeText response))
  | admitted (halive : c.server.alive = true)
      (hanswer : c.server.limiter.tryAcquireOrQueue () = ({
          decision := .admitted
          permit := Permit.owning () }, { c.server.limiter with
        currentInflight := c.server.limiter.currentInflight + 1 })) :
      Answered c ((c.counted.setLimiter { c.server.limiter with
        currentInflight := c.server.limiter.currentInflight + 1 }).startProxyRequest
          (Permit.owning ()))
  | queued (hanswer : c.server.limiter.tryAcquireOrQueue () = ({
          decision := .queue
          queuePosition := c.server.limiter.queuedRequests + 1 }, { c.server.limiter with
        queuedRequests := c.server.limiter.queuedRequests + 1 })) :
      Answered c (((c.counted.setLimiter { c.server.limiter with
        queuedRequests := c.server.limiter.queuedRequests + 1 }).enter
          (.asked c.id)).enqueueSession)
  | turnedAway (c' : Context) (decision : InflightDecision)
      (hdecision : decision = .closed ∨ decision = .reject)
      (hanswer : c.server.limiter.tryAcquireOrQueue () = ({ decision }, c.server.limiter))
      (hends : Ends .failed c.counted c') : Answered c c'

theorem handleRequest_answered (c : Context) : Answered c c.handleRequest := by
  unfold handleRequest sendJsonError
  split
  · split
    · exact .dismissed _ (failWithStatus_ends ..)
    · unfold sendHealth sendJsonError
      split
      · exact .health _
      · exact .dismissed _ (failWithStatus_ends ..)
  · split
    · exact .dismissed _ (failWithStatus_ends ..)
    · split
      · exact .dismissed _ (failWithStatus_ends ..)
      · split
        · exact .dismissed _ (failWithStatus_ends ..)
        · rename_i hlocked
          have halive : c.server.alive = true := by simpa using hlocked
          extract_lets c₁ s₂ c₂ acquire c₃
          rcases c.server.limiter.tryAcquireOrQueue_cases () with
            ⟨-, hacq⟩ | ⟨-, -, hacq⟩ | ⟨-, -, -, hacq⟩ | ⟨-, -, -, hacq⟩
          all_goals
            have hacquire : acquire = _ := hacq
            simp only [c₃, hacquire]
          · exact .turnedAway _ _ (.inl rfl) hacq (failWithStatus_ends ..)
          · exact .admitted halive hacq
          · exact .queued hacq
          · exact .turnedAway _ _ (.inr rfl) hacq (failWithStatus_ends ..)

/-- The threads answer a request alike. -/
theorem Answered.arrives (hanswered : Answered c c') (hidle : c.self.Idle)
    (hpending : c.self.pending = [])
    (hserver : SameQueue c.server t.server) (halive : c.server.alive = true)
    (hget : t.sessions[c.id]? = some u) (hshows : c.self.Shows u) (hpoint : u.point = .reading)
    (hexists : c.self.destroyed = false) : Arrives t c' := by
  have hlock := ThreadedProxy.lock_of_get hget (hshows.destroyed.trans hexists)
  have hasked := ThreadedProxy.request_leads hlock hpoint
  have hclosed : c.self.opening = false := opening_eq_false (by simp [hpending])
  unfold ThreadedProxy.handleRequest at hasked
  rw [hserver.limiter] at hasked
  cases hanswered with
  | dismissed _ hends =>
      obtain ⟨hsame, hshows', hpoint'⟩ :=
        hends.dismissed hidle.finished hidle.permit hpending hshows hserver
      have hid : c'.id = c.id := hends.frame.id
      exact ⟨t.server, _, hsame, hshows', hpoint'.symm,
        hid ▸ ThreadedProxy.dismiss_leads hlock hpoint⟩
  -- the health report is being written: no step of the threaded model
  | health response =>
      refine .refl hserver hget (hshows.frame rfl rfl rfl rfl ?_ rfl) ?_
      · rw [start, setSelf, waits_start]
        exact List.append_nil _
      · rw [start, setSelf, ProxySession.point, opening_start, hpoint]
        show SessionPoint.reading = if (c.self.opening || true) = true then _ else _
        rw [Bool.or_true, if_pos rfl]
  -- Admit: the answer, then the start of the request
  | admitted _ hanswer =>
      rw [hanswer] at hasked
      have hbegun := hasked.trans (ThreadedProxy.session_leads (ThreadedProxy.put_get hget) rfl)
      rw [ThreadedProxy.put_put] at hbegun
      rw [startProxyRequest_eq (c := c.counted.setLimiter _) _ halive hidle.permit]
      refine ⟨_, { u with point := .idle, permit := Permit.owning (), started := true },
        (hserver.setMetrics _).setLimiter _, ?_, ?_, hbegun⟩
      · refine ⟨hshows.queued, hshows.finished, rfl, rfl, hshows.waits.trans ?_, hshows.destroyed⟩
        show c.self.pending.filterMap Op.queueWait =
          ((c.self.pending ++ [Op.requestTimer false]) ++ [Op.resolve _ _]).filterMap Op.queueWait
        rw [hpending]
        rfl
      · refine (point_idle (opening_eq_false fun op hmem => ?_)).symm
        have hmem : op ∈ (c.self.pending ++ [.requestTimer false]) ++ [.resolve _ _] := hmem
        rw [hpending] at hmem
        rcases List.mem_append.mp hmem with hmem | hmem <;> rw [List.mem_singleton.mp hmem] <;> rfl
  -- Queue: the answer, then the post of the enqueue task
  | queued hanswer =>
      rw [hanswer] at hasked
      have hposted := hasked.trans (ThreadedProxy.session_leads (ThreadedProxy.put_get hget) rfl)
      refine ⟨_, { u with point := .idle, told := true },
        ((hserver.setMetrics _).setLimiter _).post (.enqueue c.id),
        ⟨hshows.queued, hshows.finished, hshows.permit, hshows.started, hshows.waits,
          hshows.destroyed⟩, (point_idle hclosed).symm, hposted.trans ?_⟩
      exact (ThreadedProxy.put_put (t := (t.setLimiter _).post (.enqueue c.id)) (i := c.id)
        (u := { u with point := .told, told := true })
        (v := { u with point := .idle, told := true })) ▸ .refl _
  -- Reject or Closed: the threaded session is settled by the answer itself
  | turnedAway _ decision hdecision hanswer hends =>
      have hsettled : t.Leads ((t.setServer { t.server with limiter := c.server.limiter }).put c.id
          u.settle) := by
        rw [hanswer] at hasked
        rcases hdecision with rfl | rfl <;> exact hasked
      have hid : c'.id = c.id := hends.frame.id
      refine .after (hid ▸ hsettled) ?_
      have hcounted : c.counted.self.Shows u := hshows.frame rfl rfl rfl rfl rfl rfl
      have hsame : SameQueue c.counted.server { t.server with limiter := c.server.limiter } :=
        ⟨rfl, hserver.2, hserver.3, hserver.4, hserver.5, hserver.6⟩
      refine hends.arrives hidle.finished hsame halive ?_ (hcounted.settle hidle.finished) hclosed
      rw [hid]
      exact ThreadedProxy.put_get (t := t.setServer _) hget

end Context

namespace Context

variable {c c' : Context} {t : ThreadedProxy} {u : ThreadedSession} {s : ProxySession} {op : Op}
  {r : Outcome} {n : Nat}

theorem deliver_shows (hop : op.queueWait = none) (h : s.Shows u) :
    (World.deliver s op r).Shows u := by
  refine h.frame (World.deliver_queued ..) (World.deliver_finished ..) (World.deliver_permit ..)
    (World.deliver_requestStart ..) ?_ (World.deliver_destroyed ..)
  rw [waits, World.deliver_pending]
  exact filterMap_erase_of_none hop

theorem deliver_opening (hop : op.isOpening = false) :
    (World.deliver s op r).opening = s.opening := by
  rw [opening, World.deliver_pending]
  exact opening_erase hop

/-- A session that is not over was started if its request timer is pending. -/
theorem Phase.started_of_requestTimer {b : Bool} (h : s.Phase n)
    (hmem : .requestTimer b ∈ s.pending) (hfinished : s.finished = false) :
    s.requestStart.isSome = true := by
  cases h with
  | reading _ _ _ pending => simp [pending] at hmem
  | health _ _ _ _ pending => simp [pending] at hmem
  | asked _ _ _ pending => simp [pending] at hmem
  | waiting _ _ _ pending => simp [pending] at hmem
  | running op running => exact running.requestStart
  | ended hover => exact absurd (hfinished.symm.trans hover.finished) (by decide)

/-- The handler of the queue timer. -/
theorem Handled.arrives_queueTimer {b : Bool} (hhandled : Handled (.queueTimer b) r c c')
    (hself : c.self = World.deliver s (.queueTimer b) r) (hphase : s.Phase n)
    (hmem : .queueTimer b ∈ s.pending) (hdeliverable : World.deliverable s (.queueTimer b) r = true)
    (hserver : SameQueue c.server t.server) (halive : c.server.alive = true)
    (hget : t.sessions[c.id]? = some u) (hshows : s.Shows u) (hpoint : u.point = s.point)
    (hexists : s.destroyed = false) : Arrives t c' := by
  obtain ⟨htimer, hnone⟩ := filterMap_erase_of_some hmem rfl hshows.waits
  have hclosed := hphase.opening_eq_false hmem rfl
  have hidle : u.point = .idle := hpoint.trans (point_idle hclosed)
  have hlock := ThreadedProxy.lock_of_get hget (hshows.destroyed.trans hexists)
  -- the delivery takes the timer off the pending operations, and changes nothing else
  have hfields : c.self.Shows { u with queueTimer := none } := by
    rw [hself]
    refine ⟨?_, ?_, ?_, ?_, ?_, ?_⟩
    · rw [World.deliver_queued]
      exact hshows.queued
    · rw [World.deliver_finished]
      exact hshows.finished
    · rw [World.deliver_permitValid]
      exact hshows.permit
    · rw [World.deliver_requestStart]
      exact hshows.started
    · rw [waits, World.deliver_pending, hnone]
      rfl
    · rw [World.deliver_destroyed]
      exact hshows.destroyed
  have hopening : c.self.opening = false := by
    rw [hself, deliver_opening rfl]
    exact hclosed
  cases hhandled with
  -- the timer was cancelled, or the session has been started: both handlers return at once
  | timer _ _ hqueue =>
      have hignored := ThreadedProxy.queueTimer_leads r.ec.isSome hlock hidle htimer (by
        intro hec
        obtain ⟨ec, hec⟩ := Option.isSome_iff_exists.mp hec
        simpa [World.deliverable, hec] using hdeliverable)
      have hunqueued : (r.ec.isSome || !u.queued) = true := by
        rcases hqueue b rfl with hec | hqueued
        · rw [hec]
          rfl
        · rw [hfields.queued, hqueued]
          exact Bool.or_true _
      have hrearmed : u.onQueueTimer r.ec.isSome = { u with queueTimer := none } := by
        unfold ThreadedSession.onQueueTimer
        simp only [hunqueued, ↓reduceIte]
      rw [hrearmed] at hignored
      exact ⟨t.server, _, hserver, hfields, hidle.trans (point_idle hopening).symm, hignored⟩
  -- the queue timeout: `cancel_queued`, `queued_ = false`, and the error to the client
  | timedOut b' _ hop hec hqueued hends =>
      obtain ⟨taken, hleads⟩ := ThreadedProxy.timeOut_leads hlock hget hidle htimer
        (hfields.queued.trans hqueued)
      have hid : c'.id = c.id := (timeOut_frame.trans hends.frame).id
      have hphase' : s.queued = true := by
        rw [hself, World.deliver_queued] at hqueued
        exact hqueued
      obtain ⟨idle, -, -, -⟩ := hphase.waiting_of_queued hphase'
      have hfinished : c.timeOut.self.finished = false := by
        rw [timeOut_self]
        show c.self.finished = false
        rw [hself, World.deliver_finished]
        exact idle.finished
      have hcancelled : c.timeOut.server = { c.server with
          limiter := c.server.limiter.cancelQueued.2 } := by
        unfold timeOut
        rw [if_pos halive]
        rfl
      have hsame : SameQueue c.timeOut.server { t.server with
          limiter := t.server.limiter.cancelQueued.2 } := by
        rw [hcancelled, hserver.limiter]
        exact hserver.setLimiter _
      -- after `fail_with_status` both sessions are settled in the same fields
      have hsettles : c.timeOut.self.Settles { ({ u with
          queueTimer := none, queued := false, taken } : ThreadedSession).settle with
            timedOut := true } := by
        have hleft : c.timeOut.self.Shows
            { u with queueTimer := none, queued := false, taken } := by
          rw [timeOut_self]
          exact ⟨rfl, hfields.finished, hfields.permit, hfields.started, hfields.waits,
            hfields.destroyed⟩
        have hsettled := hleft.settle hfinished
        exact ⟨hsettled.point, hsettled.queued, hsettled.finished, hsettled.permit,
          hsettled.started, hsettled.waits, hsettled.destroyed⟩
      refine .after (hid ▸ hleads) (hends.arrives hfinished hsame ?_ ?_ hsettles ?_)
      · rw [hcancelled]
        exact halive
      · rw [hid, timeOut_frame.id]
        exact ThreadedProxy.put_get (t := t.setServer _) hget
      · rw [timeOut_self]
        exact hopening
  -- no other handler belongs to the queue timer
  | expired _ _ hop => cases hop
  | read _ hop => cases hop
  | wroteText _ hop => cases hop
  | wroteError _ hop => cases hop
  | ended _ _ _ hop => cases hop
  | relayed _ _ hrelay => cases hrelay.isRelay.1

/-- Every other handler of a session that has read its request. -/
theorem Handled.arrives (hhandled : Handled op r c c') (hop : op ≠ .readRequest)
    (hwait : op.queueWait = none) (hself : c.self = World.deliver s op r) (hphase : s.Phase n)
    (hmem : op ∈ s.pending) (hserver : SameQueue c.server t.server)
    (halive : c.server.alive = true) (hget : t.sessions[c.id]? = some u) (hshows : s.Shows u)
    (hpoint : u.point = s.point) (hexists : s.destroyed = false) : Arrives t c' := by
  have hfields : c.self.Shows u := hself ▸ deliver_shows hwait hshows
  have hexists' : c.self.destroyed = false := by
    rw [hself, World.deliver_destroyed]
    exact hexists
  -- a session that has read its request is idle between two handlers
  have hclosed (hopening : op.isOpening = false) :
      u.point = .idle ∧ c.self.opening = false := by
    have hread := hphase.opening_eq_false hmem hopening
    refine ⟨hpoint.trans (point_idle hread), ?_⟩
    rw [hself, deliver_opening hopening]
    exact hread
  cases hhandled with
  | timer htimer =>
      obtain ⟨hidle, hopening⟩ := hclosed (by cases op <;> first | rfl | cases htimer)
      exact .refl hserver hget hfields (hidle.trans (point_idle hopening).symm)
  | timedOut b _ hop' =>
      rw [hop'] at hwait
      cases hwait
  -- the request timer ends a request, which had been started
  | expired b _ hop' _ hends =>
      obtain ⟨hidle, hopening⟩ := hclosed (by rw [hop']; rfl)
      refine hends.arrives_of_started hserver halive hget hfields hidle hopening hexists' ?_
      intro hfinished
      rw [hself, World.deliver_finished] at hfinished
      rw [hself, World.deliver_requestStart]
      exact Phase.started_of_requestTimer hphase (hop' ▸ hmem) hfinished
  | read _ hop' => exact absurd hop' hop
  -- a text response was written, without a slot: the threaded session is dismissed
  | wroteText response hop' =>
      obtain ⟨idle, -, pending⟩ := hphase.of_opening hmem (by rw [hop']; rfl)
      have hreading : u.point = .reading := by
        rw [hpoint, ProxySession.point, opening, pending, hop']
        rfl
      have hlock := ThreadedProxy.lock_of_get hget (hshows.destroyed.trans hexists)
      refine ⟨t.server, _, hserver, ?_, ?_, ThreadedProxy.dismiss_leads hlock hreading⟩
      · exact ⟨hfields.queued, rfl, hfields.permit, hfields.started, hfields.waits,
          hfields.destroyed⟩
      · refine (point_idle (opening_eq_false fun op' hmem' => ?_)).symm
        have hmem' : op' ∈ c.self.pending := hmem'
        rw [hself, World.deliver_pending, pending, List.erase_cons_head] at hmem'
        cases hmem'
  | wroteError response hop' =>
      obtain ⟨hidle, hopening⟩ := hclosed (by rw [hop']; rfl)
      exact .refl hserver hget (hfields.frame rfl rfl rfl rfl rfl rfl)
        (hidle.trans (point_idle hopening).symm)
  | ended ending c₁ _ hrelay _ hobserves hends =>
      obtain ⟨hidle, hopening⟩ := hclosed (by cases op <;> first | rfl | cases hrelay)
      have hprep := hobserves.prepares
      have hid : c₁.id = c.id := hprep.id
      refine hends.arrives_of_started (hprep.sameQueue hserver) ?_ (hid ▸ hget)
        (hprep.shows hfields) hidle ?_ (hprep.destroyed.trans hexists') fun hfinished => ?_
      · exact hobserves.frame.server.alive.trans halive
      · rw [opening, hprep.pending]
        exact hopening
      · rw [hprep.requestStart, hself, World.deliver_requestStart]
        rcases hphase.of_relay hmem hrelay with hrunning | hover
        · exact hrunning.requestStart
        · rw [hprep.finished, hself, World.deliver_finished, hover.finished] at hfinished
          cases hfinished
  -- the relay goes on, which the threaded model does not see
  | relayed c₁ next hrelay =>
      obtain ⟨hthis, hnext⟩ := hrelay.isRelay
      obtain ⟨hidle, hopening⟩ := hclosed (by cases op <;> first | rfl | cases hthis)
      have hprep := hrelay.prepares
      have hid : c₁.id = c.id := hprep.id
      refine .refl (hprep.sameQueue hserver) (hid ▸ hget) ?_ ?_
      · refine (hprep.shows hfields).frame rfl rfl rfl rfl ?_ rfl
        rw [start, setSelf, waits_start, queueWait_of_not_timer (Op.isTimer_of_isRelay hnext)]
        exact List.append_nil _
      · refine hidle.trans (point_idle ?_).symm
        have hother : next.isOpening = false := by cases next <;> first | rfl | cases hnext
        rw [start, setSelf, opening_start, hother, Bool.or_false, opening, hprep.pending]
        exact hopening

/-- Every handler. -/
theorem handle_arrives (op : Op) (r : Outcome) (hself : c.self = World.deliver s op r)
    (hphase : s.Phase n) (hmem : op ∈ s.pending) (hdeliverable : World.deliverable s op r = true)
    (hserver : SameQueue c.server t.server) (halive : c.server.alive = true)
    (hget : t.sessions[c.id]? = some u) (hshows : s.Shows u) (hpoint : u.point = s.point)
    (hexists : s.destroyed = false) : Arrives t (c.handle op r) := by
  have hhandled := handle_handled op r c
  by_cases hread : op = .readRequest
  · subst hread
    obtain ⟨idle, -, pending⟩ := hphase.of_opening hmem rfl
    have hidle := idle.deliver .readRequest r
    rw [← hself] at hidle
    have hnothing : c.self.pending = [] := by
      rw [hself, World.deliver_pending, pending, List.erase_cons_head]
    have hreading : u.point = .reading := by
      rw [hpoint, ProxySession.point, opening, pending]
      rfl
    have hfields : c.self.Shows u := hself ▸ deliver_shows rfl hshows
    have hexists' : c.self.destroyed = false := by
      rw [hself, World.deliver_destroyed]
      exact hexists
    show Arrives t (c.onReadRequest r.ec r.request)
    unfold onReadRequest
    split
    · -- the read failed: the session is finished without a request
      have hlock := ThreadedProxy.lock_of_get hget (hshows.destroyed.trans hexists)
      refine ⟨t.server, { u with point := .idle, finished := true }, hserver, ⟨hfields.queued, rfl,
        hfields.permit, hfields.started, hfields.waits, hfields.destroyed⟩, ?_,
        ThreadedProxy.dismiss_leads hlock hreading⟩
      refine (point_idle (opening_eq_false fun op' hmem' => ?_)).symm
      have hmem' : op' ∈ c.self.pending := hmem'
      rw [hnothing] at hmem'
      cases hmem'
    · exact (handleRequest_answered _).arrives
        (c := c.setSelf { c.self with clientRequest := r.request })
        ⟨hidle.1, hidle.2, hidle.3, hidle.4⟩ hnothing hserver halive hget
        (hfields.frame rfl rfl rfl rfl rfl rfl) hreading hexists'
  · by_cases hwait : op.queueWait = none
    · exact hhandled.arrives hread hwait hself hphase hmem hserver halive hget hshows hpoint hexists
    · obtain ⟨b, rfl⟩ : ∃ b, op = .queueTimer b := by
        cases op <;> first | exact ⟨_, rfl⟩ | exact absurd rfl hwait
      exact hhandled.arrives_queueTimer hself hphase hmem hdeliverable hserver halive hget hshows
        hpoint hexists

end Context

namespace World

variable {config : ProxyConfig} {server server' : ProxyServer} {w w' : World} {t : ThreadedProxy}
  {i : Nat} {s : ProxySession} {u : ThreadedSession} {events : List Event}

/-- The threads show the world. -/
structure Matches (w : World) (t : ThreadedProxy) : Prop where
  server : SameQueue w.server t.server
  length : t.sessions.length = w.sessions.length
  sessions : ∀ (i : Nat) (s : ProxySession), w.sessions[i]? = some s →
    ∃ u, t.sessions[i]? = some u ∧ s.Shows u ∧ u.point = s.point

theorem Matches.goTo (h : Matches w t) (point : StrandPoint) : Matches w (t.goTo point) :=
  ⟨h.server, h.length, h.sessions⟩

theorem Matches.setServer (h : Matches w t) (hserver : SameQueue server server') :
    Matches (w.setServer server) (t.setServer server') :=
  ⟨hserver, h.length, h.sessions⟩

theorem Matches.setQueue (h : Matches w t) (queue : List Nat) :
    Matches (w.setQueue queue) (t.setQueue queue) :=
  h.setServer ⟨h.server.1, rfl, h.server.3, h.server.4, h.server.5, h.server.6⟩

theorem Matches.setStrand (h : Matches w t) (strand : List Task) :
    Matches (w.setStrand strand) (t.setStrand strand) :=
  h.setServer ⟨h.server.1, h.server.2, h.server.3, rfl, h.server.5, h.server.6⟩

theorem Matches.put {c : Context} (h : Matches w t) (hget : w.sessions[c.id]? = some s)
    (hserver : SameQueue c.server server) (hshows : c.self.Shows u)
    (hpoint : u.point = c.self.point) :
    Matches (w.put c) ((t.setServer server).put c.id u) := by
  refine ⟨hserver, ?_, fun i s' hi => ?_⟩
  · show (t.sessions.set _ _).length = (w.sessions.set _ _).length
    rw [List.length_set, List.length_set, h.length]
  · rw [put_getElem? hget] at hi
    show ∃ u', (t.sessions.set c.id u)[i]? = some u' ∧ _
    split at hi
    · rename_i hid
      obtain rfl := Option.some.inj hi
      have hlt : i < t.sessions.length :=
        h.length ▸ hid ▸ (List.getElem?_eq_some_iff.mp hget).1
      exact ⟨u, by rw [hid, List.getElem?_set_self hlt], hshows, hpoint⟩
    · rename_i hid
      rw [List.getElem?_set_ne hid]
      exact h.sessions i s' hi

theorem Matches.lock (h : Matches w t) (hlock : w.lock i = some s) :
    ∃ u, t.lock i = some u ∧ t.sessions[i]? = some u ∧ s.Shows u ∧ u.point = s.point := by
  obtain ⟨hget, hexists⟩ := lock_eq_some.mp hlock
  obtain ⟨u, hget', hshows, hpoint⟩ := h.sessions i s hget
  exact ⟨u, ThreadedProxy.lock_of_get hget' (hshows.destroyed.trans hexists), hget', hshows, hpoint⟩

theorem Matches.lock_none (h : Matches w t) (hlock : w.lock i = none) : t.lock i = none := by
  unfold ThreadedProxy.lock
  cases hget : w.sessions[i]? with
  | none =>
      have hlt : t.sessions.length ≤ i := h.length ▸ List.getElem?_eq_none_iff.mp hget
      rw [List.getElem?_eq_none hlt]
      rfl
  | some s =>
      obtain ⟨u, hget', hshows, -⟩ := h.sessions i s hget
      have hgone : s.destroyed = true := by
        refine Bool.eq_true_of_not_eq_false fun hexists => ?_
        rw [lock_eq_some.mpr ⟨hget, hexists⟩] at hlock
        cases hlock
      rw [hget', Option.filter_some, hshows.destroyed, hgone]
      rfl

/-- A session that waited is started with a slot. -/
theorem Matches.promoted {taken : Nat} (h : Matches w t) (halive : w.server.alive = true)
    (hget : w.sessions[i]? = some s) (hqueued : s.queued = true) (hidle : s.Idle)
    (hpending : s.pending = [.queueTimer false]) (hshows : s.Shows u) (hpoint : u.point = s.point) :
    Matches (w.put ((w.context i s).tryStartFromQueue (Permit.owning ())).2) (t.put i { u with
      queued := false
      queueTimer := u.queueTimer.map fun _ => true
      permit := Permit.owning ()
      started := true
      promoted := true
      taken }) := by
  rw [tryStartFromQueue_of_queued (c := w.context i s) _ hqueued hidle.finished,
    startProxyRequest_eq (c := (w.context i s).dequeued) _ halive hidle.permit]
  have hpending' (host service : Bytes) : (s.pending.map Op.cancelQueueTimer ++
      [Op.requestTimer false]) ++ [Op.resolve host service] =
        [.queueTimer true, .requestTimer false, .resolve host service] := by
    rw [hpending]
    rfl
  refine Matches.put (c := (w.context i s).dequeued.setSelf _) h hget h.server
    ⟨rfl, hshows.finished, rfl, rfl, ?_, hshows.destroyed⟩ ?_
  · show (u.queueTimer.map fun _ => true).toList = ((s.pending.map Op.cancelQueueTimer ++
      [Op.requestTimer false]) ++ [Op.resolve _ _]).filterMap Op.queueWait
    rw [hpending', toList_map, hshows.waits, waits, hpending]
    rfl
  · show u.point = if ((s.pending.map Op.cancelQueueTimer ++
      [Op.requestTimer false]) ++ [Op.resolve _ _]).any Op.isOpening then _ else _
    rw [hpending', hpoint, point, opening, hpending]
    rfl

/-- The strand of the threads runs the loop of the promotion. -/
theorem promoteLoop_leads (queue : List Nat) (w : World) (t : ThreadedProxy) (hsound : w.Sound)
    (halive : w.server.alive = true) (hqueue : w.server.queuedSessions = queue)
    (h : Matches w t) (hpoint : t.point = .looping) :
    ∃ t', t.Leads t' ∧ Matches (w.promoteLoop queue) t' ∧ t'.point = .free := by
  induction queue generalizing w t with
  | nil =>
      have hdry : t.server.queuedSessions = [] := h.server.queuedSessions.trans hqueue
      refine ⟨t.goTo .free, ThreadedProxy.strand_leads ?_, ?_, rfl⟩
      · simp only [ThreadedProxy.strandStep, hpoint, hdry]
      · have hmatches := (h.goTo .free).setQueue []
        exact ⟨⟨hmatches.server.1, hdry, hmatches.server.3, hmatches.server.4, hmatches.server.5,
          hmatches.server.6⟩, h.length, h.sessions⟩
  | cons i queue ih =>
      have hqueue' : t.server.queuedSessions = i :: queue := h.server.queuedSessions.trans hqueue
      have hpopped : (w.setQueue queue).Sound :=
        hsound.quiet (.books _ (w.setQueue_sameBooks queue))
      -- the loop goes on with the rest of the queue
      have hrest {t₁ : ThreadedProxy} (hleads : t.Leads t₁)
        (hmatches : Matches (w.setQueue queue) t₁)
          (hlooping : t₁.point = .looping) : ∃ t', t.Leads t' ∧
            Matches ((w.setQueue queue).promoteLoop queue) t' ∧ t'.point = .free := by
        obtain ⟨t', hleads', hmatches', hfree⟩ :=
          ih (w.setQueue queue) t₁ hpopped halive rfl hmatches hlooping
        exact ⟨t', hleads.trans hleads', hmatches', hfree⟩
      rw [World.promoteLoop]
      cases hlock : w.lock i with
      | none =>
          refine hrest (ThreadedProxy.strand_leads ?_) (h.setQueue queue) hpoint
          simp only [ThreadedProxy.strandStep, hpoint, hqueue', h.lock_none hlock]
      | some s =>
          obtain ⟨hget, -⟩ := lock_eq_some.mp hlock
          obtain ⟨u, hlock', hget', hshows, hidle⟩ := h.lock hlock
          dsimp only
          cases hqueued : s.queued with
          | false =>
              have hfirst : t.Leads ((t.setQueue queue).goTo (.popped i)) :=
                ThreadedProxy.strand_leads (by
                  simp only [ThreadedProxy.strandStep, hpoint, hqueue', hlock'])
              refine hrest (hfirst.trans (ThreadedProxy.strand_leads ?_))
                ((h.setQueue queue).goTo .looping) rfl
              show ((t.sessions[i]?).bind fun s => some (((t.setQueue queue).goTo _).goTo
                (if s.queued then _ else _))) = _
              rw [hget', Option.bind_some, hshows.queued, hqueued, if_neg Bool.false_ne_true]
              rfl
          | true =>
              have hwaits : u.queued = true := hshows.queued.trans hqueued
              have htaken := ThreadedProxy.willPromote_leads hpoint hqueue' hlock' hget' hwaits
              have hlimiter : ((t.setQueue queue).goTo (.willPromote i)).server.limiter =
                  w.server.limiter := h.server.limiter
              rw [Bool.not_true, if_neg Bool.false_ne_true]
              rcases w.server.limiter.tryPromoteQueued_cases () with
                ⟨-, hpromote⟩ | ⟨hclosed, hwaiting, hslot, hpromote⟩
              · rw [hpromote]
                have hrefused : t.Leads ((t.setQueue queue).goTo (.refused i)) := by
                  refine htaken.trans (ThreadedProxy.strand_leads ?_)
                  show ((t.sessions[i]?).bind fun s => if
                    (((t.setQueue queue).goTo (.willPromote i)).server.limiter.tryPromoteQueued
                      ()).1.valid then _ else some (((t.setQueue queue).goTo (.willPromote i)).goTo
                        (.refused i))) = _
                  rw [hget', Option.bind_some, hlimiter, hpromote]
                  rfl
                have hleft : ((t.setQueue queue).goTo (.refused i)).server.limiter.snapshot =
                    w.server.limiter.snapshot := congrArg InflightLimiter.snapshot hlimiter
                split
                · split
                  · rename_i hnone
                    refine hrest (hrefused.trans (ThreadedProxy.strand_leads ?_))
                      ((h.setQueue queue).goTo .looping) rfl
                    show (if _ then _ else _) = _
                    rw [hleft, if_pos hnone]
                    rfl
                  · rename_i hsome
                    refine ⟨((t.setQueue queue).setQueue (i :: queue)).goTo .free,
                      hrefused.trans (ThreadedProxy.strand_leads ?_), ?_, rfl⟩
                    · show (if _ then _ else _) = _
                      rw [hleft, if_neg hsome]
                      rfl
                    · exact ((h.setQueue queue).setQueue (i :: queue)).goTo .free
                · rename_i hvalid
                  exact absurd rfl hvalid
              · rw [hpromote]
                obtain ⟨idle, -, pending, -⟩ := (hsound.phase i s hget).waiting_of_queued hqueued
                have hstarted := htaken.trans (ThreadedProxy.promoted_leads
                  (t := (t.setQueue queue).goTo (.willPromote i)) rfl hget' hwaits
                  (hshows.finished.trans idle.finished) (by rw [hlimiter]; exact hpromote))
                have hsound' := hpopped.quiet
                  (.promoted i s halive hlock hqueued hclosed hwaiting hslot)
                have hframe := tryStartFromQueue_frame
                  (c := (w.setQueue queue).takePromoted.context i s) (Permit.owning ())
                refine (ih _ _ hsound' (hframe.server.alive.trans halive)
                  (hframe.server.queuedSessions.trans rfl) ?_ rfl).imp fun t' ht' =>
                    ⟨hstarted.trans ht'.1, ht'.2⟩
                have hbefore : Matches (w.setQueue queue).takePromoted
                    ((t.setQueue queue).setLimiter _) :=
                  (h.setQueue queue).setServer ((h.setQueue queue).server.setLimiter _)
                exact (hbefore.promoted halive hget hqueued idle pending hshows hidle).goTo .looping

end World

namespace World

variable {config : ProxyConfig} {server : ProxyServer} {w w' : World} {t : ThreadedProxy}
  {i : Nat} {s : ProxySession} {u : ThreadedSession} {events : List Event} {strand : List Task}

/-- The threads show the world, and no task runs. -/
def Rests (w : World) (t : ThreadedProxy) : Prop := Matches w t ∧ t.point = .free

theorem Rests.accept (h : Rests w t) (haccepting : w.server.accepting = true)
    (hstep : w.accepted = some w') : ∃ t', t.Leads t' ∧ Rests w' t' := by
  obtain ⟨hmatches, hpoint⟩ := h
  have hserver := hmatches.server
  have haccepts : t.server.accepting = true := hserver.accepting.trans haccepting
  refine ⟨{ t with
    server := { t.server with accepting := !t.server.stopping }
    sessions := t.sessions ++ [{}] }, .single (e := .accept) (fun heq => nomatch heq)
      ?_, ?_, hpoint⟩
  · simp only [ThreadedProxy.step, hpoint, haccepts, and_self, ↓reduceIte]
  · unfold accepted at hstep
    split at hstep
    · cases hstep
    · obtain rfl := Option.some.inj hstep
      refine ⟨⟨hserver.1, hserver.2, hserver.3, hserver.4, congrArg not hserver.stopping,
        hserver.6⟩, ?_, fun i s hi => ?_⟩
      · rw [List.length_append, List.length_append, hmatches.length]
        rfl
      · -- who was there before, or who has just arrived
        rcases Population.getElem?_snoc hi with hi | ⟨rfl, rfl⟩
        · have hlt : i < w.sessions.length := (List.getElem?_eq_some_iff.mp hi).1
          rw [List.getElem?_append_left (hmatches.length ▸ hlt)]
          exact hmatches.sessions i s hi
        · rw [← hmatches.length, List.getElem?_concat_length]
          exact ⟨{}, rfl, ⟨rfl, rfl, rfl, rfl, rfl, rfl⟩, rfl⟩

theorem Rests.complete {op : Op} {r : Outcome} (h : Rests w t) (hsound : w.Sound)
    (halive : w.server.alive = true) (hstep : w.complete i op r = some w') :
    ∃ t', t.Leads t' ∧ Rests w' t' := by
  obtain ⟨hmatches, hpoint⟩ := h
  obtain ⟨s, hlock, hmem, hdeliverable, rfl⟩ := complete_eq_some hstep
  obtain ⟨hget, hexists⟩ := lock_eq_some.mp hlock
  obtain ⟨u, -, hget', hshows, hidle⟩ := hmatches.lock hlock
  have hid : ((w.context i (deliver s op r)).handle op r).id = i :=
    (handle_handled op r (w.context i (deliver s op r))).frame.id
  obtain ⟨server, u', hserver, hshows', hidle', hleads⟩ :=
    handle_arrives (c := w.context i (deliver s op r)) op r rfl (hsound.phase i s hget) hmem
      hdeliverable hmatches.server halive hget' hshows hidle hexists
  exact ⟨_, hleads, hmatches.put (hid ▸ hget) hserver hshows' hidle', hpoint⟩

/-- The task of `enqueue_session`. -/
theorem Rests.enqueue (h : Rests w t) (hsound : w.Sound) (halive : w.server.alive = true)
    (hstopping : w.server.stopping = false) (hstrand : w.server.strand = .enqueue i :: strand) :
    ∃ t', t.Leads t' ∧ Rests ((w.setStrand strand).runTask (.enqueue i)) t' := by
  obtain ⟨hmatches, hpoint⟩ := h
  have hserver := hmatches.server
  obtain ⟨s, hlock⟩ := hsound.lock_of_head hstrand
  obtain ⟨hget, -⟩ := lock_eq_some.mp hlock
  obtain ⟨idle, -, pending, -⟩ := hsound.asked_of_head hstrand hlock
  obtain ⟨u, -, hget', hshows, hidle⟩ := hmatches.lock hlock
  -- three steps of the strand: push, store `queued_`, set the timer
  let t₁ := (t.setStrand strand).setQueue (t.server.queuedSessions ++ [i])
  have hpushed : t.Leads (t₁.goTo (.pushed i)) := by
    refine ThreadedProxy.strand_leads ?_
    simp only [ThreadedProxy.strandStep, hpoint, hserver.strand.trans hstrand]
    rw [ThreadedProxy.begin_enqueue (w := t.setStrand strand) (hserver.stopping.trans hstopping)]
    rfl
  have hstored : (t₁.goTo (.pushed i)).Leads ((t₁.put i { u with queued := true }).goTo
      (.stored i)) := by
    refine ThreadedProxy.strand_leads ?_
    show (t.sessions[i]?.bind fun s => _) = _
    rw [hget']
    rfl
  have harmed : ((t₁.put i { u with queued := true }).goTo (.stored i)).Leads
      ((t₁.put i { u with queued := true, queueTimer := some false }).goTo .free) :=
    ThreadedProxy.hold_leads (t := t₁) hget' fun y hy hp => by
      simp [ThreadedProxy.strandStep, hp, hy]
  refine ⟨_, hpushed.trans (hstored.trans harmed), Matches.goTo ?_ .free, rfl⟩
  have htaken : Matches ((w.setStrand strand).setQueue (w.server.queuedSessions ++ [i])) t₁ := by
    rw [← hserver.queuedSessions]
    exact (hmatches.setStrand strand).setQueue _
  show Matches ((w.setStrand strand).enqueued i) _
  have hstopping' : ¬ (w.setStrand strand).server.stopping = true := by
    show ¬ w.server.stopping = true
    rw [hstopping]
    exact Bool.false_ne_true
  rw [enqueued, if_neg hstopping', onSession_of_lock
    (w := (w.setStrand strand).setQueue ((w.setStrand strand).server.queuedSessions ++ [i])) hlock,
    startQueueTimer_eq halive]
  have hpending' : s.pending ++ [Op.queueTimer false] = [.queueTimer false] := by
    rw [pending]
    rfl
  refine Matches.put (c := Context.setSelf _ _) (t := t₁) htaken hget htaken.server
    ⟨rfl, hshows.finished, hshows.permit, hshows.started, ?_, hshows.destroyed⟩ ?_
  · show [false] = (s.pending ++ [Op.queueTimer false]).filterMap Op.queueWait
    rw [hpending']
    rfl
  · show u.point = if (s.pending ++ [Op.queueTimer false]).any Op.isOpening then _ else _
    rw [hpending', hidle, point, opening, pending]
    rfl

/-- The task of `promote_queued_sessions`. -/
theorem Rests.promote (h : Rests w t) (hsound : w.Sound) (halive : w.server.alive = true)
    (hstrand : w.server.strand = .promote :: strand) :
    ∃ t', t.Leads t' ∧ Rests ((w.setStrand strand).runTask .promote) t' := by
  obtain ⟨hmatches, hpoint⟩ := h
  have hbegun : t.Leads ((t.setStrand strand).goTo .looping) := by
    refine ThreadedProxy.strand_leads ?_
    simp only [ThreadedProxy.strandStep, hpoint, hmatches.server.strand.trans hstrand]
    rfl
  have hbooks := setStrand_sameBooks hstrand (by simp)
  obtain ⟨t', hleads, hmatches', hfree⟩ :=
    promoteLoop_leads w.server.queuedSessions (w.setStrand strand) _
      (hsound.quiet (.books _ hbooks)) halive rfl ((hmatches.setStrand strand).goTo .looping) rfl
  exact ⟨t', hbegun.trans hleads, hmatches', hfree⟩

/-- A session goes away that nothing holds any more. -/
theorem Rests.destroySession (h : Rests w t) (hbalancing : w.Balancing)
    (hlock : w.lock i = some s) (hpending : s.pending = [])
    (hposted : .enqueue i ∉ w.server.strand) :
    ∃ t', t.Leads t' ∧ Rests (w.put (w.context i s).destruct) t' := by
  obtain ⟨hmatches, hpoint⟩ := h
  have hserver := hmatches.server
  have hsound := hbalancing.ordered.lined.sound
  obtain ⟨hget, -⟩ := lock_eq_some.mp hlock
  obtain ⟨u, hlock', hget', hshows, hidle⟩ := hmatches.lock hlock
  have hphase := hsound.phase i s hget
  obtain ⟨hpermit, hqueued⟩ := hphase.of_pending_nil hpending
  -- an unfinished session has an operation pending or a task posted for it
  have hfinished : s.finished = true := by
    have hnot {p : Prop} {op : Op} {ops : List Op} (hops : s.pending = op :: ops) : p := by
      rw [hpending] at hops
      cases hops
    have hawaited := hbalancing.books.awaited i s hget
    generalize he : w.server.posted i = e at hphase
    cases hphase with
    | reading _ _ _ pending => exact hnot pending
    | health _ _ _ _ pending => exact hnot pending
    | waiting _ _ _ pending => exact hnot pending
    | running op running =>
        rw [running.permit] at hpermit
        cases hpermit
    | ended hover => exact hover.finished
    | asked idle _ counted =>
        have hopen : s.isOpen = true := isOpen_eq_true.mpr ⟨counted, idle.finished⟩
        exact absurd (List.count_eq_zero.mpr hposted) (hawaited hopen hpending)
  have hreading : u.point = .idle := by
    rw [hidle, point, opening, hpending]
    rfl
  have hunwaited : u.queueTimer = none := by
    have hwaits := hshows.waits
    rw [waits, hpending] at hwaits
    exact Option.toList_eq_nil_iff.mp hwaits
  have hposted' : .enqueue i ∉ t.server.strand := hserver.strand ▸ hposted
  -- the destructor cancels nothing, then it releases a permit that owns nothing
  have hleft : t.Leads (t.put i { u with destroyed := true, point := .releasing }) := by
    refine .single (e := .destroySession i) (fun heq => nomatch heq) ?_
    simp [ThreadedProxy.step, hlock', hreading, hshows.finished, hfinished, hunwaited, hposted',
      hpoint, StrandPoint.inHand, hshows.queued, hqueued]
  have hreleased : (t.put i { u with destroyed := true, point := .releasing }).Leads
      ((t.setServer (t.server.releasePermit u.permit)).put i { u with
        destroyed := true, point := .idle, permit := { u.permit with ownsSlot := false } }) := by
    have halive : t.server.alive = true :=
      hserver.alive.trans hbalancing.ordered.lined.serving.alive
    rw [← ThreadedProxy.put_put (t := t.setServer (t.server.releasePermit u.permit))
      (u := { u with destroyed := true, point := .releasing })]
    exact ThreadedProxy.released_leads (ThreadedProxy.put_get hget') rfl halive
  have howns : u.permit.ownsSlot = false := by
    rw [hshows.permit, permitValid, hpermit]
    rfl
  rw [hsound.destruct_eq hlock hpending]
  refine ⟨_, hleft.trans hreleased, ?_, hpoint⟩
  refine Matches.put (c := (w.context i s).setSelf { s with destroyed := true }) hmatches hget ?_
    ⟨hshows.queued, hshows.finished, ?_, hshows.started, hshows.waits, rfl⟩ ?_
  · rcases ProxyServer.releasePermit_cases u.permit t.server with ⟨heq, -⟩ | ⟨hslot, -, -⟩
    · show SameQueue w.server (t.server.releasePermit u.permit)
      rw [heq]
      exact hserver
    · exact absurd (hslot.symm.trans howns) (by decide)
  · show false = s.permitValid
    rw [permitValid, hpermit]
    rfl
  · show SessionPoint.idle = s.point
    rw [point, opening, hpending]
    rfl

/-- What the event loop does in one step, the threads can do. -/
theorem Rests.step {e : Event} (h : Rests w t) (hbalancing : w.Balancing) (he : e ≠ .stop)
    (hstep : World.step w e = some w') : ∃ t', t.Leads t' ∧ Rests w' t' := by
  have hserving := hbalancing.ordered.lined.serving
  have hsound := hbalancing.ordered.lined.sound
  have hserver := h.1.server
  cases e with
  | stop => exact absurd rfl he
  | accept =>
      simp only [World.step, hserving.accepting, if_true] at hstep
      exact h.accept hserving.accepting hstep
  -- what only the event loop has: a failed accept, and time
  | acceptFailed =>
      simp only [World.step, hserving.accepting, if_true] at hstep
      obtain rfl := Option.some.inj hstep
      refine ⟨t, .refl t, ⟨⟨hserver.1, hserver.2, hserver.3, hserver.4, ?_, hserver.6⟩, h.1.length,
        h.1.sessions⟩, h.2⟩
      rw [hserver.accepting, hserving.accepting]
      show true = !w.server.stopping
      rw [hserving.stopping]
      rfl
  | complete i op r => exact h.complete hsound hserving.alive hstep
  | runTask =>
      simp only [World.step] at hstep
      split at hstep
      · cases hstep
      · rename_i task strand hstrand
        obtain rfl := Option.some.inj hstep
        cases task with
        | enqueue i => exact h.enqueue hsound hserving.alive hserving.stopping hstrand
        | promote => exact h.promote hsound hserving.alive hstrand
        | stop => exact absurd (hstrand ▸ List.mem_cons_self) hserving.strand
  | destroySession i =>
      simp only [World.step, Option.bind_eq_bind, Option.bind_eq_some_iff,
        Option.guard_eq_some'] at hstep
      obtain ⟨s, hlock, -, ⟨hpending, hposted⟩, hput⟩ := hstep
      obtain rfl := Option.some.inj hput
      exact h.destroySession hbalancing hlock hpending hposted
  | destroyServer =>
      simp [World.step, hserving.accepting] at hstep
  | tick n =>
      obtain rfl := Option.some.inj hstep
      exact ⟨t, .refl t, ⟨hserver, h.1.length, h.1.sessions⟩, h.2⟩

/-- Every run of the event loop on one thread, up to a call of `stop`, is a schedule of the threads:
they get to the same limiter, queue and strand, and to sessions that show the same. -/
theorem matched_byThreads (hcreate : ProxyServer.create config = .ok server)
    (hserving : .stop ∉ events) (hrun : run World.step (World.init server) events = some w) :
    ∃ schedule t, .stop ∉ schedule ∧
      run ThreadedProxy.step (ThreadedProxy.init server) schedule = some t ∧ Rests w t := by
  have hsimulates : Simulates World.step (· ≠ .stop) Balancing ThreadedProxy.step (· ≠ .stop)
      Rests := fun _ _ _ _ hbalancing hrests he hstep => hrests.step hbalancing he hstep
  have hinit : Rests (World.init server) (ThreadedProxy.init server) :=
    ⟨⟨⟨rfl, rfl, rfl, rfl, rfl, rfl⟩, rfl, fun _ _ hi => nomatch hi⟩, rfl⟩
  obtain ⟨t, ⟨schedule, hschedule, hthreads⟩, hrests⟩ := hsimulates.run
    (fun _ _ _ h he hstep => h.step he hstep) (.init hcreate) hinit
    (fun e hmem heq => hserving (heq ▸ hmem)) hrun
  exact ⟨schedule, t, fun hmem => hschedule _ hmem rfl, hthreads, hrests⟩

/-- The slot of the first request is handed on to the second, which waits. -/
def slotHandedOn : List Event :=
  [.accept, .complete 0 .readRequest { request := chatRequest },
    .accept, .complete 1 .readRequest { request := chatRequest }, .runTask,
    .complete 0 (.requestTimer false) {}, .runTask]

theorem matched_byThreads_slotHandedOn : ∃ w schedule t,
    run World.step (World.init oneSlotServer) slotHandedOn = some w ∧ .stop ∉ schedule ∧
    run ThreadedProxy.step (ThreadedProxy.init oneSlotServer) schedule = some t ∧ Rests w t := by
  have hsome : (run World.step (World.init oneSlotServer) slotHandedOn).isSome = true := by decide
  obtain ⟨w, hrun⟩ := Option.isSome_iff_exists.mp hsome
  obtain ⟨schedule, t, hmatched⟩ := matched_byThreads oneSlotServer_create (by decide) hrun
  exact ⟨w, schedule, t, hrun, hmatched⟩

end World

end VllmSloProxy
