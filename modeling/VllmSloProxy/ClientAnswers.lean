import VllmSloProxy.OneResponse
import VllmSloProxy.OneThread

/-!
# Every client is answered

A session goes away only after it has begun a response, unless no request could be read from its
client, or it was told to wait and the server stopped before it was in the queue.
-/

namespace VllmSloProxy

open Context Transition Relation

namespace ProxySession

/-- The read of the request has ended with an error, so that nothing was counted or started. -/
structure Unread (s : ProxySession) : Prop where
  failed : ∃ r : Outcome, (.readRequest, r) ∈ s.delivered ∧ r.ec.isSome = true
  counted : s.requestCounted = false
  unstarted : s.requestStart = none

/-- A response was begun, and the client told that no more comes: its socket was closed, or the
response is an error. -/
structure Told (s : ProxySession) : Prop where
  answered : s.clientWrites ≠ []
  ended : .closeClient ∈ s.calls ∨
    ∃ response valid, .start (.writeError response) valid ∈ s.calls

/-- The socket was closed on a client whose request was counted and never got a slot. -/
structure ClosedOn (s : ProxySession) : Prop where
  counted : s.requestCounted = true
  unstarted : s.requestStart = none
  closed : .closeClient ∈ s.calls

/-- Before `finished_` is set the client has been told. -/
structure Served (s : ProxySession) : Prop where
  begun : s.responseStarted = true → s.clientWrites ≠ []
  text : ∀ response, .writeText response ∈ s.pending → s.clientWrites ≠ []
  finished : s.finished = true → s.Told ∨ s.Unread

variable {s s' : ProxySession} {op : Op} {r : Outcome} {more : List Call}

theorem answered_extend (hcalls : s'.calls = s.calls ++ more) (h : s.clientWrites ≠ []) :
    s'.clientWrites ≠ [] := by
  rw [clientWrites, hcalls, List.filterMap_append]
  exact List.append_ne_nil_of_left_ne_nil h _

theorem Told.extend (h : s.Told) (hcalls : s'.calls = s.calls ++ more) : s'.Told := by
  refine ⟨answered_extend hcalls h.answered, ?_⟩
  rw [hcalls]
  refine h.ended.imp (List.mem_append_left _) ?_
  exact fun ⟨response, valid, hmem⟩ => ⟨response, valid, List.mem_append_left _ hmem⟩

theorem Served.of_told (h : s.Told) : s.Served :=
  ⟨fun _ => h.answered, fun _ _ => h.answered, fun _ => .inl h⟩

/-- The client stays told. -/
theorem Served.told (h : s.Served) (hcalls : s'.calls = s.calls ++ more)
    (hfinished : s'.finished = s.finished) (hcounted : s'.requestCounted = s.requestCounted)
    (hstart : s.finished = true → s'.requestStart = s.requestStart)
    (hdelivered : s'.delivered = s.delivered) : s'.finished = true → s'.Told ∨ s'.Unread := by
  rw [hfinished]
  intro heq
  refine (h.finished heq).imp (fun htold => htold.extend hcalls) fun hunread => ?_
  exact ⟨hdelivered ▸ hunread.failed, hcounted.trans hunread.counted,
    (hstart heq).trans hunread.unstarted⟩

/-- Nothing new is promised about the response. -/
theorem Served.extend (h : s.Served) (hcalls : s'.calls = s.calls ++ more)
    (hstarted : s'.responseStarted = s.responseStarted)
    (hpending : ∀ response, .writeText response ∈ s'.pending → .writeText response ∈ s.pending)
    (hfinished : s'.finished = s.finished) (hcounted : s'.requestCounted = s.requestCounted)
    (hstart : s.finished = true → s'.requestStart = s.requestStart)
    (hdelivered : s'.delivered = s.delivered) : s'.Served := by
  refine ⟨fun heq => ?_, fun response hmem => ?_,
    h.told hcalls hfinished hcounted hstart hdelivered⟩
  · exact answered_extend hcalls (h.begun (hstarted.symm.trans heq))
  · exact answered_extend hcalls (h.text response (hpending response hmem))

theorem Served.deliver (h : s.Served) (op : Op) (r : Outcome) : (World.deliver s op r).Served := by
  have hcalls : (World.deliver s op r).calls = s.calls ++ [] := by
    rw [World.deliver_calls, List.append_nil]
  refine ⟨?_, fun response hmem => ?_, fun hfinished => ?_⟩
  · rw [World.deliver_responseStarted]
    exact fun heq => answered_extend hcalls (h.begun heq)
  · rw [World.deliver_pending] at hmem
    exact answered_extend hcalls (h.text response (List.mem_of_mem_erase hmem))
  · rw [World.deliver_finished] at hfinished
    refine (h.finished hfinished).imp (fun htold => htold.extend hcalls) fun hunread => ?_
    obtain ⟨⟨r', hmem, hec⟩, hcounted, hunstarted⟩ := hunread
    refine ⟨⟨r', ?_, hec⟩, (World.deliver_requestCounted s op r).trans hcounted,
      (World.deliver_requestStart s op r).trans hunstarted⟩
    rw [World.deliver_delivered]
    exact List.mem_append_left _ hmem

end ProxySession

open ProxySession

namespace Context

variable {c c' c₁ : Context} {op next : Op} {r : Outcome} {ending : Ending}

theorem start_written (s : ProxySession) {op : Op} (hop : op.writesClient = true) :
    (s.start op).clientWrites ≠ [] := by
  rw [clientWrites_start, if_pos hop]
  exact List.append_ne_nil_of_right_ne_nil _ (List.cons_ne_nil _ _)

/-- A session that ends has begun its response, or begins it with the error. -/
theorem Ends.served (h : Ends ending c c') (hserved : c.self.Served)
    (hcompleted : ending = .completed → c.self.finished = false → c.self.responseStarted = true) :
    c'.self.Served := by
  cases h with
  | already => exact hserved
  | quietly hfinished hstarted =>
      have hbegun : c.self.clientWrites ≠ [] := by
        refine hserved.begun ?_
        cases ending with
        | completed => exact hcompleted rfl hfinished
        | failed => exact hstarted rfl
      have hcalls : (c.settle ending).closeClient.self.calls =
          c.self.calls ++ (c.endingCalls ending ++ [.closeClient]) := by
        rw [closeClient, settle_eq]
        exact List.append_assoc ..
      refine .of_told ⟨answered_extend hcalls hbegun, .inl ?_⟩
      rw [hcalls]
      exact List.mem_append_right _ (List.mem_append_right _ (List.mem_singleton_self _))
  | withError response =>
      exact .of_told ⟨start_written _ rfl, .inr ⟨response, _,
        List.mem_append_right _ (List.mem_singleton_self _)⟩⟩

/-- A request that was read gets its answer, a slot, or a place in the queue. -/
theorem Answered.served (h : Answered c c') (hidle : c.self.Idle)
    (hpending : ∀ response, .writeText response ∉ c.self.pending) : c'.self.Served := by
  have hsilent {s : ProxySession} (hstarted : s.responseStarted = false)
      (hfinished : s.finished = false) (hnone : ∀ response, .writeText response ∉ s.pending) :
      s.Served :=
    ⟨fun heq => absurd (hstarted.symm.trans heq) Bool.false_ne_true,
      fun response hmem => absurd hmem (hnone response),
      fun heq => absurd (hfinished.symm.trans heq) Bool.false_ne_true⟩
  have hbefore : c.self.Served := hsilent hidle.responseStarted hidle.finished hpending
  cases h with
  | dismissed _ hends => exact hends.served hbefore (by simp)
  | health response =>
      have hwritten : (c.self.start (.writeText response)).clientWrites ≠ [] := start_written _ rfl
      exact ⟨fun _ => hwritten, fun _ _ => hwritten, fun heq =>
        absurd (hidle.finished.symm.trans heq) Bool.false_ne_true⟩
  | admitted halive =>
      rw [startProxyRequest_eq (c := c.counted.setLimiter _) _ halive hidle.permit]
      refine hsilent hidle.responseStarted hidle.finished fun response hmem => ?_
      have hmem : .writeText response ∈ c.self.pending := by simpa [counted] using hmem
      exact hpending response hmem
  | queued => exact hsilent hidle.responseStarted hidle.finished hpending
  | turnedAway _ _ _ _ hends =>
      exact hends.served (hsilent hidle.responseStarted hidle.finished hpending) (by simp)

theorem Prepares.served (h : Prepares c c₁) (hserved : c.self.Served)
    (hstarted : c₁.self.responseStarted = c.self.responseStarted) : c₁.self.Served := by
  obtain ⟨calls, -, hcalls⟩ := h.calls
  exact hserved.extend hcalls hstarted (fun _ hmem => h.pending ▸ hmem) h.finished h.counted
    (fun _ => h.requestStart) h.delivered

theorem Relay.served (h : Relay op r c c₁ next) (hserved : c.self.Served) :
    (c₁.start next).self.Served := by
  have hprep := h.prepares
  have hnext : next.isRelay = true := h.isRelay.2
  by_cases hwrites : next.writesClient = true
  · obtain ⟨calls, -, hcalls⟩ := hprep.calls
    have hwritten := start_written c₁.self hwrites
    refine ⟨fun _ => hwritten, fun _ _ => hwritten, ?_⟩
    have hmore : (c₁.self.start next).calls =
        c.self.calls ++ (calls ++ [.start next c₁.self.permitValid]) := by
      rw [start_calls, hcalls, List.append_assoc]
    exact hserved.told hmore hprep.finished hprep.counted (fun _ => hprep.requestStart)
      hprep.delivered
  · -- only the operation that begins the response sets `response_started_`
    have hstarted : c₁.self.responseStarted = c.self.responseStarted := by
      cases h <;> first | rfl | exact absurd rfl hwrites
    refine (hprep.served hserved hstarted).extend (start_calls ..) rfl (fun response hmem => ?_) rfl
      rfl (fun _ => rfl) rfl
    rcases List.mem_append.mp hmem with hmem | hmem
    · exact hmem
    · rw [← List.mem_singleton.mp hmem] at hnext
      cases hnext

theorem Handled.served {s : ProxySession} {n : Nat} (h : Handled op r c c')
    (hphase : s.Phase n) (hself : c.self = World.deliver s op r) (hmem : op ∈ s.pending)
    (hop : op ≠ .readRequest) (hserved : s.Served) : c'.self.Served := by
  have hbefore : c.self.Served := hself ▸ hserved.deliver op r
  cases h with
  | timer => exact hbefore
  | timedOut _ _ _ _ _ hends =>
      refine hends.served ?_ nofun
      rw [timeOut_self]
      exact hbefore.extend (List.append_nil _).symm rfl (fun _ hmem => hmem) rfl rfl (fun _ => rfl)
        rfl
  | expired _ _ _ _ hends => exact hends.served hbefore nofun
  | read _ hread => exact absurd hread hop
  | wroteText response hop' =>
      have hwrites : c.self.clientWrites ≠ [] := by
        rw [hself, clientWrites, World.deliver_calls]
        exact hserved.text response (hop' ▸ hmem)
      refine .of_told ⟨answered_extend (s := c.self) rfl hwrites, .inl ?_⟩
      exact List.mem_append_right _ (List.mem_singleton_self _)
  | wroteError => exact hbefore.extend rfl rfl (fun _ hmem => hmem) rfl rfl (fun _ => rfl) rfl
  | ended _ _ _ hrelay hcompleted hobserves hends =>
      have hprep := hobserves.prepares
      refine hends.served (hprep.served hbefore hobserves.responseStarted) fun hending _ => ?_
      rw [hobserves.responseStarted, hself, World.deliver_responseStarted,
        ← hphase.afterHeader_of_relay hmem hrelay]
      exact hcompleted hending
  | relayed _ _ hrelay => exact hrelay.served hbefore

/-- A session that is not over waits for something. -/
theorem Handled.pends {s : ProxySession} {n : Nat} (h : Handled op r c c') (hphase : s.Phase n)
    (hself : c.self = World.deliver s op r) (hmem : op ∈ s.pending)
    (hdeliverable : World.deliverable s op r = true) (hfinished : c'.self.finished = false)
    (hpending : c'.self.pending = []) : c'.server.posted c.id ≠ 0 := by
  have hover {q : Prop} (hover : c'.self.finished = true) : q :=
    absurd (hfinished.symm.trans hover) Bool.false_ne_true
  have hstarted {s : ProxySession} {next : Op} {q : Prop}
      (hnil : (s.start next).pending = []) : q :=
    absurd hnil (List.append_ne_nil_of_right_ne_nil _ (List.cons_ne_nil _ _))
  cases h with
  | timer htimer _ hqueue =>
      have hleft : s.pending.erase op = [] := by
        rw [← World.deliver_pending s op r, ← hself]
        exact hpending
      have hnot {op' : Op} {q : Prop} (heq : s.pending = [op'])
          (hnone : op'.isTimer = false) : q := by
        rw [heq, List.mem_singleton] at hmem
        rw [hmem, hnone] at htimer
        cases htimer
      cases hphase with
      | reading _ _ _ pending => exact hnot pending rfl
      | health _ _ _ _ pending => exact hnot pending rfl
      | asked _ _ _ pending => rw [pending] at hmem; cases hmem
      | waiting _ queued _ pending =>
          rw [pending, List.mem_singleton] at hmem
          subst hmem
          rcases hqueue false rfl with hec | hnone
          · simp [World.deliverable, Option.isNone_iff_eq_none] at hdeliverable
            rw [hdeliverable] at hec
            cases hec
          · rw [hself, World.deliver_queued, queued] at hnone
            cases hnone
      | running op' running =>
          -- the operation that continues the request is still pending
          have hop' : op' ∈ s.control := by
            rw [running.control]
            exact List.mem_singleton_self _
          have hne : op' ≠ op := fun heq => by
            rw [← heq, Op.isTimer_of_isRelay running.isRelay] at htimer
            cases htimer
          have hmem' := (List.mem_erase_of_ne hne).mpr (List.mem_filter.mp hop').1
          rw [hleft] at hmem'
          cases hmem'
      | ended hended =>
          refine hover ?_
          rw [hself, World.deliver_finished, hended.finished]
  | timedOut _ _ _ _ _ hends => exact hover hends.finished
  | expired _ _ _ _ hends => exact hover hends.finished
  | read _ hread hrequested =>
      cases hrequested with
      | unread => cases hfinished
      | refused _ hends => exact hover hends.finished
      | health => exact hstarted hpending
      | admitted halive =>
          have hpermit : c.self.permit = none := by
            rw [hself, World.deliver_permit]
            exact (hphase.of_opening hmem (by rw [hread]; rfl)).1.permit
          rw [startProxyRequest_eq (c := (c.setSelf _).counted.setLimiter _) _ halive hpermit]
            at hpending
          exact hstarted hpending
      | queued =>
          show (List.count (Task.enqueue c.id) (c.server.strand ++ [.enqueue c.id])) ≠ 0
          rw [List.count_append, List.count_cons_self]
          exact Nat.succ_ne_zero _
      | turnedAway _ _ hends => exact hover hends.finished
  | wroteText => cases hfinished
  | wroteError _ hop =>
      have hgone := hphase.finished_of_error hmem (by rw [hop]; rfl)
      refine hover ?_
      show c.self.finished = true
      rw [hself, World.deliver_finished, hgone]
  | ended _ _ _ _ _ _ hends => exact hover hends.finished
  | relayed => exact hstarted hpending

end Context

namespace World

variable {config : ProxyConfig} {server : ProxyServer} {w w' : World} {e : Event} {i : Nat}
  {s : ProxySession} {p q : Prop}

theorem served_keptQuietly : KeptQuietly fun _ s => s.Served where
  created _ sseParser _ :=
    ⟨fun heq => (nomatch heq), fun response hmem => by simp at hmem, fun heq => (nomatch heq)⟩
  closed _ s h := h.extend rfl rfl (fun _ hmem => hmem) rfl rfl (fun _ => rfl) rfl
  enqueued _ s _ _ h :=
    h.extend rfl rfl (fun response hmem => by simpa using hmem) rfl rfl (fun _ => rfl) rfl
  promoted _ s host service clock idle hpending h := by
    refine h.extend (List.append_assoc ..) rfl (fun response hmem => ?_) rfl rfl
      (fun heq => absurd (idle.finished.symm.trans heq) Bool.false_ne_true) rfl
    rw [startedFromQueue, start_pending, start_pending, hpending] at hmem
    simp [Op.cancelQueueTimer] at hmem
  destroyed _ s h :=
    h.extend (List.append_nil _).symm rfl (fun _ hmem => hmem) rfl rfl (fun _ => rfl) rfl

theorem served_complete {op : Op} {r : Outcome} (hphase : s.Phase (w.server.posted i))
    (hmem : op ∈ s.pending) (hserved : s.Served) :
    ((w.context i (deliver s op r)).handle op r).self.Served := by
  by_cases hop : op = .readRequest
  · subst hop
    obtain ⟨idle, hrest⟩ := hphase.of_opening hmem rfl
    have hidle := idle.deliver .readRequest r
    have hnil : (deliver s .readRequest r).pending = [] := by
      rw [deliver_pending, hrest.2, List.erase_cons_head]
    have hnone (response : HttpResponse) :
        .writeText response ∉ (deliver s .readRequest r).pending := by
      rw [hnil]
      exact List.not_mem_nil
    show ((w.context i (deliver s .readRequest r)).onReadRequest r.ec r.request).self.Served
    unfold onReadRequest
    split
    · rename_i hec
      refine ⟨fun heq => ?_, fun response hmem' => absurd hmem' (hnone response),
        fun _ => .inr ⟨⟨r, ?_, hec⟩, ?_, hidle.requestStart⟩⟩
      · exact absurd (hidle.responseStarted.symm.trans heq) Bool.false_ne_true
      · show (Op.readRequest, r) ∈ (deliver s .readRequest r).delivered
        rw [deliver_delivered]
        exact List.mem_append_right _ (List.mem_singleton_self _)
      · exact (deliver_requestCounted s .readRequest r).trans hrest.1
    · exact (handleRequest_answered _).served ⟨hidle.1, hidle.2, hidle.3, hidle.4⟩ hnone
  · exact (handle_handled op r _).served hphase rfl hmem hop hserved

/-- Nothing can happen to the session any more. -/
def leftAlone (w : World) (i : Nat) (s : ProxySession) : Prop :=
  s.destroyed = true ∨ s.pending = [] ∧ w.server.posted i = 0

/-- A session that waits for nothing has `finished_` set, or a task on the strand is to put it in
the queue, or such a task was dropped while `q` held. -/
structure Owed (q : Prop) (w : World) : Prop where
  sound : w.Sound
  served : ∀ (i : Nat) (s : ProxySession), w.sessions[i]? = some s → s.Served
  left : ∀ (i : Nat) (s : ProxySession), w.sessions[i]? = some s → s.finished = false →
    w.leftAlone i s → q ∧ s.ClosedOn

/-- One session has gone on, and no task of another one has been taken off the strand. -/
theorem Owed.left_put {c : Context} (h : Owed q w) (hget : w.sessions[c.id]? = some s)
    (hposted : ∀ j, j ≠ c.id → c.server.posted j = w.server.posted j)
    (hself : c.self.finished = false → (w.put c).leftAlone c.id c.self →
      q ∧ c.self.ClosedOn) :
    ∀ (i : Nat) (s : ProxySession), (w.put c).sessions[i]? = some s → s.finished = false →
      (w.put c).leftAlone i s → q ∧ s.ClosedOn := by
  intro i s' hs' hfinished hleft
  rw [put_getElem? hget] at hs'
  split at hs'
  · rename_i hid
    obtain rfl := Option.some.inj hs'
    subst hid
    exact hself hfinished hleft
  · rename_i hid
    refine h.left i s' hs' hfinished (hleft.imp_right fun ⟨hpending, hnone⟩ => ⟨hpending, ?_⟩)
    exact (hposted i (Ne.symm hid)).symm.trans hnone

theorem leftAlone.pending (h : w.leftAlone i s) (hdestroyed : s.destroyed = false) :
    s.pending = [] ∧ w.server.posted i = 0 :=
  h.resolve_left fun hgone => absurd (hdestroyed.symm.trans hgone) Bool.false_ne_true

/-- A session that has begun an operation is not left alone. -/
theorem leftAlone.not_start {op : Op} (h : w.leftAlone i (s.start op))
    (hdestroyed : s.destroyed = false) : p :=
  absurd (h.pending hdestroyed).1 (List.append_ne_nil_of_right_ne_nil _ (List.cons_ne_nil _ _))

theorem posted_of_head {strand : List Task} {j : Nat}
    (hstrand : w.server.strand = .enqueue i :: strand) (hj : j ≠ i) :
    strand.count (.enqueue j) = w.server.posted j := by
  rw [ProxyServer.posted, hstrand, List.count_cons_of_ne fun heq => hj (Task.enqueue.inj heq).symm]

theorem Owed.quiet (h : Owed q w) (hq : Quiet w w') : Owed q w' := by
  refine ⟨h.sound.quiet hq, served_keptQuietly.quiet h.sound hq h.served, ?_⟩
  cases hq with
  | books _ hsame =>
      intro i s hget hfinished hleft
      refine h.left i s (hsame.sessions ▸ hget) hfinished
        (hleft.imp_right fun ⟨hpending, hnone⟩ => ?_)
      exact ⟨hpending, (hsame.posted i).symm.trans hnone⟩
  | arrived sseParser accepting =>
      intro i s hget hfinished hleft
      rcases Population.getElem?_snoc hget with hget | ⟨-, rfl⟩
      · exact h.left i s hget hfinished hleft
      · exact hleft.not_start rfl
  | closed i s hlock =>
      obtain ⟨hget, -⟩ := lock_eq_some.mp hlock
      refine h.left_put (c := (w.context i s).closeClient) hget (fun _ _ => rfl)
        fun hfinished hleft => ?_
      obtain ⟨hq, hcounted, hunstarted, hmem⟩ := h.left i s hget hfinished hleft
      exact ⟨hq, hcounted, hunstarted, List.mem_append_left _ hmem⟩
  | enqueued i s strand hstrand hlock =>
      obtain ⟨hget, hdestroyed⟩ := lock_eq_some.mp hlock
      have halive : w.server.alive = true :=
        h.sound.alive_of_strand (hstrand ▸ List.cons_ne_nil _ _)
      rw [startQueueTimer_eq halive]
      exact h.left_put (c := (((w.takeEnqueue i strand).context i s).setSelf _)) hget
        (fun _ hj => posted_of_head hstrand hj) fun _ hleft => hleft.not_start hdestroyed
  | promoted i s halive hlock hqueued _ _ _ =>
      obtain ⟨hget, hdestroyed⟩ := lock_eq_some.mp hlock
      obtain ⟨idle, -, -, -⟩ := (h.sound.phase i s hget).waiting_of_queued hqueued
      rw [tryStartFromQueue_of_queued _ hqueued idle.finished,
        startProxyRequest_eq (c := (w.takePromoted.context i s).dequeued) _ halive idle.permit]
      exact h.left_put (c := (w.takePromoted.context i s).dequeued.setSelf _) hget (fun _ _ => rfl)
        fun _ hleft => hleft.not_start hdestroyed
  | destructed i s hlock hpending hposted =>
      obtain ⟨hget, -⟩ := lock_eq_some.mp hlock
      rw [h.sound.destruct_eq hlock hpending]
      exact h.left_put (c := (w.context i s).setSelf { s with destroyed := true }) hget
        (fun _ _ => rfl) fun hfinished _ => by
          obtain ⟨hq, hcounted, hunstarted, hmem⟩ :=
            h.left i s hget hfinished (.inr ⟨hpending, hposted⟩)
          exact ⟨hq, hcounted, hunstarted, hmem⟩

theorem Owed.step (h : Owed q w) (hstops : w.server.stopping = true → q)
    (hstep : World.step w e = some w') : Owed q w' := by
  rcases step_cases h.sound hstep with
    ⟨i, op, r, s, -, hlock, hmem, hdeliverable, rfl⟩ |
      ⟨i, s, strand, -, hstrand, hstopping, hlock, rfl⟩ | hquiet
  · obtain ⟨hget, hdestroyed⟩ := lock_eq_some.mp hlock
    have hphase := h.sound.phase i s hget
    have hhandled := handle_handled op r (w.context i (deliver s op r))
    have hid : ((w.context i (deliver s op r)).handle op r).id = i := hhandled.frame.id
    have hget' : w.sessions[((w.context i (deliver s op r)).handle op r).id]? = some s := by
      rw [hid]
      exact hget
    refine ⟨h.sound.complete hlock hmem hdeliverable, forall_put h.served hget'
      (served_complete hphase hmem (h.served i s hget)), h.left_put hget' (fun j hj => ?_)
        fun hfinished hleft => ?_⟩
    · rw [hid] at hj
      refine hhandled.posted_other (fun hop => ?_) h.sound.onRelease hj
      show (deliver s op r).permit = none
      rw [deliver_permit]
      exact (hphase.of_opening hmem (by rw [hop]; rfl)).1.permit
    · obtain ⟨hpending, hnone⟩ := hleft.pending (by
        rw [hhandled.frame.destroyed]
        exact (deliver_destroyed s op r).trans hdestroyed)
      rw [hid] at hnone
      exact absurd hnone (hhandled.pends hphase rfl hmem hdeliverable hfinished hpending)
  · obtain ⟨hget, -⟩ := lock_eq_some.mp hlock
    have hsound : (w.setStrand strand).Sound := h.sound.popEnqueue hstrand _ rfl rfl rfl
    obtain ⟨idle, -, counted, -⟩ := (h.sound.phase i s hget).asked_of_posted (by
      rw [ProxyServer.posted_head hstrand]
      exact Nat.succ_ne_zero _)
    refine ⟨hsound.quiet (.closed i s hlock), ?_, h.left_put
      (c := ((w.setStrand strand).context i s).closeClient) hget
      (fun _ hj => posted_of_head hstrand hj)
      fun _ _ => ⟨hstops hstopping, counted, idle.requestStart,
        List.mem_append_right _ (List.mem_singleton_self _)⟩⟩
    exact forall_put (c := ((w.setStrand strand).context i s).closeClient) h.served hget
      (served_keptQuietly.closed i s (h.served i s hget))
  · clear hstep
    induction hquiet with
    | refl => exact h
    | tail _ hq ih => exact ih.quiet hq

theorem Owed.init (hcreate : ProxyServer.create config = .ok server) :
    Owed q (World.init server) :=
  ⟨Sound.init hcreate, fun _ _ hget => (nomatch hget), fun _ _ hget => (nomatch hget)⟩

theorem served_of_run {events : List Event} (hcreate : ProxyServer.create config = .ok server)
    (hrun : run step (World.init server) events = some w) (hs : w.sessions[i]? = some s) :
    s.Served := by
  have howed : Owed True w :=
    run_induct hrun (Owed.init hcreate) fun _ _ _ h hstep => h.step (fun _ => trivial) hstep
  exact howed.served i s hs

end World

end VllmSloProxy
