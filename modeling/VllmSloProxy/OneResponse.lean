import VllmSloProxy.WorldSteps

/-!
# One response per request

The writes that a session begins on its client socket are one response: a text, an error, or the SSE
header followed by body chunks; and one write ends before the next begins.  The header of the
upstream is answered without a look at `finished_`, so a run keeps this exactly when no 200 header
reaches a session that is finished.
-/

namespace VllmSloProxy

open Context Transition Relation

namespace ProxySession

def beginsWrite : Call → Option Op
  | .start op _ => if op.writesClient then some op else none
  | _ => none

/-- The writes begun on the client socket, in order. -/
def clientWrites (s : ProxySession) : List Op := s.calls.filterMap beginsWrite

/-- Nothing, one whole response, or an SSE header and then only chunks of the body. -/
def isOneResponse : List Op → Bool
  | [] => true
  | .writeText _ :: rest => rest.isEmpty
  | .writeError _ :: rest => rest.isEmpty
  | .writeSseHeader _ :: rest => rest.all Op.isBody
  | _ => false

/-- One response is begun, and at most one write is outstanding. -/
def answersOnce (s : ProxySession) : Bool :=
  isOneResponse s.clientWrites && s.pending.countP Op.writesClient ≤ 1

/-- A call that begins no write on the client socket. -/
def silent (call : Call) : Bool := (beginsWrite call).isNone

theorem filterMap_of_silent {calls : List Call} (h : ∀ call ∈ calls, silent call = true) :
    calls.filterMap beginsWrite = [] := by
  refine List.filterMap_eq_nil_iff.mpr fun call hmem => ?_
  exact Option.isNone_iff_eq_none.mp (h call hmem)

theorem clientWrites_of_silent {s s' : ProxySession} (more : List Call)
    (hcalls : s'.calls = s.calls ++ more) (hmore : ∀ call ∈ more, silent call = true) :
    s'.clientWrites = s.clientWrites := by
  unfold clientWrites
  rw [hcalls, List.filterMap_append, filterMap_of_silent hmore, List.append_nil]

theorem clientWrites_start (s : ProxySession) (op : Op) :
    (s.start op).clientWrites = s.clientWrites ++ if op.writesClient then [op] else [] := by
  unfold clientWrites
  rw [start_calls, List.filterMap_append]
  cases h : op.writesClient <;> simp [beginsWrite, h]

/-- How far the response of a session has come. -/
structure Answers (s : ProxySession) : Prop where
  streaming : s.responseStarted = true →
    (∃ header bodies, s.clientWrites = .writeSseHeader header :: bodies ∧
      ∀ op ∈ bodies, op.isBody = true) ∧ s.control.countP Op.isError = 0
  unanswered : s.responseStarted = false → s.finished = false →
    s.clientWrites = [] ∨ ∃ response, s.pending = [.writeText response] ∧
      s.clientWrites = [.writeText response]
  answered : s.responseStarted = false → s.finished = true →
    (∃ response, s.clientWrites = [.writeError response]) ∨
      s.control.countP Op.isRelay = 0 ∧
        (s.clientWrites = [] ∨ ∃ response, s.clientWrites = [.writeText response])

theorem Answers.isOneResponse {s : ProxySession} (h : s.Answers) :
    isOneResponse s.clientWrites = true := by
  cases hstarted : s.responseStarted with
  | true =>
      obtain ⟨⟨header, bodies, hwrites, hbodies⟩, -⟩ := h.streaming hstarted
      rw [hwrites, ProxySession.isOneResponse]
      exact List.all_eq_true.mpr hbodies
  | false =>
      cases hfinished : s.finished with
      | true =>
          rcases h.answered hstarted hfinished with ⟨_, hw⟩ | ⟨-, hw | ⟨_, hw⟩⟩ <;> rw [hw] <;> rfl
      | false =>
          rcases h.unanswered hstarted hfinished with hw | ⟨_, -, hw⟩ <;> rw [hw] <;> rfl

/-- The write operations that are pending are no timers. -/
theorem countP_writesClient (s : ProxySession) :
    s.pending.countP Op.writesClient = s.control.countP Op.writesClient := by
  unfold control
  rw [List.countP_filter]
  refine List.countP_congr fun op _ => ?_
  cases op <;> simp [Op.writesClient, Op.isTimer]

theorem writesClient_of_relay {op : Op} (hrelay : op.isRelay = true)
    (hwrites : op.writesClient = true) : op.afterHeader = true := by
  cases op <;> simp_all [Op.isRelay, Op.usesUpstream, Op.writesClient, Op.afterHeader]

/-- In every phase at most one write is outstanding. -/
theorem Answers.outstanding {s : ProxySession} {e : Nat} (h : s.Answers) (hphase : s.Phase e) :
    s.pending.countP Op.writesClient ≤ 1 := by
  cases hphase with
  | reading _ _ _ pending => rw [pending]; decide
  | health response _ _ _ pending => rw [pending]; exact Nat.le_refl 1
  | asked _ _ _ pending => rw [pending]; decide
  | waiting _ _ _ pending => rw [pending]; decide
  | running op running =>
      rw [countP_writesClient, running.control]
      exact List.countP_le_length
  | ended hover =>
      rw [countP_writesClient]
      cases hstarted : s.responseStarted with
      | true =>
          -- no error is being written, so the writes belong to the relay
          refine Nat.le_trans (List.countP_mono_left fun op hmem _ => ?_) hover.relays
          rcases hover.control op hmem with ⟨hrelay, -⟩ | herror
          · exact hrelay
          · exact absurd herror (List.countP_eq_zero.mp (h.streaming hstarted).2 op hmem)
      | false =>
          -- the relay has not come to its first write, so the writes are errors
          refine Nat.le_trans (List.countP_mono_left fun op hmem hwrites => ?_) hover.errors
          rcases hover.control op hmem with ⟨hrelay, hafter⟩ | herror
          · rw [writesClient_of_relay hrelay hwrites, hstarted] at hafter
            cases hafter
          · exact herror

theorem Answers.answersOnce {s : ProxySession} {e : Nat} (h : s.Answers) (hphase : s.Phase e) :
    s.answersOnce = true := by
  rw [ProxySession.answersOnce, h.isOneResponse, Bool.true_and]
  exact decide_eq_true (h.outstanding hphase)

end ProxySession

open ProxySession

namespace Context

variable {c c' c₁ : Context} {op next : Op} {r : Outcome} {ending : Ending}

theorem endingCalls_silent (ending : Ending) :
    ∀ call ∈ c.endingCalls ending, silent call = true := by
  unfold endingCalls
  intro call hmem
  rcases List.mem_cons.mp hmem with rfl | hmem
  · rfl
  · split at hmem
    · rw [List.mem_singleton.mp hmem]
      cases ending <;> rfl
    · cases hmem

theorem settle_clientWrites (ending : Ending) :
    (c.settle ending).self.clientWrites = c.self.clientWrites :=
  clientWrites_of_silent (c.endingCalls ending) (by rw [settle_eq]) (endingCalls_silent ending)

/-- A session that ends had begun to stream, or had answered nothing. -/
theorem Ends.answers (h : Ends ending c c') (ha : c.self.Answers)
    (hcompleted : ending = .completed → c.self.responseStarted = true)
    (hnone : c.self.responseStarted = false → c.self.finished = false →
      c.self.clientWrites = []) : c'.self.Answers := by
  cases h with
  | already => exact ha
  | quietly hfinished hstarted =>
      have hstarted' : c.self.responseStarted = true := by
        cases ending with
        | completed => exact hcompleted rfl
        | failed => exact hstarted rfl
      have hself : (c.settle ending).closeClient.self.responseStarted = true :=
        (settle_responseStarted ending).trans hstarted'
      have hwrites : (c.settle ending).closeClient.self.clientWrites = c.self.clientWrites :=
        (clientWrites_of_silent [.closeClient] rfl (by simp [silent, beginsWrite])).trans
          (settle_clientWrites ending)
      have hcontrol : (c.settle ending).closeClient.self.control = c.self.control :=
        settle_control ending
      refine ⟨fun _ => ?_, fun h' => ?_, fun h' => ?_⟩
      · rw [hwrites, hcontrol]
        exact ha.streaming hstarted'
      · rw [hself] at h'; cases h'
      · rw [hself] at h'; cases h'
  | withError response hending hfinished hstarted =>
      have hself : ((c.settle ending).start (.writeError response)).self.responseStarted = false :=
        (settle_responseStarted ending).trans hstarted
      refine ⟨fun h' => ?_, fun _ h' => ?_, fun _ _ => .inl ⟨response, ?_⟩⟩
      · rw [hself] at h'; cases h'
      · simp [settle_eq] at h'
      · show ((c.settle ending).self.start (.writeError response)).clientWrites = _
        rw [clientWrites_start, settle_clientWrites, hnone hstarted hfinished]
        rfl

end Context

namespace ProxySession

variable {s : ProxySession} {op : Op}

/-- Only a session that writes a text has begun to answer without a response under way. -/
theorem Answers.none_of_mem (h : s.Answers) (hmem : op ∈ s.pending)
    (htext : ∀ response, op ≠ .writeText response) (hstarted : s.responseStarted = false)
    (hfinished : s.finished = false) : s.clientWrites = [] := by
  -- a pending text is the only operation of its session
  rcases h.unanswered hstarted hfinished with hw | ⟨response, hpending, -⟩
  · exact hw
  · rw [hpending, List.mem_singleton] at hmem
    exact absurd hmem (htext response)

theorem Answers.unwritten (h : s.Answers) (idle : s.Idle)
    (hpending : ∀ response, s.pending ≠ [.writeText response]) : s.clientWrites = [] := by
  rcases h.unanswered idle.responseStarted idle.finished with hw | ⟨response, hp, -⟩
  · exact hw
  · exact absurd hp (hpending response)

/-- A session that has begun no answer and is not over has written nothing. -/
theorem Answers.of_unwritten (hstarted : s.responseStarted = false) (hfinished : s.finished = false)
    (hwrites : s.clientWrites = []) : s.Answers := by
  refine ⟨fun h' => ?_, fun _ _ => .inl hwrites, fun _ h' => ?_⟩
  · exact absurd (hstarted.symm.trans h') Bool.false_ne_true
  · exact absurd (hfinished.symm.trans h') Bool.false_ne_true

theorem Answers.deliver (h : s.Answers) (r : Outcome) (hmem : op ∈ s.pending)
    (htext : ∀ response, op ≠ .writeText response) : (World.deliver s op r).Answers := by
  have hwrites : (World.deliver s op r).clientWrites = s.clientWrites := by
    unfold clientWrites
    rw [World.deliver_calls]
  have hsub : (World.deliver s op r).control.Sublist s.control :=
    World.deliver_control_sublist s op r
  refine ⟨fun hstarted => ?_, fun hstarted hfinished => ?_, fun hstarted hfinished => ?_⟩ <;>
    rw [World.deliver_responseStarted] at hstarted <;> rw [hwrites]
  · obtain ⟨hbegun, herrors⟩ := h.streaming hstarted
    exact ⟨hbegun, Nat.le_zero.mp (herrors ▸ hsub.countP_le)⟩
  · rw [World.deliver_finished] at hfinished
    exact .inl (h.none_of_mem hmem htext hstarted hfinished)
  · rw [World.deliver_finished] at hfinished
    rcases h.answered hstarted hfinished with herror | ⟨hrelays, hw⟩
    · exact .inl herror
    · exact .inr ⟨Nat.le_zero.mp (hrelays ▸ hsub.countP_le), hw⟩

/-- Neither the flags nor the writes nor what is pending have changed. -/
theorem Answers.congr {s' : ProxySession} (h : s.Answers)
    (hwrites : s'.clientWrites = s.clientWrites) (hpending : s'.pending = s.pending)
    (hstarted : s'.responseStarted = s.responseStarted) (hfinished : s'.finished = s.finished) :
    s'.Answers := by
  have hcontrol : s'.control = s.control := by
    unfold control
    rw [hpending]
  refine ⟨?_, ?_, ?_⟩ <;> rw [hwrites, hstarted]
  · rw [hcontrol]
    exact h.streaming
  · rw [hfinished, hpending]
    exact h.unanswered
  · rw [hfinished, hcontrol]
    exact h.answered

end ProxySession

/-- The completion that begins the response to the client. -/
def beginsStream (op : Op) (r : Outcome) : Bool :=
  op = .readHeader && r.ec.isNone && r.status = .ok

namespace Context

variable {c c' c₁ : Context} {op next : Op} {r : Outcome} {ending : Ending}

theorem Prepares.clientWrites (h : Prepares c c₁) : c₁.self.clientWrites = c.self.clientWrites := by
  obtain ⟨calls, hcalls, heq⟩ := h.calls
  refine clientWrites_of_silent calls heq fun call hmem => ?_
  rw [hcalls call hmem]
  rfl

/-- The relay begins the response once, and writes chunks of the body after that. -/
theorem Relay.kind (h : Relay op r c c₁ next) :
    (beginsStream op r = true ∧ op = .readHeader ∧ next = .writeSseHeader sseHeader) ∨
    (next.afterHeader = op.afterHeader ∧ (next.writesClient = true → next.isBody = true) ∧
      (next.afterHeader = false → next.writesClient = false)) := by
  cases h <;> simp_all [beginsStream, Op.afterHeader, Op.writesClient, Op.isBody]

theorem Relay.clientWrites {s : ProxySession} (h : Relay op r c c₁ next)
    (hself : c.self = World.deliver s op r) : (c₁.start next).self.clientWrites =
      s.clientWrites ++ if next.writesClient then [next] else [] := by
  have hbefore : c.self.clientWrites = s.clientWrites := by
    rw [hself, ProxySession.clientWrites, World.deliver_calls]
    rfl
  show (c₁.self.start next).clientWrites = _
  rw [clientWrites_start, h.prepares.clientWrites, hbefore]

theorem Relay.noErrors (h : Relay op r c c₁ next)
    (hnone : c.self.control.countP Op.isError = 0) :
    (c₁.start next).self.control.countP Op.isError = 0 := by
  have hcontrol : (c₁.start next).self.control = c.self.control ++ [next] := by
    show (c₁.self.start next).control = _
    rw [control_start _ (Op.isTimer_of_isRelay h.isRelay.2), h.prepares.control]
  rw [hcontrol, List.countP_append, hnone, List.countP_singleton,
    Op.isError_of_isRelay h.isRelay.2]
  rfl

theorem Relay.answers {s : ProxySession} {e : Nat} (h : Relay op r c c₁ next)
    (hphase : s.Phase e) (hself : c.self = World.deliver s op r) (hmem : op ∈ s.pending)
    (hok : s.finished = true → beginsStream op r = false) (ha : s.Answers) :
    (c₁.start next).self.Answers := by
  have hprep := h.prepares
  have htext : ∀ response, op ≠ .writeText response := by
    rintro response rfl
    cases h.isRelay.1
  have hc : c.self.Answers := hself ▸ ha.deliver r hmem htext
  have hop : op ∈ s.control :=
    List.mem_filter.mpr ⟨hmem, by rw [Op.isTimer_of_isRelay h.isRelay.1]; rfl⟩
  have hafter : op.afterHeader = s.responseStarted := hphase.afterHeader_of_relay hmem h.isRelay.1
  have hstarted : (c₁.start next).self.responseStarted = next.afterHeader :=
    h.afterHeader (by rw [hself, World.deliver_responseStarted, hafter])
  have hfinished : (c₁.start next).self.finished = s.finished :=
    hprep.finished.trans (by rw [hself, World.deliver_finished])
  have hwrites := h.clientWrites hself
  have hempty (hnot : s.responseStarted = false) (hf : s.finished = false) :
      s.clientWrites = [] := ha.none_of_mem hmem htext hnot hf
  rcases h.kind with ⟨hbegins, rfl, rfl⟩ | ⟨hsame, hbody, hquiet⟩
  · -- the session is not finished, so it has answered nothing
    have hrunning : s.finished = false := by
      cases hf : s.finished with
      | false => rfl
      | true => rw [hok hf] at hbegins; cases hbegins
    have hnil : s.clientWrites = [] := hempty hafter.symm hrunning
    have hnoerror : c.self.control.countP Op.isError = 0 := by
      rcases hphase.of_relay hmem rfl with hrun | hover
      · rw [hself, World.deliver_control, hrun.control]
        rfl
      · rw [hover.finished] at hrunning; cases hrunning
    refine ⟨fun _ => ⟨⟨sseHeader, [], ?_, by simp⟩, h.noErrors hnoerror⟩, fun h' => ?_,
      fun h' => ?_⟩
    · rw [hwrites, hnil]
      rfl
    · rw [hstarted] at h'; cases h'
    · rw [hstarted] at h'; cases h'
  · refine ⟨fun h' => ?_, fun h' hf => .inl ?_, fun h' hf => .inl ?_⟩
    · -- the response is under way, and at most a chunk of its body is added
      have hs : s.responseStarted = true := by rw [← hafter, ← hsame, ← hstarted, h']
      have hcs : c.self.responseStarted = true := by
        rw [hself, World.deliver_responseStarted, hs]
      obtain ⟨⟨header, bodies, hbegun, hbodies⟩, -⟩ := ha.streaming hs
      refine ⟨⟨header, bodies ++ if next.writesClient then [next] else [], ?_, ?_⟩,
        h.noErrors (hc.streaming hcs).2⟩
      · rw [hwrites, hbegun, List.cons_append]
      · intro op' hmem'
        rcases List.mem_append.mp hmem' with hmem' | hmem'
        · exact hbodies op' hmem'
        · split at hmem'
          · rename_i hw
            exact List.mem_singleton.mp hmem' ▸ hbody hw
          · cases hmem'
    · -- before the header nothing is written to the client
      have hs : s.responseStarted = false := by rw [← hafter, ← hsame, ← hstarted, h']
      rw [hwrites, hempty hs (hfinished ▸ hf), hquiet (hstarted ▸ h')]
      rfl
    · have hs : s.responseStarted = false := by rw [← hafter, ← hsame, ← hstarted, h']
      rcases ha.answered hs (hfinished ▸ hf) with ⟨response, herror⟩ | ⟨hrelays, -⟩
      · refine ⟨response, ?_⟩
        rw [hwrites, herror, hquiet (hstarted ▸ h')]
        rfl
      · exact absurd h.isRelay.1 (List.countP_eq_zero.mp hrelays op hop)

theorem startProxyRequest_answers (permit : ServerPermit) (halive : c.server.alive = true)
    (hidle : c.self.Idle) (hnone : c.self.clientWrites = []) :
    (c.startProxyRequest permit).self.Answers := by
  rw [startProxyRequest_eq _ halive hidle.permit]
  refine .of_unwritten hidle.responseStarted hidle.finished ?_
  show ((ProxySession.start _ _).start _).clientWrites = []
  rw [clientWrites_start, clientWrites_start]
  exact (congrArg (· ++ _) (congrArg (· ++ _) hnone)).trans rfl

theorem Requested.answers (h : Requested c c') (hidle : c.self.Idle)
    (hpending : c.self.pending = [])
    (ha : c.self.Answers) (hnone : c.self.clientWrites = []) : c'.self.Answers := by
  have hcountedIdle : c.counted.self.Idle := ⟨hidle.1, hidle.2, hidle.3, hidle.4⟩
  have hcountedWrites : c.counted.self.clientWrites = c.self.clientWrites :=
    clientWrites_of_silent [.recordStarted] rfl (by simp [silent, beginsWrite])
  have hcounted : c.counted.self.Answers := ha.congr hcountedWrites rfl rfl rfl
  cases h with
  | unread =>
      refine ⟨fun h' => ?_, fun _ h' => (nomatch h'), fun _ _ => .inr ⟨?_, .inl hnone⟩⟩
      · exact absurd (hidle.responseStarted.symm.trans h') Bool.false_ne_true
      · show c.self.control.countP Op.isRelay = 0
        rw [control_of_pending_nil hpending]
        rfl
  | refused _ hends => exact hends.answers ha (fun h' => nomatch h') fun _ _ => hnone
  | health response =>
      refine ⟨fun h' => ?_, fun _ _ => .inr ⟨response, ?_, ?_⟩, fun _ h' => ?_⟩
      · exact absurd (hidle.responseStarted.symm.trans h') Bool.false_ne_true
      · show c.self.pending ++ _ = _
        rw [hpending]
        rfl
      · show (c.self.start (.writeText response)).clientWrites = _
        rw [clientWrites_start, hnone]
        rfl
      · exact absurd (hidle.finished.symm.trans h') Bool.false_ne_true
  | admitted halive =>
      exact startProxyRequest_answers (c := c.counted.setLimiter _) _ halive hcountedIdle
        (hcountedWrites.trans hnone)
  | queued => exact hcounted
  | turnedAway _ _ hends =>
      exact hends.answers hcounted (fun h' => nomatch h') fun _ _ => hcountedWrites.trans hnone

theorem Handled.answers {s : ProxySession} {e : Nat} (h : Handled op r c c')
    (hphase : s.Phase e) (hself : c.self = World.deliver s op r) (hmem : op ∈ s.pending)
    (hok : s.finished = true → beginsStream op r = false) (ha : s.Answers) : c'.self.Answers := by
  -- before its response a session that goes on has written nothing
  have hnone (htext : ∀ response, op ≠ .writeText response)
      (hstarted : c.self.responseStarted = false) (hfinished : c.self.finished = false) :
      c.self.clientWrites = [] := by
    rw [hself, World.deliver_responseStarted] at hstarted
    rw [hself, World.deliver_finished] at hfinished
    have hcw : c.self.clientWrites = s.clientWrites := by
      rw [hself, clientWrites, World.deliver_calls]
      rfl
    rw [hcw]
    exact ha.none_of_mem hmem htext hstarted hfinished
  cases h with
  -- a timer that is ignored
  | timer htimer =>
      exact hself ▸ ha.deliver r hmem (by rintro response rfl; cases htimer)
  -- the handlers that end a request write an error when nothing was written yet
  | timedOut b _ hop _ _ hends =>
      have htext : ∀ response, op ≠ .writeText response := by rw [hop]; exact fun _ h' => nomatch h'
      have hc : c.self.Answers := hself ▸ ha.deliver r hmem htext
      refine hends.answers ?_ (fun h' => nomatch h') ?_ <;> rw [timeOut_self]
      · exact hc.congr rfl rfl rfl rfl
      · exact hnone htext
  | expired b _ hop _ hends =>
      have htext : ∀ response, op ≠ .writeText response := by rw [hop]; exact fun _ h' => nomatch h'
      exact hends.answers (hself ▸ ha.deliver r hmem htext) (fun h' => nomatch h') (hnone htext)
  | read _ hop hrequested =>
      have htext : ∀ response, op ≠ .writeText response := by rw [hop]; exact fun _ h' => nomatch h'
      obtain ⟨idle, -, pending⟩ := hphase.of_opening hmem (by rw [hop]; rfl)
      have hc : c.self.Answers := hself ▸ ha.deliver r hmem htext
      have hidle : c.self.Idle := by
        rw [hself]
        exact idle.deliver op r
      refine hrequested.answers ⟨hidle.1, hidle.2, hidle.3, hidle.4⟩ ?_ (hc.congr rfl rfl rfl rfl)
        (hnone htext hidle.responseStarted hidle.finished)
      show c.self.pending = []
      rw [hself, World.deliver_pending, pending, hop]
      rfl
  -- the text response stays the only write
  | wroteText response hop =>
      obtain ⟨idle, -, pending⟩ := hphase.of_opening hmem (by rw [hop]; rfl)
      have hnil : c.self.pending = [] := by
        rw [hself, World.deliver_pending, pending, hop, List.erase_cons_head]
      have hwrites : (c.setSelf { c.self with finished := true }).closeClient.self.clientWrites =
          s.clientWrites := by
        refine clientWrites_of_silent [.closeClient] ?_ (by simp [silent, beginsWrite])
        show c.self.calls ++ [.closeClient] = _
        rw [hself, World.deliver_calls]
      refine ⟨fun h' => ?_, fun _ h' => (nomatch h'), fun _ _ => .inr ⟨?_, ?_⟩⟩
      · have hidle : c.self.Idle := hself ▸ idle.deliver op r
        exact absurd (hidle.responseStarted.symm.trans h') Bool.false_ne_true
      · show c.self.control.countP Op.isRelay = 0
        rw [control_of_pending_nil hnil]
        rfl
      · rw [hwrites]
        exact (ha.unanswered idle.responseStarted idle.finished).imp_right
          fun ⟨response, _, hw⟩ => ⟨response, hw⟩
  | wroteError response hop =>
      have htext : ∀ response, op ≠ .writeText response := by rw [hop]; exact fun _ h' => nomatch h'
      have hc : c.self.Answers := hself ▸ ha.deliver r hmem htext
      exact hc.congr (clientWrites_of_silent [.closeClient] rfl
        (by simp [silent, beginsWrite])) rfl rfl rfl
  | ended ending c₁ _ hrelay hcompleted hobserves hends =>
      have htext : ∀ response, op ≠ .writeText response := by
        rintro response rfl
        cases hrelay
      have hc : c.self.Answers := hself ▸ ha.deliver r hmem htext
      have hprep := hobserves.prepares
      refine hends.answers (hc.congr hprep.clientWrites hprep.pending hobserves.responseStarted
        hprep.finished) (fun hend => ?_) ?_
      · rw [hobserves.responseStarted, hself, World.deliver_responseStarted,
          ← hphase.afterHeader_of_relay hmem hrelay]
        exact hcompleted hend
      · rw [hobserves.responseStarted, hprep.finished, hprep.clientWrites]
        exact hnone htext
  | relayed c₁ next hrelay => exact hrelay.answers hphase hself hmem hok ha

end Context

namespace World

variable {config : ProxyConfig} {server : ProxyServer} {w w' : World}

/-- Every session has begun one response and has one write outstanding at most. -/
def AnswerOnce (w : World) : Prop := ∀ s ∈ w.sessions, s.answersOnce = true

instance (w : World) : Decidable (AnswerOnce w) :=
  inferInstanceAs (Decidable (∀ s ∈ w.sessions, s.answersOnce = true))

/-- A 200 header of the upstream finds its session finished. -/
def answersFinished (w : World) : Event → Bool
  | .complete i op r => (w.lock i).any fun s => s.finished && beginsStream op r
  | _ => false

/-- What keeps the answers from one step to the next. -/
structure Answering (w : World) : Prop where
  sound : w.Sound
  answers : ∀ (i : Nat) (s : ProxySession), w.sessions[i]? = some s → s.Answers

theorem Answering.answerOnce (h : w.Answering) : w.AnswerOnce := by
  intro s hmem
  obtain ⟨i, hi⟩ := List.getElem?_of_mem hmem
  exact (h.answers i s hi).answersOnce (h.sound.phase i s hi)

theorem answers_keptQuietly : KeptQuietly fun _ => Answers := by
  constructor
  case created =>
    intro _ sseParser _
    exact ⟨fun h' => (nomatch h'), fun _ _ => .inl rfl, fun _ h' => (nomatch h')⟩
  case closed =>
    intro _ s hs
    exact hs.congr (clientWrites_of_silent [.closeClient] rfl
      (by simp [silent, beginsWrite])) rfl rfl rfl
  case enqueued =>
    intro _ s idle pending hs
    have hwrites : s.clientWrites = [] := hs.unwritten idle (by rw [pending]; nofun)
    refine .of_unwritten idle.responseStarted idle.finished ?_
    rw [clientWrites_start]
    exact (congrArg (· ++ _) hwrites).trans rfl
  case promoted =>
    intro _ s host service clock idle pending hs
    have hwrites : s.clientWrites = [] := hs.unwritten idle (by rw [pending]; nofun)
    refine .of_unwritten idle.responseStarted idle.finished ?_
    unfold startedFromQueue
    rw [clientWrites_start, clientWrites_start]
    exact (congrArg (· ++ _) (congrArg (· ++ _) hwrites)).trans rfl
  case destroyed =>
    intro _ s hs
    exact hs.congr rfl rfl rfl rfl

theorem Answering.step {e : Event} (h : w.Answering) (hok : answersFinished w e = false)
    (hstep : World.step w e = some w') : w'.Answering := by
  refine ⟨h.sound.step hstep, answers_keptQuietly.step h.sound hstep h.answers ?_⟩
  rintro i op r s rfl hlock hmem -
  obtain ⟨hget, -⟩ := lock_eq_some.mp hlock
  refine (handle_handled op r (w.context i (deliver s op r))).answers (h.sound.phase i s hget) rfl
    hmem (fun hfinished => ?_) (h.answers i s hget)
  rw [answersFinished, hlock, Option.any_some, hfinished, Bool.true_and] at hok
  exact hok

/-- A finished session that is sent the header has begun an error response before. -/
theorem answersFinished_breaks {e : Event} (h : w.Answering) (hbad : answersFinished w e = true)
    (hstep : World.step w e = some w') : ¬ w'.AnswerOnce := by
  cases e with
  | complete i op r =>
      obtain ⟨s, hlock, hmem, -, rfl⟩ := complete_eq_some hstep
      rw [answersFinished, hlock, Option.any_some, Bool.and_eq_true, beginsStream] at hbad
      obtain ⟨hfinished, hbegins⟩ := hbad
      simp only [Bool.and_eq_true, decide_eq_true_eq, Option.isNone_iff_eq_none] at hbegins
      obtain ⟨⟨rfl, hec⟩, hstatus⟩ := hbegins
      obtain ⟨hget, -⟩ := lock_eq_some.mp hlock
      have hphase := h.sound.phase i s hget
      have hstarted : s.responseStarted = false := (hphase.afterHeader_of_relay hmem rfl).symm
      have hop : Op.readHeader ∈ s.control := List.mem_filter.mpr ⟨hmem, rfl⟩
      -- while the read of the header is pending, the end was one with an error response
      obtain ⟨response, herror⟩ : ∃ response, s.clientWrites = [.writeError response] := by
        rcases (h.answers i s hget).answered hstarted hfinished with herror | ⟨hrelays, -⟩
        · exact herror
        · exact absurd rfl (List.countP_eq_zero.mp hrelays .readHeader hop)
      have heq : (w.context i (deliver s .readHeader r)).handle .readHeader r =
          ((w.context i (deliver s .readHeader r)).setSelf
            { deliver s .readHeader r with responseStarted := true }).start
              (.writeSseHeader sseHeader) := by
        simp [handle, onReadHeader, writeDownstreamSseHeader, hec, hstatus, context]
      rw [heq]
      intro hanswer
      have honce := hanswer _ (put_self_mem hget)
      have hwrites : (ProxySession.start (.writeSseHeader sseHeader)
          { deliver s .readHeader r with responseStarted := true }).clientWrites =
            [.writeError response, .writeSseHeader sseHeader] := by
        rw [clientWrites_start]
        show s.clientWrites ++ _ = _
        rw [herror]
        rfl
      have hone : isOneResponse [.writeError response, .writeSseHeader sseHeader] = true :=
        (congrArg isOneResponse hwrites).symm.trans (Bool.and_eq_true_iff.mp honce).1
      cases hone
  | _ => cases hbad

theorem Answering.init (hcreate : ProxyServer.create config = .ok server) :
    (World.init server).Answering :=
  ⟨Sound.init hcreate, fun _ _ hi => (nomatch hi)⟩

/-- In every state of a run each session has begun one response and has one write outstanding at
most, exactly when no 200 header reaches a finished session in the run. -/
theorem answerOnce_iff {events : List Event} (hcreate : ProxyServer.create config = .ok server)
    (hrun : run World.step (World.init server) events = some w) :
    Always World.step AnswerOnce (World.init server) events ↔
      Meets World.step (fun w e => answersFinished w e = false) (World.init server) events := by
  refine always_iff_meets hrun (Answering.init hcreate) (fun _ => Answering.answerOnce)
    (fun _ _ _ h hok hstep => h.step hok hstep) fun _ _ _ h hbad hstep => ?_
  exact answersFinished_breaks h (by simpa using hbad) hstep

/-- The upstream answers a session whose request timer has fired. -/
def headerAfterTimeout : List Event :=
  [.accept, .complete 0 .readRequest { request := chatRequest },
    .complete 0 (.resolve (bytes "127.0.0.1") (bytes "8000")) {}, .complete 0 .connect {},
    .complete 0 (.writeUpstream (upstreamRequestOf oneSlotConfig {} chatRequest)) {},
    .complete 0 (.requestTimer false) {}, .complete 0 .readHeader {}]

theorem answerOnce_headerAfterTimeout :
    (run World.step (World.init oneSlotServer) headerAfterTimeout).map
      (fun w => decide (AnswerOnce w)) = some false := by
  decide

theorem answerOnce_headerInTime :
    Always World.step AnswerOnce (World.init oneSlotServer)
      (headerAfterTimeout.eraseIdx 5) :=
  have hrun : (run World.step (World.init oneSlotServer)
    (headerAfterTimeout.eraseIdx 5)).isSome = true := by decide
  (answerOnce_iff oneSlotServer_create (Option.some_get hrun).symm).mpr (by decide)

end World

end VllmSloProxy
