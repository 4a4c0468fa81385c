import VllmSloProxy.Accounting
import VllmSloProxy.SseWatch

/-!
# How a request is recorded

A request that was counted is recorded as completed only when the client was sent the header and all
chunks and the stream has come to its end, and as failed in every other way to end.  Two paths of
the relay miss this: a header that could not be written, and a parser that has thrown.
-/

namespace VllmSloProxy

open Context Transition Relation

namespace ProxySession

/-- The writes of the stream to the client. -/
def sendsStream : Op → Bool
  | .writeSseHeader _ | .writeBody _ _ => true
  | _ => false

/-- The operations that follow the write of the header. -/
def inBody : Op → Bool
  | .readBody | .writeBody _ _ => true
  | _ => false

def writesHeader : Op × Outcome → Bool
  | (.writeSseHeader _, r) => r.ec.isNone
  | _ => false

def headerWritten (s : ProxySession) : Bool := s.delivered.any writesHeader

/-- The client was sent everything and the stream has come to its end. -/
structure Succeeds (s : ProxySession) : Prop where
  header : s.headerWritten = true
  writes : ∀ op r, (op, r) ∈ s.delivered → sendsStream op = true → r.ec = none
  written : ∀ op ∈ s.pending, sendsStream op = false
  ended : s.doneSeen = true ∨ s.bodyReads.any Outcome.endsBody = true

/-- The handler of `op` finishes the request although it has not succeeded. -/
def endsWrongly (s : ProxySession) : Op → Outcome → Bool
  | .writeSseHeader _, r => r.ec.isSome
  | .writeBody _ done, r => done && r.ec.isNone && s.parserThrew
  | _, _ => false

/-- What every run keeps about the way to a recorded success. -/
structure Records (s : ProxySession) : Prop where
  header : ∀ op ∈ s.pending, inBody op = true → s.headerWritten = true
  writes : s.finished = false → ∀ op r, (op, r) ∈ s.delivered → sendsStream op = true → r.ec = none
  completed : .recordCompleted ∈ s.calls →
    s.finished = true ∧ (∀ op ∈ s.pending, op.isRelay = false) ∧ s.Succeeds

theorem sendsStream_of_not_relay {op : Op} (h : op.isRelay = false) : sendsStream op = false := by
  cases op <;> first | rfl | cases h

theorem isRelay_of_inBody {op : Op} (h : inBody op = true) : op.isRelay = true := by
  cases op <;> first | rfl | cases h

variable {s s' : ProxySession} {op : Op} {r : Outcome}

theorem headerWritten_snoc (hdelivered : s'.delivered = s.delivered ++ [(op, r)])
    (h : s.headerWritten = true) : s'.headerWritten = true := by
  unfold headerWritten at h ⊢
  rw [hdelivered, List.any_append, h, Bool.true_or]

theorem Succeeds.congr (h : s.Succeeds) (hparser : s'.sseParser = s.sseParser)
    (hdelivered : s'.delivered = s.delivered)
    (hnone : ∀ op ∈ s'.pending, op.isRelay = false) : s'.Succeeds := by
  have hreads : s'.bodyReads = s.bodyReads := by
    unfold bodyReads
    rw [hdelivered]
  refine ⟨?_, ?_, fun op hmem => sendsStream_of_not_relay (hnone op hmem), ?_⟩
  · unfold headerWritten
    rw [hdelivered]
    exact h.header
  · rw [hdelivered]
    exact h.writes
  · unfold doneSeen
    rw [watched_congr hparser hreads, hreads]
    exact h.ended

/-- A completion beside the relay leaves a recorded success as it is. -/
theorem Succeeds.deliver (h : s.Succeeds) (hop : op.isRelay = false) (r : Outcome) :
    (World.deliver s op r).Succeeds := by
  have hne : op ≠ .readBody := by
    rintro rfl
    cases hop
  have hsends := sendsStream_of_not_relay hop
  refine ⟨headerWritten_snoc (World.deliver_delivered ..) h.header, fun op' r' hmem hsends' => ?_,
    fun op' hmem => ?_, ?_⟩
  · rw [World.deliver_delivered, List.mem_append, List.mem_singleton] at hmem
    rcases hmem with hold | hnew
    · exact h.writes op' r' hold hsends'
    · rw [(Prod.mk.inj hnew).1, hsends] at hsends'
      cases hsends'
  · rw [World.deliver_pending] at hmem
    exact h.written op' (List.mem_of_mem_erase hmem)
  · unfold doneSeen
    rw [watched_deliver fun hread => absurd hread hne, bodyReads_deliver, bodyRead_of_not_read hne,
      Option.toList_none, List.append_nil]
    exact h.ended

/-- While an operation of the relay is pending no success is recorded. -/
theorem Records.unrecorded (h : s.Records) (hmem : op ∈ s.pending) (hrelay : op.isRelay = true) :
    .recordCompleted ∉ s.calls := by
  intro hrecorded
  rw [(h.completed hrecorded).2.1 op hmem] at hrelay
  cases hrelay

/-- A session that has not begun to relay. -/
theorem Records.of_unfinished (h : s.Records) (hopen : s.finished = false)
    (hfinished : s'.finished = s.finished) (hdelivered : s'.delivered = s.delivered)
    (hcalls : .recordCompleted ∈ s'.calls → .recordCompleted ∈ s.calls)
    (hpending : ∀ op ∈ s'.pending, inBody op = false) : s'.Records := by
  refine ⟨fun op hmem hbody => ?_, fun hopen' => ?_, fun hrecorded => ?_⟩
  · rw [hpending op hmem] at hbody
    cases hbody
  · rw [hdelivered]
    exact h.writes (hfinished ▸ hopen')
  · have hover := (h.completed (hcalls hrecorded)).1
    rw [hopen] at hover
    cases hover

/-- What has been delivered keeps to the invariant, as far as the session has not failed on it. -/
theorem Records.writes_snoc (h : s.Records) (hdelivered : s'.delivered = s.delivered ++ [(op, r)])
    (hopen : s.finished = false) (hok : sendsStream op = true → r.ec = none) :
    ∀ op r, (op, r) ∈ s'.delivered → sendsStream op = true → r.ec = none := by
  intro op' r' hmem hsends
  rw [hdelivered, List.mem_append, List.mem_singleton] at hmem
  rcases hmem with hold | hnew
  · exact h.writes hopen op' r' hold hsends
  · obtain ⟨rfl, rfl⟩ := Prod.mk.inj hnew
    exact hok hsends

end ProxySession

open ProxySession

namespace Context

variable {c c' c₁ : Context} {op next : Op} {r : Outcome} {s : ProxySession}

/-- A completion after which the relay does not go on. -/
theorem Keeps.records (h : Keeps c c') (hself : c.self = World.deliver s op r)
    (hmem : op ∈ s.pending)
    (hok : c'.self.finished = false → sendsStream op = true → r.ec = none) (hs : s.Records) :
    c'.self.Records := by
  have hdelivered : c'.self.delivered = s.delivered ++ [(op, r)] := by
    rw [h.delivered, hself, World.deliver_delivered]
  have hpending {op' : Op} (hmem' : op' ∈ c.self.pending) : op' ∈ s.pending := by
    rw [hself, World.deliver_pending] at hmem'
    exact List.mem_of_mem_erase hmem'
  refine ⟨fun op' hmem' hbody => ?_, fun hopen => ?_, fun hrecorded => ?_⟩
  · apply headerWritten_snoc hdelivered
    exact hs.header op' (hpending (h.relays op' hmem' (isRelay_of_inBody hbody))) hbody
  · refine hs.writes_snoc hdelivered ?_ (hok hopen)
    apply Bool.eq_false_iff.mpr
    intro hover
    rw [h.finished (by rw [hself, World.deliver_finished, hover])] at hopen
    cases hopen
  · have hbefore : .recordCompleted ∈ s.calls := by
      have := h.completed hrecorded
      rw [hself, World.deliver_calls] at this
      exact this
    obtain ⟨hover, hnone, hsucceeds⟩ := hs.completed hbefore
    have hnone' := h.noRelay fun op' hmem' => hnone op' (hpending hmem')
    refine ⟨h.finished (by rw [hself, World.deliver_finished, hover]), hnone', ?_⟩
    refine Succeeds.congr (s := c.self) ?_ h.sseParser h.delivered hnone'
    rw [hself]
    exact hsucceeds.deliver (hnone op hmem) r

/-- The relay goes on. -/
theorem Relay.records (h : Relay op r c c₁ next) (hself : c.self = World.deliver s op r)
    (hmem : op ∈ s.pending) (hs : s.Records) : (c₁.self.start next).Records := by
  have hprep := h.prepares
  have hdelivered : (c₁.self.start next).delivered = s.delivered ++ [(op, r)] := by
    rw [start_delivered, hprep.delivered, hself, World.deliver_delivered]
  have hheader (hbody : inBody op = true) : (c₁.self.start next).headerWritten = true :=
    headerWritten_snoc hdelivered (hs.header op hmem hbody)
  refine ⟨fun op' hmem' hbody => ?_, fun hopen => ?_, fun hrecorded => ?_⟩
  · rcases List.mem_append.mp hmem' with hold | hnew
    · rw [hprep.pending, hself, World.deliver_pending] at hold
      exact headerWritten_snoc hdelivered (hs.header op' (List.mem_of_mem_erase hold) hbody)
    · rw [List.mem_singleton.mp hnew] at hbody
      cases h with
      | headerWritten header hop hec =>
          unfold ProxySession.headerWritten
          rw [hdelivered, List.any_append, hop]
          simp [writesHeader, hec]
      | bodyWritten _ hop => exact hheader (by rw [hop]; rfl)
      | bufferFull hop => exact hheader (by rw [hop]; rfl)
      | chunk _ _ hop => exact hheader (by rw [hop]; rfl)
      | _ => cases hbody
  · have hfinished : (c₁.self.start next).finished = s.finished := by
      rw [start_finished, hprep.finished, hself, World.deliver_finished]
    refine hs.writes_snoc hdelivered (hfinished.symm.trans hopen) fun hsends => ?_
    cases h with
    | headerWritten _ _ hec => exact hec
    | bodyWritten _ _ hec => exact hec
    | resolved _ _ hop => rw [hop] at hsends; cases hsends
    | connected _ hop => rw [hop] at hsends; cases hsends
    | requestWritten _ hop => rw [hop] at hsends; cases hsends
    | headerRead hop => rw [hop] at hsends; cases hsends
    | bufferFull hop => rw [hop] at hsends; cases hsends
    | chunk _ _ hop => rw [hop] at hsends; cases hsends
  · refine absurd ?_ (hs.unrecorded hmem h.isRelay.1)
    obtain ⟨calls, hcalls, heq⟩ := hprep.calls
    rw [start_calls, heq, hself, World.deliver_calls, List.append_assoc,
      List.mem_append] at hrecorded
    refine hrecorded.resolve_right fun hnew => ?_
    rcases List.mem_append.mp hnew with hnew | hnew
    · cases hcalls _ hnew
    · cases List.mem_singleton.mp hnew

theorem finishRequest_delivered (hself : c.self = World.deliver s op r) :
    c.finishRequest.self.delivered = s.delivered ++ [(op, r)] := by
  rw [(finishRequest_ends c).beside.delivered, hself, World.deliver_delivered]

theorem finishRequest_noRelay {e : Nat} (hself : c.self = World.deliver s op r)
    (hphase : s.Phase e) (hmem : op ∈ s.pending) (hrelay : op.isRelay = true) :
    ∀ op' ∈ c.finishRequest.self.pending, op'.isRelay = false :=
  (finishRequest_ends c).beside.noRelay (hself ▸ not_relay_of_relay hphase hmem hrelay r)

theorem finishRequest_doneSeen (hself : c.self = World.deliver s op r)
    (hnone : op = .readBody → r.isData = false) :
    c.finishRequest.self.doneSeen = s.doneSeen := by
  unfold doneSeen
  rw [← watched_deliver (s := s) hnone, ← hself]
  rw [watched_congr (finishRequest_ends c).sseParser (finishRequest_ends c).beside.bodyReads]

theorem finishRequest_bodyReads (hself : c.self = World.deliver s op r) :
    c.finishRequest.self.bodyReads = s.bodyReads ++ (bodyRead (op, r)).toList := by
  rw [(finishRequest_ends c).beside.bodyReads, hself, bodyReads_deliver]

/-- The request is finished after an operation of the body, for one of the two right reasons. -/
theorem finishRequest_succeeds {e : Nat} (hself : c.self = World.deliver s op r)
    (hphase : s.Phase e) (hmem : op ∈ s.pending) (hbody : inBody op = true) (hs : s.Records)
    (hopen : s.finished = false) (hok : sendsStream op = true → r.ec = none)
    (hnone : op = .readBody → r.isData = false)
    (hended : s.doneSeen = true ∨ op = .readBody ∧ r.endsBody = true) :
    c.finishRequest.self.Succeeds := by
  have hdelivered := finishRequest_delivered hself
  have hnoRelay := finishRequest_noRelay hself hphase hmem (isRelay_of_inBody hbody)
  refine ⟨headerWritten_snoc hdelivered (hs.header op hmem hbody),
    hs.writes_snoc hdelivered hopen hok, fun op' hmem' => ?_, ?_⟩
  · exact sendsStream_of_not_relay (hnoRelay op' hmem')
  · rw [finishRequest_doneSeen hself hnone, finishRequest_bodyReads hself]
    rcases hended with hdone | ⟨rfl, hends⟩
    · exact .inl hdone
    · refine .inr ?_
      rw [List.any_append]
      simp [bodyRead, hends]

theorem finishRequest_records {e : Nat} (hself : c.self = World.deliver s op r)
    (hphase : s.Phase e) (hmem : op ∈ s.pending) (hrelay : op.isRelay = true) (hs : s.Records)
    (hsucceeds : c.server.alive = true → s.finished = false → c.finishRequest.self.Succeeds) :
    c.finishRequest.self.Records := by
  have hnoRelay := finishRequest_noRelay hself hphase hmem hrelay
  cases hfinished : c.self.finished with
  | true =>
      have hkeeps : Keeps c c := (Ends.already hfinished).keeps
      rw [finishRequest, if_pos hfinished]
      refine hkeeps.records hself hmem (fun hopen => ?_) hs
      rw [hfinished] at hopen
      cases hopen
  | false =>
      have hopen : s.finished = false := by
        rw [hself, World.deliver_finished] at hfinished
        exact hfinished
      refine ⟨fun op' hmem' hbody => ?_, fun hopen' => ?_, fun hrecorded => ?_⟩
      · have := hnoRelay op' hmem'
        rw [isRelay_of_inBody hbody] at this
        cases this
      · rw [(finishRequest_ends c).finished] at hopen'
        cases hopen'
      · refine ⟨(finishRequest_ends c).finished, hnoRelay, hsucceeds ?_ hopen⟩
        -- without a server nothing is recorded
        by_contra hdead
        rw [Bool.not_eq_true] at hdead
        rw [finishRequest, hfinished, if_neg Bool.false_ne_true] at hrecorded
        have hcalls : (c.settle .completed).closeClient.self.calls =
            c.self.calls ++ [.closeUpstream] ++ [.closeClient] := by
          show (c.settle .completed).self.calls ++ [.closeClient] = _
          rw [settle_eq, endingCalls, hdead]
          rfl
        rw [hcalls, hself, World.deliver_calls] at hrecorded
        exact hs.unrecorded hmem hrelay (by simpa using hrecorded)

/-- What an operation of the relay does to the records. -/
theorem Proceeds.records {e : Nat} (h : Proceeds op r c c') (hself : c.self = World.deliver s op r)
    (hphase : s.Phase e) (hmem : op ∈ s.pending) (hrelay : op.isRelay = true)
    (hdated : c.self.requestStart.getD 0 ≤ c.clock) (hwatches : s.Watches)
    (hok : c.server.alive = true → s.finished = false → s.endsWrongly op r = false)
    (hs : s.Records) : c'.self.Records := by
  cases h with
  | failed _ hends =>
      -- a failure finishes the session, so it promises nothing about the writes
      refine hends.keeps.records hself hmem (fun hopen => ?_) hs
      rw [hends.finished] at hopen
      cases hopen
  | headerLost header hop hec =>
      refine finishRequest_records hself hphase hmem hrelay hs fun halive hopen => ?_
      have hright := hok halive hopen
      rw [hop, endsWrongly, hec] at hright
      cases hright
  | bodyEnded hop hends =>
      subst hop
      refine finishRequest_records hself hphase hmem hrelay hs fun _ hopen => ?_
      exact finishRequest_succeeds hself hphase hmem rfl hs hopen (fun hsends => nomatch hsends)
        (fun _ => Outcome.isData_of_endsBody hends) (.inr ⟨rfl, hends⟩)
  | lastWritten payload hop hec =>
      subst hop
      refine finishRequest_records hself hphase hmem hrelay hs fun halive hopen => ?_
      have hright := hok halive hopen
      rw [endsWrongly, hec, Option.isNone_none, Bool.and_true, Bool.true_and] at hright
      -- the last write that no throw has caused follows `[DONE]`
      have hdone := hwatches.last _ hmem rfl
      rw [hright] at hdone
      exact finishRequest_succeeds hself hphase hmem rfl hs hopen (fun _ => hec)
        (fun hread => nomatch hread) (.inl hdone)
  | nothingLeft hop _ _ hdone =>
      subst hop
      -- no bytes, no event: the handler does not come this way
      rw [observeSseChunk_nil hself hmem hdated hwatches] at hdone
      cases hdone
  | relayed _ _ hrelay' => exact hrelay'.records hself hmem hs

/-- A request that was read and is served at once. -/
theorem admitted_records (permit : ServerPermit) (clock : Nat) (host service : Bytes)
    (hs : c.self.Records) (hidle : c.self.Idle) (hpending : c.self.pending = []) :
    ((({ c.counted.self with permit := some permit, requestStart := some clock } :
      ProxySession).start (.requestTimer false)).start (.resolve host service)).Records := by
  refine hs.of_unfinished hidle.finished rfl rfl (fun hrecorded => ?_) fun op hmem => ?_
  · have hold : .recordCompleted ∈ ((c.self.calls ++ [.recordStarted]) ++ _) ++ _ := hrecorded
    simpa using hold
  · have hmem' : op ∈ c.self.pending ++ [.requestTimer false] ++ [.resolve host service] := hmem
    rw [hpending, List.nil_append, List.mem_append, List.mem_singleton, List.mem_singleton] at hmem'
    rcases hmem' with rfl | rfl <;> rfl

theorem Requested.records (h : Requested c c') (hs : c.self.Records) (hidle : c.self.Idle)
    (hpending : c.self.pending = []) (hkept : ∀ c', Keeps c c' → c'.self.Records) :
    c'.self.Records := by
  cases h with
  | unread => exact hkept _ (finished_keeps c)
  | refused _ hends => exact hkept _ hends.keeps
  | health => exact hkept _ (start_keeps rfl)
  | admitted halive =>
      rw [startProxyRequest_eq (c := c.counted.setLimiter _) _ halive hidle.permit]
      exact admitted_records _ _ _ _ hs hidle hpending
  | queued => exact hkept c.counted counted_keeps
  | turnedAway _ _ hends => exact hkept _ (counted_keeps.trans hends.keeps)

/-- What any other operation does. -/
theorem Handled.records {e : Nat} (h : Handled op r c c') (hop : op.isRelay = false)
    (hself : c.self = World.deliver s op r) (hphase : s.Phase e) (hmem : op ∈ s.pending)
    (hs : s.Records) : c'.self.Records := by
  have hquiet (hsends : sendsStream op = true) : r.ec = none := by
    rw [sendsStream_of_not_relay hop] at hsends
    cases hsends
  have hkept (hkeeps : Keeps c c') : c'.self.Records :=
    hkeeps.records hself hmem (fun _ => hquiet) hs
  have hnot (hrelay : op.isRelay = true) : c'.self.Records := by
    rw [hop] at hrelay
    cases hrelay
  cases h with
  | timer => exact hkept (.refl c)
  | timedOut _ _ _ _ _ hends => exact hkept (timeOut_keeps.trans hends.keeps)
  | expired _ _ _ _ hends => exact hkept hends.keeps
  | read _ hread hrequested =>
      obtain ⟨idle, -, pending⟩ := hphase.of_opening hmem (by rw [hread]; rfl)
      have hidle : c.self.Idle := by
        rw [hself]
        exact idle.deliver op r
      have hkeeps := clientRequest_keeps c r.request
      refine hrequested.records (hkeeps.records hself hmem (fun _ => hquiet) hs)
        ⟨hidle.1, hidle.2, hidle.3, hidle.4⟩ ?_ fun c₁ hkeeps' => ?_
      · show c.self.pending = []
        rw [hself, World.deliver_pending, pending, List.erase_cons_head]
      · exact (hkeeps.trans hkeeps').records hself hmem (fun _ => hquiet) hs
  | wroteText => exact hkept ((finished_keeps c).trans (note_keeps rfl (by simp)))
  | wroteError => exact hkept (note_keeps rfl (by simp))
  | ended _ _ _ hrelay => exact hnot hrelay
  | relayed _ _ hrelay => exact hnot hrelay.isRelay.1

end Context

namespace World

variable {config : ProxyConfig} {server : ProxyServer} {w w' : World}

/-- A success is recorded only for a session that has succeeded, and each counted session that is
over, or has nothing left that could run, is recorded as a success or as a failure. -/
structure Classified (w : World) : Prop where
  completed : ∀ (i : Nat) (s : ProxySession), w.sessions[i]? = some s →
    .recordCompleted ∈ s.calls → s.Succeeds
  failed : w.server.alive = true → ∀ (i : Nat) (s : ProxySession), w.sessions[i]? = some s →
    .recordStarted ∈ s.calls → s.finished = true ∨ s.pending = [] ∧ w.server.posted i = 0 →
    (.recordFailed ∈ s.calls ↔ .recordCompleted ∉ s.calls)

/-- A handler finishes a running request that has not succeeded. -/
def misrecords (w : World) : Event → Bool
  | .complete i op r => w.server.alive && (w.lock i).any fun s =>
      !s.finished && s.endsWrongly op r
  | _ => false

/-- What keeps the records right from one step to the next. -/
structure Recording (w : World) : Prop where
  watched : w.Watched
  accounting : w.Accounting
  records : ∀ (i : Nat) (s : ProxySession), w.sessions[i]? = some s → s.Records

theorem endings_eq (calls : List Call) :
    calls.countP isEnding = calls.count .recordCompleted + calls.count .recordFailed := by
  induction calls with
  | nil => rfl
  | cons call calls ih =>
      rw [List.countP_cons, List.count_cons, List.count_cons, ih]
      cases call <;> simp [isEnding] <;> omega

theorem records_keptQuietly : KeptQuietly fun _ => Records where
  created _ sseParser _ := by
    refine ⟨fun op hmem hbody => ?_, fun _ op r hmem => (nomatch hmem), fun hmem => ?_⟩
    · rw [List.mem_singleton.mp hmem] at hbody
      cases hbody
    · cases List.mem_singleton.mp hmem
  closed _ s hs := by
    refine ⟨hs.header, hs.writes, fun hmem => ?_⟩
    have hold : .recordCompleted ∈ s.calls ++ [.closeClient] := hmem
    obtain ⟨hover, hnone, hsucceeds⟩ := hs.completed (by simpa using hold)
    exact ⟨hover, hnone, hsucceeds.congr rfl rfl hnone⟩
  enqueued _ s idle pending hs := by
    refine hs.of_unfinished idle.finished rfl rfl (fun hrecorded => ?_) fun op hmem => ?_
    · have hold : .recordCompleted ∈ s.calls ++ [_] := hrecorded
      simpa using hold
    · have hmem' : op ∈ s.pending ++ [.queueTimer false] := hmem
      rw [pending, List.nil_append, List.mem_singleton] at hmem'
      rw [hmem']
      rfl
  promoted _ s host service clock idle pending hs := by
    refine hs.of_unfinished idle.finished rfl rfl (fun hrecorded => ?_) fun op hmem => ?_
    · have hold : .recordCompleted ∈ (s.calls ++ [_]) ++ [_] := hrecorded
      simpa using hold
    · simp only [startedFromQueue, start_pending, pending, List.map_cons, List.map_nil,
        List.mem_append, List.mem_singleton] at hmem
      rcases hmem with (rfl | rfl) | rfl <;> rfl
  destroyed _ s hs := by
    refine ⟨hs.header, hs.writes, fun hmem => ?_⟩
    obtain ⟨hover, hnone, hsucceeds⟩ := hs.completed hmem
    exact ⟨hover, hnone, hsucceeds.congr rfl rfl hnone⟩

theorem Recording.classified (h : w.Recording) : w.Classified := by
  refine ⟨fun i s hget hrecorded => ((h.records i s hget).completed hrecorded).2.2,
    fun halive i s hget hstarted hended => ?_⟩
  have hbooks := h.accounting.books halive
  have haccounts := hbooks.accounts i s hget
  -- only a counted session records a start
  have hcounted : s.requestCounted = true := by
    by_contra hcounted
    have hstarts := haccounts.starts
    rw [if_neg hcounted] at hstarts
    exact List.count_eq_zero.mp hstarts hstarted
  have hfinished : s.finished = true := by
    rcases hended with hover | ⟨hpending, hposted⟩
    · exact hover
    · by_contra hopen
      rw [Bool.not_eq_true] at hopen
      exact hbooks.awaited i s hget (isOpen_eq_true.mpr ⟨hcounted, hopen⟩) hpending hposted
  -- a counted session that is finished has recorded one ending
  have hone := haccounts.endings
  rw [hcounted, hfinished, Bool.and_self, if_pos rfl, endings, endings_eq] at hone
  rw [← List.count_pos_iff, ← List.count_eq_zero]
  omega

theorem Recording.step {e : Event} (h : w.Recording)
    (hok : misrecords w e = false ∧ dropsRequest w e = false) (hstep : World.step w e = some w') :
    w'.Recording := by
  refine ⟨h.watched.step hstep, h.accounting.step hok.2 hstep,
    records_keptQuietly.step h.watched.sound hstep h.records ?_⟩
  rintro i op r s rfl hlock hmem hdeliverable
  obtain ⟨hget, -⟩ := lock_eq_some.mp hlock
  have hphase := h.watched.sound.phase i s hget
  have hs := h.records i s hget
  by_cases hrelay : op.isRelay = true
  · refine (handle_proceeds hrelay r (w.context i (deliver s op r))).records rfl hphase hmem hrelay
      (h.watched.requestStart_le hlock op r) (h.watched.sessions i s hget).2 ?_ hs
    intro halive hopen
    have hright := hok.1
    have halive' : w.server.alive = true := halive
    rw [misrecords, halive', hlock, Option.any_some, hopen] at hright
    exact hright
  · exact (handle_handled op r (w.context i (deliver s op r))).records (Bool.not_eq_true _ ▸ hrelay)
      rfl hphase hmem hs

theorem isRelay_of_endsWrongly {s : ProxySession} {op : Op} {r : Outcome}
    (h : s.endsWrongly op r = true) : op.isRelay = true := by
  cases op <;> first | rfl | cases h

/-- The handler of such a completion finishes the request. -/
theorem handle_of_endsWrongly {s : ProxySession} {op : Op} {r : Outcome}
    (h : s.endsWrongly op r = true) (c : Context) : c.handle op r = c.finishRequest := by
  cases op with
  | writeSseHeader header =>
      have hec : r.ec.isSome = true := h
      show c.onWriteSseHeader r.ec = _
      rw [onWriteSseHeader, if_pos hec]
  | writeBody payload done =>
      rw [endsWrongly, Bool.and_eq_true, Bool.and_eq_true, Option.isNone_iff_eq_none] at h
      obtain ⟨⟨rfl, hec⟩, -⟩ := h
      show c.onWriteBody r.ec true = _
      rw [onWriteBody, hec]
      rfl
  | _ => cases h

theorem finishRequest_recorded {c : Context} (halive : c.server.alive = true)
    (hfinished : c.self.finished = false) (hcounted : c.self.requestCounted = true) :
    .recordCompleted ∈ c.finishRequest.self.calls := by
  rw [finishRequest, hfinished, if_neg Bool.false_ne_true]
  show _ ∈ (c.settle .completed).self.calls ++ [.closeClient]
  rw [settle_eq, endingCalls, halive, hcounted]
  simp [Ending.call]

/-- A session that ends like this has not succeeded. -/
theorem endsWrongly_fails {c : Context} {s : ProxySession} {op : Op} {r : Outcome}
    (hself : c.self = deliver s op r) (hmem : op ∈ s.pending) (hrelays : s.Relays)
    (hwatches : s.Watches) (hwrong : s.endsWrongly op r = true) :
    ¬ c.finishRequest.self.Succeeds := by
  intro hsucceeds
  cases op with
  | writeSseHeader header =>
      have hec : r.ec = none := by
        refine hsucceeds.writes (.writeSseHeader header) r ?_ rfl
        rw [finishRequest_delivered hself]
        exact List.mem_append_right _ (List.mem_singleton_self _)
      rw [endsWrongly, hec] at hwrong
      cases hwrong
  | writeBody payload done =>
      rw [endsWrongly, Bool.and_eq_true, Bool.and_eq_true] at hwrong
      obtain ⟨⟨hdone, -⟩, hthrew⟩ := hwrong
      -- the last write follows either `[DONE]` or a throw, and here it was a throw
      have hunseen := hwatches.last _ hmem hdone
      rw [hthrew, Bool.not_true] at hunseen
      rcases hsucceeds.ended with hseen | hends
      · rw [finishRequest_doneSeen hself fun hread => nomatch hread] at hseen
        exact absurd (hunseen.symm.trans hseen) Bool.false_ne_true
      · rw [finishRequest_bodyReads hself] at hends
        obtain ⟨read, hread, hends⟩ := List.any_eq_true.mp hends
        have hopen := List.any_eq_false.mp (hrelays.open_of_mem hmem rfl).1 read
          (by simpa [bodyRead] using hread)
        exact hopen (Outcome.endsRelay_of_endsBody hends)
  | _ => cases hwrong

theorem misrecords_breaks {e : Event} (h : w.Recording) (hbad : misrecords w e = true)
    (hstep : World.step w e = some w') : ¬ w'.Classified := by
  unfold misrecords at hbad
  split at hbad
  · rename_i i op r
    obtain ⟨s, hlock, hmem, -, rfl⟩ := complete_eq_some hstep
    simp only [hlock, Option.any_some, Bool.and_eq_true, Bool.not_eq_true'] at hbad
    obtain ⟨halive, hopen, hwrong⟩ := hbad
    obtain ⟨hget, -⟩ := lock_eq_some.mp hlock
    have hid : ((w.context i (deliver s op r)).handle op r).id = i :=
      (handle_handled op r (w.context i (deliver s op r))).frame.id
    have hnew := put_getElem? (w := w) (by rw [hid]; exact hget) i
    rw [if_pos hid, handle_of_endsWrongly hwrong] at hnew
    -- an operation of the relay belongs to a counted request
    have hcounted : s.requestCounted = true := by
      rcases (h.watched.sound.phase i s hget).of_relay hmem (isRelay_of_endsWrongly hwrong) with
        hrunning | hover
      · exact hrunning.counted
      · rw [hover.finished] at hopen
        cases hopen
    obtain ⟨hrelays, hwatches⟩ := h.watched.sessions i s hget
    intro hclassified
    rw [handle_of_endsWrongly hwrong] at hclassified
    refine endsWrongly_fails (c := w.context i (deliver s op r)) rfl hmem hrelays hwatches hwrong
      (hclassified.completed i _ hnew (finishRequest_recorded halive ?_ ?_))
    · exact (deliver_finished s op r).trans hopen
    · exact (deliver_requestCounted s op r).trans hcounted
  · cases hbad

/-- A dropped request is recorded neither way. -/
theorem dropsRequest_unclassified {e : Event} (h : w.Recording) (hbad : dropsRequest w e = true)
    (hstep : World.step w e = some w') : ¬ w'.Classified := by
  obtain ⟨halive, i, s, hget, haccounts, hopen, hpending, hposted⟩ :=
    dropsRequest_leaves h.accounting hbad hstep
  obtain ⟨hcounted, hfinished⟩ := isOpen_eq_true.mp hopen
  intro hclassified
  have hstarted : .recordStarted ∈ s.calls := by
    have hstarts := haccounts.starts
    rw [hcounted, if_pos rfl] at hstarts
    have hcount : s.calls.count .recordStarted = 1 := hstarts
    exact List.count_pos_iff.mp (by omega)
  have hnone := haccounts.endings
  rw [hfinished, Bool.and_false, if_neg Bool.false_ne_true, endings, endings_eq,
    Nat.add_eq_zero_iff, List.count_eq_zero, List.count_eq_zero] at hnone
  exact hnone.2 ((hclassified.failed halive i s hget hstarted
    (.inr ⟨hpending, hposted⟩)).mpr hnone.1)

theorem Recording.init (hcreate : ProxyServer.create config = .ok server) :
    (World.init server).Recording :=
  ⟨Watched.init hcreate, Accounting.init hcreate, fun _ _ hi => (nomatch hi)⟩

/-- In every state of a run the requests are recorded as they have ended, exactly when in the run no
handler finishes a request that has not succeeded and the strand drops no session. -/
theorem classified_iff {events : List Event} (hcreate : ProxyServer.create config = .ok server)
    (hrun : run World.step (World.init server) events = some w) :
    Always World.step Classified (World.init server) events ↔
      Meets World.step (fun w e => misrecords w e = false ∧ dropsRequest w e = false)
        (World.init server) events := by
  refine always_iff_meets hrun (Recording.init hcreate) (fun _ h => h.classified)
    (fun _ _ _ h hok hstep => h.step hok hstep) fun _ _ _ h hbad hstep => ?_
  rw [not_and_or, Bool.not_eq_false, Bool.not_eq_false] at hbad
  rcases hbad with hwrong | hdropped
  · exact misrecords_breaks h hwrong hstep
  · exact dropsRequest_unclassified h hdropped hstep

/-- The client goes away before the header of the response is written. -/
def headerLost : List Event :=
  [.accept, .complete 0 .readRequest { request := chatRequest },
    .complete 0 (.resolve (bytes "127.0.0.1") (bytes "8000")) {}, .complete 0 .connect {},
    .complete 0 (.writeUpstream (upstreamRequestOf oneSlotConfig {} chatRequest)) {},
    .complete 0 .readHeader {},
    .complete 0 (.writeSseHeader sseHeader) { ec := some (.other 32) }]

theorem headerLost_not_classified : ¬ ∀ (config : ProxyConfig) (server : ProxyServer)
    (events : List Event) (w : World), ProxyServer.create config = .ok server →
    run World.step (World.init server) events = some w → w.Classified := by
  intro h
  -- a success is recorded, and the header was not written
  have hlost : (run World.step (World.init oneSlotServer) headerLost).map
      (fun w => w.sessions.map fun s =>
        (decide (.recordCompleted ∈ s.calls), s.headerWritten)) = some [(true, false)] := by
    decide
  obtain ⟨w, hrun, hsessions⟩ := Option.map_eq_some_iff.mp hlost
  obtain ⟨s, hs, hcalls⟩ := List.map_eq_singleton_iff.mp hsessions
  obtain ⟨hrecorded, hheader⟩ := Prod.mk.inj hcalls
  have hsucceeds := (h _ _ _ w oneSlotServer_create hrun).completed 0 s (by rw [hs]; rfl)
    (of_decide_eq_true hrecorded)
  exact absurd (hheader.symm.trans hsucceeds.header) Bool.false_ne_true

theorem classified_iff_endAfterLastRead :
    Always World.step Classified (World.init oneSlotServer) endAfterLastRead :=
  have hrun : (run World.step (World.init oneSlotServer) endAfterLastRead).isSome = true := by
    decide
  (classified_iff oneSlotServer_create (Option.some_get hrun).symm).mpr (by decide)

end World

end VllmSloProxy
