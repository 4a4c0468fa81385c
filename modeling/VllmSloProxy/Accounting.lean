import VllmSloProxy.Lib.Population
import VllmSloProxy.WorldSteps

/-!
# The account of requests

A request that was counted as started is open until its session finishes, and then it is recorded
once, as completed or as failed.  The enqueue task alone forgets this: at shutdown it closes the
connection of a session that nothing else will end.
-/

namespace VllmSloProxy

open Context Transition Relation Population

namespace ProxySession

def isEnding : Call → Bool
  | .recordCompleted | .recordFailed => true
  | _ => false

/-- How often the session was counted as started. -/
def starts (s : ProxySession) : Nat := s.calls.count .recordStarted

/-- How often an ending was recorded for the session. -/
def endings (s : ProxySession) : Nat := s.calls.countP isEnding

/-- Counted as started, and neither completed nor failed yet. -/
def unrecorded (s : ProxySession) : Bool := s.endings < s.starts

/-- The same by the flags of the session. -/
def isOpen (s : ProxySession) : Bool := s.requestCounted && !s.finished

def inBooks : Call → Bool
  | .recordStarted => true
  | call => isEnding call

/-- What is recorded for a session follows from its flags. -/
structure Accounts (s : ProxySession) : Prop where
  starts : s.starts = if s.requestCounted then 1 else 0
  endings : s.endings = if s.requestCounted && s.finished then 1 else 0

theorem Accounts.unrecorded_eq {s : ProxySession} (h : s.Accounts) :
    s.unrecorded = s.isOpen := by
  unfold unrecorded isOpen
  rw [h.starts, h.endings]
  cases s.requestCounted <;> cases s.finished <;> rfl

theorem Accounts.once {s : ProxySession} (h : s.Accounts) :
    s.starts ≤ 1 ∧ s.endings ≤ s.starts := by
  rw [h.starts, h.endings]
  cases s.requestCounted <;> cases s.finished <;> decide

theorem isOpen_eq_true {s : ProxySession} :
    s.isOpen = true ↔ s.requestCounted = true ∧ s.finished = false := by
  simp [isOpen]

theorem count_eq_zero_of_not_inBooks {calls : List Call}
    (h : ∀ call ∈ calls, inBooks call = false) :
    calls.count .recordStarted = 0 ∧ calls.countP isEnding = 0 := by
  constructor
  · apply List.count_eq_zero.mpr
    intro hmem
    cases h _ hmem
  · apply List.countP_eq_zero.mpr
    intro call hmem hending
    have hnot := h call hmem
    cases call <;> simp_all [inBooks, isEnding]

theorem Accounts.extend {s s' : ProxySession} (h : s.Accounts) (more : List Call)
    (hcalls : s'.calls = s.calls ++ more) (hmore : ∀ call ∈ more, inBooks call = false)
    (hcounted : s'.requestCounted = s.requestCounted) (hfinished : s'.finished = s.finished) :
    s'.Accounts := by
  -- the calls that were added record nothing
  obtain ⟨hstarts, hendings⟩ := count_eq_zero_of_not_inBooks hmore
  constructor
  · show s'.calls.count .recordStarted = _
    rw [hcalls, List.count_append, hstarts, Nat.add_zero, hcounted]
    exact h.starts
  · show s'.calls.countP isEnding = _
    rw [hcalls, List.countP_append, hendings, Nat.add_zero, hcounted, hfinished]
    exact h.endings

end ProxySession

open ProxySession

namespace ProxyMetrics

def recorded (m : ProxyMetrics) : Nat := m.completedRequests + m.failedRequests

end ProxyMetrics

namespace Context

variable {c c' c₁ : Context} {op next : Op} {r : Outcome} {ending : Ending}

/-- The change of one session is in the books: what the totals gain is what the session opens, and
what it closes is recorded. -/
structure Tallied (c c' : Context) : Prop where
  accounts : c.self.Accounts → c'.self.Accounts
  totals : c'.server.metrics.totalRequests + (c.server.metrics.recorded + share isOpen c.self) =
    c.server.metrics.totalRequests + (c'.server.metrics.recorded + share isOpen c'.self)

theorem Tallied.trans (h : Tallied c c₁) (h' : Tallied c₁ c') : Tallied c c' := by
  refine ⟨fun ha => h'.accounts (h.accounts ha), ?_⟩
  have := h.totals
  have := h'.totals
  omega

theorem Tallied.of_aside (more : List Call) (hcalls : c'.self.calls = c.self.calls ++ more)
    (hmore : ∀ call ∈ more, inBooks call = false)
    (hcounted : c'.self.requestCounted = c.self.requestCounted)
    (hfinished : c'.self.finished = c.self.finished)
    (htotal : c'.server.metrics.totalRequests = c.server.metrics.totalRequests)
    (hrecorded : c'.server.metrics.recorded = c.server.metrics.recorded) : Tallied c c' := by
  refine ⟨fun h => h.extend more hcalls hmore hcounted hfinished, ?_⟩
  unfold share isOpen
  rw [hcounted, hfinished, htotal, hrecorded]

theorem releasePermit_metrics (permit : ServerPermit) (server : ProxyServer) :
    (server.releasePermit permit).metrics = server.metrics := by
  rcases ProxyServer.releasePermit_cases permit server with ⟨h, -⟩ | ⟨-, -, h⟩ <;> rw [h]

theorem settle_metrics (ending : Ending) :
    (c.settle ending).server.metrics = (c.recordedServer ending).metrics := by
  rw [settle_eq]
  cases c.self.permit with
  | none => rfl
  | some permit => exact releasePermit_metrics permit _

theorem Ending.record_total (ending : Ending) (m : ProxyMetrics) :
    (ending.record m).totalRequests = m.totalRequests := by
  cases ending <;> rfl

theorem Ending.record_recorded (ending : Ending) (m : ProxyMetrics) :
    (ending.record m).recorded = m.recorded + 1 := by
  cases ending with
  | completed => exact Nat.add_right_comm _ _ _
  | failed => rfl

/-- A session that is not finished is recorded when it ends, if it was counted. -/
theorem settle_tallied (halive : c.server.alive = true) (hfinished : c.self.finished = false)
    (ending : Ending) : Tallied c (c.settle ending) := by
  have hcalls : (c.settle ending).self.calls = c.self.calls ++ c.endingCalls ending := by
    rw [settle_eq]
  have hcounted : (c.settle ending).self.requestCounted = c.self.requestCounted := by
    rw [settle_eq]
  have hover : (c.settle ending).self.finished = true := by rw [settle_eq]
  cases h : c.self.requestCounted with
  -- a counted request is recorded once, and so leaves the open ones
  | true =>
      have hending : c.endingCalls ending = [.closeUpstream, ending.call] := by
        simp [endingCalls, halive, h]
      have hmetrics : (c.settle ending).server.metrics = ending.record c.server.metrics := by
        rw [settle_metrics]
        simp [recordedServer, halive, h]
      have hopen : isOpen c.self = true := isOpen_eq_true.mpr ⟨h, hfinished⟩
      have hclosed : isOpen (c.settle ending).self = false := by
        simp [isOpen, hover]
      refine ⟨fun ha => ⟨?_, ?_⟩, ?_⟩
      · show (c.settle ending).self.calls.count .recordStarted = _
        rw [hcalls, hending, List.count_append, hcounted]
        have hone : [Call.closeUpstream, ending.call].count Call.recordStarted = 0 := by
          cases ending <;> rfl
        rw [hone, Nat.add_zero]
        exact ha.starts
      · show (c.settle ending).self.calls.countP isEnding = _
        have hnone : c.self.calls.countP isEnding = 0 := by
          have := ha.endings
          rw [hfinished, Bool.and_false] at this
          exact this
        have hone : [Call.closeUpstream, ending.call].countP isEnding = 1 := by
          cases ending <;> rfl
        rw [hcalls, hending, List.countP_append, hnone, hone, hcounted, hover, h]
        rfl
      · rw [hmetrics, Ending.record_total, Ending.record_recorded, share_true hopen,
          share_false hclosed]
  -- a request that was not counted is not recorded either
  | false =>
      have hending : c.endingCalls ending = [.closeUpstream] := by
        simp [endingCalls, h]
      have hmetrics : (c.settle ending).server.metrics = c.server.metrics := by
        rw [settle_metrics]
        simp [recordedServer, h]
      have hshut {s : ProxySession} (hs : s.requestCounted = false) : isOpen s = false := by
        simp [isOpen, hs]
      refine ⟨fun ha => ⟨?_, ?_⟩, ?_⟩
      · show (c.settle ending).self.calls.count .recordStarted = _
        rw [hcalls, hending, List.count_append, hcounted]
        exact ha.starts
      · show (c.settle ending).self.calls.countP isEnding = _
        rw [hcalls, hending, List.countP_append, hcounted, h]
        have := ha.endings
        rw [h] at this
        exact this
      · rw [hmetrics, share_false (hshut h), share_false (hshut (hcounted.trans h))]

theorem Ends.tallied (h : Ends ending c c') (halive : c.server.alive = true) : Tallied c c' := by
  cases h with
  | already => exact .of_aside [] (by simp) (by simp) rfl rfl rfl rfl
  | quietly hfinished =>
      apply (settle_tallied halive hfinished ending).trans
      exact .of_aside [.closeClient] rfl (by simp [inBooks, isEnding]) rfl rfl rfl rfl
  | withError response _ hfinished =>
      apply (settle_tallied halive hfinished ending).trans
      exact .of_aside [.start (.writeError response) _] rfl
        (by simp [inBooks, isEnding]) rfl rfl rfl rfl

theorem Prepares.tallied (h : Prepares c c₁) : Tallied c c₁ := by
  obtain ⟨calls, hcalls, heq⟩ := h.calls
  obtain ⟨metrics, htotal, hcompleted, hfailed, hserver⟩ := h.server
  refine .of_aside calls heq (fun call hmem => ?_) h.counted h.finished ?_ ?_
  · rw [hcalls call hmem]
    rfl
  · rw [hserver]
    exact htotal
  · rw [hserver]
    show metrics.completedRequests + metrics.failedRequests = _
    rw [hcompleted, hfailed]
    rfl

theorem startProxyRequest_tallied (halive : c.server.alive = true) (hpermit : c.self.permit = none)
    (permit : ServerPermit) : Tallied c (c.startProxyRequest permit) := by
  rw [startProxyRequest_eq permit halive hpermit]
  exact .of_aside [.start (.requestTimer false) _, .start (.resolve _ _) _]
    (List.append_assoc ..) (by simp [inBooks, isEnding]) rfl rfl rfl rfl

/-- A request that is counted opens its session. -/
theorem counted_tallied (hcounted : c.self.requestCounted = false)
    (hfinished : c.self.finished = false) : Tallied c c.counted := by
  have hbefore : isOpen c.self = false := by simp [isOpen, hcounted]
  have hafter : isOpen c.counted.self = true := isOpen_eq_true.mpr ⟨rfl, hfinished⟩
  refine ⟨fun ha => ⟨?_, ?_⟩, ?_⟩
  · show (c.self.calls ++ [Call.recordStarted]).count Call.recordStarted = 1
    have hnone : c.self.calls.count .recordStarted = 0 := by
      have := ha.starts
      rw [hcounted] at this
      exact this
    rw [List.count_append, hnone]
    rfl
  · show (c.self.calls ++ [Call.recordStarted]).countP isEnding = if c.self.finished then 1 else 0
    have hnone : c.self.calls.countP isEnding = 0 := by
      have := ha.endings
      rw [hcounted] at this
      exact this
    rw [List.countP_append, hnone, hfinished]
    rfl
  · rw [share_false hbefore, share_true hafter]
    show c.server.metrics.totalRequests + 1 + _ = _ + (c.server.metrics.recorded + 1)
    omega

theorem Requested.tallied (h : Requested c c') (halive : c.server.alive = true)
    (hidle : c.self.Idle) (hcounted : c.self.requestCounted = false) : Tallied c c' := by
  have htallied : Tallied c c.counted := counted_tallied hcounted hidle.finished
  cases h with
  | unread =>
      refine ⟨fun ha => ⟨ha.starts, ?_⟩, ?_⟩
      · have := ha.endings
        rw [hcounted] at this
        show c.self.endings = if c.self.requestCounted && true then 1 else 0
        rw [this, hcounted]
        rfl
      · -- a request that was not counted opens nothing and closes nothing
        simp [share, isOpen, hcounted]
  | refused _ hends => exact hends.tallied halive
  | health response =>
      exact .of_aside [.start (.writeText response) _] rfl
        (by simp [inBooks, isEnding]) rfl rfl rfl rfl
  | admitted =>
      refine Tallied.trans ?_ (startProxyRequest_tallied (c := c.counted.setLimiter _) halive
        hidle.permit _)
      exact ⟨htallied.accounts, htallied.totals⟩
  | queued => exact ⟨htallied.accounts, htallied.totals⟩
  | turnedAway _ _ hends => exact htallied.trans (hends.tallied halive)

theorem timeOut_metrics : c.timeOut.server.metrics = c.server.metrics := by
  unfold timeOut
  split <;> rfl

theorem timeOut_tallied : Tallied c c.timeOut := by
  refine .of_aside [] ?_ (by simp) ?_ ?_ ?_ ?_
  · rw [timeOut_self, List.append_nil]
  · rw [timeOut_self]
  · rw [timeOut_self]
  · rw [timeOut_metrics]
  · rw [timeOut_metrics]

theorem deliver_tallied {s : ProxySession} (op : Op) (r : Outcome) (hself : c.self = s) :
    Tallied c (c.setSelf (World.deliver s op r)) := by
  refine .of_aside [] ?_ (by simp) ?_ ?_ rfl rfl
  · rw [setSelf, World.deliver_calls, List.append_nil, hself]
  · rw [setSelf, World.deliver_requestCounted, hself]
  · rw [setSelf, World.deliver_finished, hself]

theorem Handled.tallied {s : ProxySession} {e : Nat} (h : Handled op r c c')
    (hphase : s.Phase e) (hself : c.self = World.deliver s op r) (hmem : op ∈ s.pending)
    (halive : c.server.alive = true) : Tallied c c' := by
  have hopening (hop : op.isOpening = true) : c.self.Idle ∧ c.self.requestCounted = false := by
    obtain ⟨idle, counted, -⟩ := hphase.of_opening hmem hop
    rw [hself]
    exact ⟨idle.deliver op r, (World.deliver_requestCounted s op r).trans counted⟩
  cases h with
  | timer => exact .of_aside [] (by simp) (by simp) rfl rfl rfl rfl
  | timedOut _ _ _ _ _ hends =>
      exact timeOut_tallied.trans (hends.tallied (timeOut_frame.server.alive.trans halive))
  | expired _ _ _ _ hends => exact hends.tallied halive
  | read _ hop hrequested =>
      obtain ⟨idle, counted⟩ := hopening (by rw [hop]; rfl)
      have hread : Tallied c (c.setSelf { c.self with clientRequest := r.request }) :=
        .of_aside [] (by simp) (by simp) rfl rfl rfl rfl
      exact hread.trans (hrequested.tallied halive ⟨idle.1, idle.2, idle.3, idle.4⟩ counted)
  | wroteText _ hop =>
      -- a health response is not counted, so nothing is recorded when it ends
      obtain ⟨-, counted⟩ := hopening (by rw [hop]; rfl)
      have hended : Tallied c (c.setSelf { c.self with finished := true }) := by
        refine ⟨fun ha => ⟨ha.starts, ?_⟩, ?_⟩
        · have hendings := ha.endings
          rw [counted, Bool.false_and] at hendings
          show c.self.endings = if c.self.requestCounted && true then 1 else 0
          rw [hendings, counted]
          rfl
        · simp [share, isOpen, counted]
      exact hended.trans (.of_aside [.closeClient] rfl (by simp [inBooks, isEnding])
        rfl rfl rfl rfl)
  | wroteError =>
      exact .of_aside [.closeClient] rfl (by simp [inBooks, isEnding]) rfl rfl rfl rfl
  | ended _ c₁ _ _ _ hobserves hends =>
      have hprep := hobserves.prepares
      exact hprep.tallied.trans (hends.tallied (hobserves.frame.server.alive.trans halive))
  | relayed c₁ next hrelay =>
      exact hrelay.prepares.tallied.trans
        (.of_aside [.start next _] rfl (by simp [inBooks, isEnding]) rfl rfl rfl rfl)

theorem Requested.awaited (h : Requested c c') (hpermit : c.self.permit = none)
    (hopen : c'.self.isOpen = true) (hpending : c'.self.pending = []) :
    c'.server.posted c.id ≠ 0 := by
  obtain ⟨-, hfinished⟩ := isOpen_eq_true.mp hopen
  cases h with
  | unread => cases hfinished
  | refused _ hends => exact absurd hfinished (by simp [hends.finished])
  | health => simp at hpending
  | admitted halive =>
      rw [startProxyRequest_eq (c := c.counted.setLimiter _) _ halive hpermit] at hpending
      simp at hpending
  | queued =>
      show (c.server.post (.enqueue c.id)).posted c.id ≠ 0
      simp [ProxyServer.posted, ProxyServer.post]
  | turnedAway _ _ hends => exact absurd hfinished (by simp [hends.finished])

/-- After a handler an open session has something pending, or was just told to wait. -/
theorem Handled.awaited {s : ProxySession} {e : Nat} (h : Handled op r c c')
    (hphase : s.Phase e) (hself : c.self = World.deliver s op r) (hmem : op ∈ s.pending)
    (hdeliverable : World.deliverable s op r = true) (hopen : c'.self.isOpen = true)
    (hpending : c'.self.pending = []) : c'.server.posted c.id ≠ 0 := by
  obtain ⟨hcounted, hfinished⟩ := isOpen_eq_true.mp hopen
  cases h with
  | timer hop _ hqueue =>
      rw [hself, World.deliver_finished] at hfinished
      rw [hself, World.deliver_requestCounted] at hcounted
      cases hphase with
      | reading _ _ counted => rw [counted] at hcounted; cases hcounted
      | health _ _ _ counted => rw [counted] at hcounted; cases hcounted
      | asked _ _ _ pending => rw [pending] at hmem; cases hmem
      | waiting _ queued _ pending =>
          rw [pending, List.mem_singleton] at hmem
          -- its timer was not cancelled, so it has run out
          have hec : r.ec = none := by simpa [hmem, World.deliverable] using hdeliverable
          rcases hqueue false hmem with h' | h'
          · rw [hec] at h'; cases h'
          · rw [hself, World.deliver_queued, queued] at h'; cases h'
      | running op' running =>
          have hcontrol : c.self.control = [op'] := by
            rw [hself, World.deliver_control, hop, if_pos rfl, running.control]
          rw [control_of_pending_nil hpending] at hcontrol
          cases hcontrol
      | ended hover => rw [hover.finished] at hfinished; cases hfinished
  | timedOut _ _ _ _ _ hends => exact absurd hfinished (by simp [hends.finished])
  | expired _ _ _ _ hends => exact absurd hfinished (by simp [hends.finished])
  | read _ hop hrequested =>
      refine hrequested.awaited ?_ hopen hpending
      show c.self.permit = none
      rw [hself, World.deliver_permit]
      exact (hphase.of_opening hmem (by rw [hop]; rfl)).1.permit
  | wroteText => cases hfinished
  | wroteError response hop =>
      -- only a session that is over writes an error
      have hcontrol : op ∈ s.control := List.mem_filter.mpr ⟨hmem, by rw [hop]; rfl⟩
      have hover : c.self.finished = false := hfinished
      rw [hself, World.deliver_finished] at hover
      exact absurd (hphase.finished_of_error hmem (by rw [hop]; rfl)) (by simp [hover])
  | ended _ _ _ _ _ _ hends => exact absurd hfinished (by simp [hends.finished])
  | relayed c₁ next => simp at hpending

end Context

namespace World

variable {config : ProxyConfig} {server : ProxyServer} {w w' : World}

/-- The account of requests: the totals agree with the sessions, no session is counted or recorded
twice, and one that has nothing left to run is recorded. -/
structure Accounted (w : World) : Prop where
  totals : w.server.metrics.totalRequests = w.server.metrics.completedRequests +
    w.server.metrics.failedRequests + w.sessions.countP unrecorded
  once : ∀ s ∈ w.sessions, s.starts ≤ 1 ∧ s.endings ≤ s.starts
  recorded : ∀ i (hi : i < w.sessions.length), w.sessions[i].pending = [] →
    w.server.posted i = 0 → w.sessions[i].unrecorded = false

/-- At shutdown the strand drops a session that was told to wait. -/
def dropsRequest (w : World) : Event → Bool
  | .runTask => w.server.stopping && w.server.strand.head?.any fun
      | .enqueue _ => true
      | _ => false
  | _ => false

/-- The account by the flags of the sessions. -/
structure Books (w : World) : Prop where
  accounts : ∀ (i : Nat) (s : ProxySession), w.sessions[i]? = some s → s.Accounts
  totals : w.server.metrics.totalRequests =
    w.server.metrics.recorded + w.sessions.countP isOpen
  awaited : ∀ (i : Nat) (s : ProxySession), w.sessions[i]? = some s → s.isOpen = true →
    s.pending = [] → w.server.posted i ≠ 0

theorem Books.accounted (h : w.Books) : w.Accounted := by
  have hopen {i : Nat} {s : ProxySession} (hi : w.sessions[i]? = some s) :
      s.unrecorded = s.isOpen := (h.accounts i s hi).unrecorded_eq
  refine ⟨?_, fun s hmem => ?_, fun i hi hpending hposted => ?_⟩
  · have hcount : w.sessions.countP unrecorded = w.sessions.countP isOpen := by
      apply List.countP_congr
      intro s hmem
      obtain ⟨i, hi⟩ := List.getElem?_of_mem hmem
      rw [hopen hi]
    rw [hcount]
    exact h.totals
  · obtain ⟨i, hi⟩ := List.getElem?_of_mem hmem
    exact (h.accounts i s hi).once
  · have hget : w.sessions[i]? = some w.sessions[i] := List.getElem?_eq_getElem hi
    rw [hopen hget]
    by_contra hclosed
    exact h.awaited i _ hget (Bool.not_eq_false _ ▸ hclosed) hpending hposted

/-- One session has gone from `s` to what is now put back. -/
theorem Books.put {c c' : Context} (h : w.Books) (hget : w.sessions[c'.id]? = some c.self)
    (hmetrics : c.server.metrics = w.server.metrics) (htallied : Tallied c c')
    (hawaited : c'.self.isOpen = true → c'.self.pending = [] → c'.server.posted c'.id ≠ 0)
    (hother : ∀ j, j ≠ c'.id → c'.server.posted j = w.server.posted j) : (w.put c').Books := by
  refine ⟨forall_put h.accounts hget (htallied.accounts (h.accounts _ _ hget)), ?_, ?_⟩
  · have hset : (w.sessions.set c'.id c'.self).countP isOpen + share isOpen c.self =
        w.sessions.countP isOpen + share isOpen c'.self := countP_set hget
    have hchange := htallied.totals
    have htotals := h.totals
    rw [hmetrics] at hchange
    show c'.server.metrics.totalRequests =
      c'.server.metrics.recorded + (w.sessions.set c'.id c'.self).countP isOpen
    omega
  · intro j s hj
    rw [put_getElem? hget] at hj
    split at hj
    · rename_i hid
      obtain rfl := Option.some.inj hj
      exact hid ▸ hawaited
    · rename_i hid
      show s.isOpen = true → s.pending = [] → c'.server.posted j ≠ 0
      rw [hother j (Ne.symm hid)]
      exact h.awaited j s hj

theorem Books.complete {i : Nat} {op : Op} {r : Outcome} {s : ProxySession} (h : w.Books)
    (hsound : w.Sound) (halive : w.server.alive = true) (hlock : w.lock i = some s)
    (hmem : op ∈ s.pending) (hdeliverable : deliverable s op r = true) :
    (w.put ((w.context i (deliver s op r)).handle op r)).Books := by
  obtain ⟨hget, -⟩ := lock_eq_some.mp hlock
  have hphase : s.Phase (w.server.posted i) := hsound.phase i s hget
  have hhandled := handle_handled op r (w.context i (deliver s op r))
  have hid : ((w.context i (deliver s op r)).handle op r).id = i := hhandled.frame.id
  refine h.put (c := w.context i s) (by rw [hid]; exact hget) rfl ?_ ?_ ?_
  · exact (deliver_tallied op r rfl).trans (hhandled.tallied hphase rfl hmem halive)
  · rw [hid]
    exact hhandled.awaited hphase rfl hmem hdeliverable
  · rw [hid]
    intro j hj
    refine hhandled.posted_other (fun hread => ?_) hsound.onRelease hj
    show (deliver s op r).permit = none
    rw [deliver_permit]
    exact (hphase.of_opening hmem (by rw [hread]; rfl)).1.permit

theorem Books.quiet (h : w.Books) (hsound : w.Sound) (hq : Quiet w w') : w'.Books := by
  cases hq with
  | books _ hsame =>
      refine ⟨?_, ?_, ?_⟩
      · rw [hsame.sessions]
        exact h.accounts
      · rw [hsame.sessions, hsame.metrics]
        exact h.totals
      · intro i s hi
        rw [hsame.posted]
        exact h.awaited i s (hsame.sessions ▸ hi)
  | arrived sseParser accepting _ =>
      -- the session that was just accepted has no request yet
      refine ⟨fun i s hi => ?_, ?_, fun i s hi hopen => ?_⟩
      · rcases getElem?_snoc hi with hi | ⟨-, rfl⟩
        · exact h.accounts i s hi
        · exact ⟨rfl, rfl⟩
      · rw [countP_snoc, share_false rfl]
        exact h.totals
      · rcases getElem?_snoc hi with hi | ⟨-, rfl⟩
        · exact h.awaited i s hi hopen
        · cases hopen
  -- the other changes record nothing
  | closed i s hlock =>
      obtain ⟨hget, -⟩ := lock_eq_some.mp hlock
      refine h.put (c := w.context i s) hget rfl ?_ (h.awaited i s hget) fun _ _ => rfl
      exact .of_aside [.closeClient] rfl (by simp [inBooks, isEnding]) rfl rfl rfl rfl
  | enqueued i s strand hstrand hlock =>
      obtain ⟨hget, -⟩ := lock_eq_some.mp hlock
      have halive : w.server.alive = true :=
        hsound.alive_of_strand (hstrand ▸ List.cons_ne_nil _ _)
      rw [startQueueTimer_eq halive]
      refine h.put (c := w.context i s) hget rfl ?_ (fun _ hpending => ?_) fun j hj => ?_
      · exact .of_aside [.start (.queueTimer false) _] rfl (by simp [inBooks, isEnding])
          rfl rfl rfl rfl
      · simp at hpending
      · have hij : i ≠ j := Ne.symm hj
        show strand.count (.enqueue j) = w.server.strand.count (.enqueue j)
        rw [hstrand, List.count_cons_of_ne (by simpa using hij)]
  | promoted i s halive hlock hqueued hclosed hwaiting hslot =>
      obtain ⟨hget, -⟩ := lock_eq_some.mp hlock
      obtain ⟨idle, -, -, -⟩ := (hsound.phase i s hget).waiting_of_queued hqueued
      have htaken : w.takePromoted.Books := ⟨h.accounts, h.totals, h.awaited⟩
      rw [tryStartFromQueue_of_queued (c := w.takePromoted.context i s) _ hqueued idle.finished]
      have hdequeued : Tallied (w.takePromoted.context i s)
          (w.takePromoted.context i s).dequeued :=
        .of_aside [] (by simp [dequeued, enter]) (by simp) rfl rfl rfl rfl
      have htallied := hdequeued.trans (startProxyRequest_tallied
        (c := (w.takePromoted.context i s).dequeued) halive idle.permit (Permit.owning ()))
      have hid := (startProxyRequest_frame (c := (w.takePromoted.context i s).dequeued)
        (Permit.owning ())).id
      refine htaken.put (by rw [hid]; exact hget) rfl htallied (fun _ hpending => ?_) fun j _ => ?_
      · rw [startProxyRequest_eq (c := (w.takePromoted.context i s).dequeued) _ halive
          idle.permit] at hpending
        simp at hpending
      · rw [startProxyRequest_server (c := (w.takePromoted.context i s).dequeued) _ halive
          idle.permit]
        rfl
  | destructed i s hlock hpending hposted =>
      obtain ⟨hget, -⟩ := lock_eq_some.mp hlock
      rw [hsound.destruct_eq hlock hpending]
      refine h.put (c := w.context i s) hget rfl ?_ (h.awaited i s hget) fun _ _ => rfl
      exact .of_aside [] (List.append_nil _).symm (by simp) rfl rfl rfl rfl

theorem Quiet.alive (h : Quiet w w') (halive : w'.server.alive = true) :
    w.server.alive = true := by
  cases h with
  | books _ hsame => exact hsame.alive halive
  | arrived => exact halive
  | closed => exact halive
  | enqueued => exact startQueueTimer_frame.server.alive.symm.trans halive
  | promoted _ _ h => exact h
  | destructed => exact destruct_frame_server.alive.symm.trans halive

/-- The account is kept as long as the server object exists. -/
structure Accounting (w : World) : Prop where
  sound : w.Sound
  books : w.server.alive = true → w.Books

theorem Accounting.quiet (h : w.Accounting) (hq : Quiet w w') : w'.Accounting :=
  ⟨h.sound.quiet hq, fun halive => (h.books (hq.alive halive)).quiet h.sound hq⟩

theorem dropsRequest_of_enqueue {i : Nat} {strand : List Task}
    (hstopping : w.server.stopping = true)
    (hstrand : w.server.strand = .enqueue i :: strand) : dropsRequest w .runTask = true := by
  rw [dropsRequest, hstopping, hstrand]
  rfl

theorem Accounting.step {e : Event} (h : w.Accounting) (hok : dropsRequest w e = false)
    (hstep : World.step w e = some w') : w'.Accounting := by
  rcases step_cases h.sound hstep with
    ⟨i, op, r, s, -, hlock, hmem, hdeliverable, rfl⟩ |
      ⟨i, s, strand, rfl, hstrand, hstopping, -, -⟩ | hquiet
  · refine ⟨h.sound.complete hlock hmem hdeliverable, fun halive => ?_⟩
    have hframe := (handle_handled op r (w.context i (deliver s op r))).frame
    have hbefore : w.server.alive = true := hframe.server.alive.symm.trans halive
    exact (h.books hbefore).complete h.sound hbefore hlock hmem hdeliverable
  · rw [dropsRequest_of_enqueue hstopping hstrand] at hok
    cases hok
  · clear hstep hok
    induction hquiet with
    | refl => exact h
    | tail _ hq ih => exact ih.quiet hq

/-- What the dropped enqueue task does. -/
theorem dropsRequest_eq {e : Event} (h : w.Sound) (hbad : dropsRequest w e = true)
    (hstep : World.step w e = some w') :
    ∃ i s strand, w.server.strand = .enqueue i :: strand ∧ w.lock i = some s ∧
      w' = (w.setStrand strand).put ((w.setStrand strand).context i s).closeClient := by
  cases e with
  | runTask =>
      rw [dropsRequest, Bool.and_eq_true] at hbad
      obtain ⟨hstopping, hhead⟩ := hbad
      cases hstrand : w.server.strand with
      | nil => rw [hstrand] at hhead; cases hhead
      | cons task strand =>
          rw [hstrand, List.head?_cons, Option.any_some] at hhead
          cases task with
          | promote => cases hhead
          | stop => cases hhead
          | enqueue i =>
              obtain ⟨s, hlock⟩ := h.lock_of_head hstrand
              refine ⟨i, s, strand, rfl, hlock, ?_⟩
              simp only [World.step, hstrand, Option.some.injEq] at hstep
              have hstopping' : (w.setStrand strand).server.stopping = true := hstopping
              rw [← hstep, runTask, enqueued, if_pos hstopping']
              exact onSession_of_lock (w := w.setStrand strand) hlock _
  | _ => cases hbad

/-- The session of a dropped enqueue task is open with nothing left to run. -/
theorem dropsRequest_leaves {e : Event} (h : w.Accounting) (hbad : dropsRequest w e = true)
    (hstep : World.step w e = some w') :
    w'.server.alive = true ∧ ∃ (i : Nat) (s : ProxySession), w'.sessions[i]? = some s ∧
      s.Accounts ∧ s.isOpen = true ∧ s.pending = [] ∧ w'.server.posted i = 0 := by
  obtain ⟨i, s, strand, hstrand, hlock, rfl⟩ := dropsRequest_eq h.sound hbad hstep
  obtain ⟨hget, -⟩ := lock_eq_some.mp hlock
  have halive : w.server.alive = true := h.sound.alive_of_strand (hstrand ▸ List.cons_ne_nil _ _)
  obtain ⟨idle, counted, pending, hposted⟩ := h.sound.asked_of_head hstrand hlock
  have hput := put_getElem? (w := w.setStrand strand)
    (c := ((w.setStrand strand).context i s).closeClient) hget i
  rw [if_pos (show ((w.setStrand strand).context i s).closeClient.id = i from rfl)] at hput
  have haccounts : (s.note .closeClient).Accounts :=
    ((h.books halive).accounts i s hget).extend [.closeClient] rfl
      (by simp [inBooks, isEnding]) rfl rfl
  exact ⟨halive, i, _, hput, haccounts, isOpen_eq_true.mpr ⟨counted, idle.finished⟩, pending,
    hposted⟩

theorem dropsRequest_breaks {e : Event} (h : w.Accounting) (hbad : dropsRequest w e = true)
    (hstep : World.step w e = some w') : w'.server.alive = true ∧ ¬ w'.Accounted := by
  obtain ⟨halive, i, s, hget, haccounts, hopen, hpending, hposted⟩ :=
    dropsRequest_leaves h hbad hstep
  refine ⟨halive, fun haccounted => ?_⟩
  obtain ⟨hlt, rfl⟩ := List.getElem?_eq_some_iff.mp hget
  have hclosed := haccounted.recorded i hlt hpending hposted
  rw [haccounts.unrecorded_eq, hopen] at hclosed
  cases hclosed

theorem Accounting.init (hcreate : ProxyServer.create config = .ok server) :
    (World.init server).Accounting := by
  have hstarted := create_started hcreate
  refine ⟨Sound.init hcreate, fun _ => ⟨fun _ _ hi => (nomatch hi), ?_, fun _ _ hi => (nomatch hi)⟩⟩
  show server.metrics.totalRequests = server.metrics.completedRequests +
    server.metrics.failedRequests + 0
  rw [hstarted.totalRequests, hstarted.completedRequests, hstarted.failedRequests]

/-- While the server exists every request is accounted for in every state of a run, exactly when
the strand drops no session in it. -/
theorem accounted_iff {events : List Event} (hcreate : ProxyServer.create config = .ok server)
    (hrun : run World.step (World.init server) events = some w) :
    Always World.step (fun w => w.server.alive = true → w.Accounted) (World.init server) events ↔
      Meets World.step (fun w e => dropsRequest w e = false) (World.init server) events := by
  refine always_iff_meets hrun (Accounting.init hcreate)
    (fun _ h halive => (h.books halive).accounted)
    (fun _ _ _ h hok hstep => h.step hok hstep) fun _ _ _ h hbad hstep haccounted => ?_
  obtain ⟨halive, hbroken⟩ := dropsRequest_breaks h (by simpa using hbad) hstep
  exact hbroken (haccounted halive)

instance (w : World) : Decidable w.Accounted :=
  decidable_of_iff (w.server.metrics.totalRequests = w.server.metrics.completedRequests +
      w.server.metrics.failedRequests + w.sessions.countP unrecorded ∧
    (∀ s ∈ w.sessions, s.starts ≤ 1 ∧ s.endings ≤ s.starts) ∧
    ∀ i (hi : i < w.sessions.length), w.sessions[i].pending = [] →
      w.server.posted i = 0 → w.sessions[i].unrecorded = false)
    ⟨fun h => ⟨h.1, h.2.1, h.2.2⟩, fun h => ⟨h.1, h.2, h.3⟩⟩

/-- The second request is told to wait while `stop` has posted its task already. -/
def askedWhileStopping : List Event :=
  [.accept, .complete 0 .readRequest { request := chatRequest }, .accept, .stop,
    .complete 1 .readRequest { request := chatRequest }, .runTask, .runTask]

theorem accounted_askedWhileStopping :
    (run World.step (World.init oneSlotServer) askedWhileStopping).map
      (fun w => decide (w.server.alive = true → w.Accounted)) = some false := by
  decide

/-- A request that waits until it times out. -/
def askedThenTimedOut : List Event :=
  [.accept, .complete 0 .readRequest { request := chatRequest }, .accept,
    .complete 1 .readRequest { request := chatRequest }, .runTask,
    .complete 1 (.queueTimer false) {}]

theorem accounted_askedThenTimedOut :
    Always World.step (fun w => w.server.alive = true → w.Accounted) (World.init oneSlotServer)
      askedThenTimedOut :=
  have hrun : (run World.step (World.init oneSlotServer) askedThenTimedOut).isSome = true := by
    decide
  (accounted_iff oneSlotServer_create (Option.some_get hrun).symm).mpr (by decide)

end World

end VllmSloProxy
