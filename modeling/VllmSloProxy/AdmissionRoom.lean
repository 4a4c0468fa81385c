import VllmSloProxy.Lib.Simulation
import VllmSloProxy.Lib.WaitingRoom
import VllmSloProxy.OneThread

/-!
# The proxy is a waiting room

What the proxy is for: `max_inflight` desks at the upstream, and `max_queue_size` chairs in front of
them.  Every run of the event loop, up to a call of `stop`, is a run of such a room: the sessions
with a permit are at the desks, and those that the limiter has told to wait form the line.  What the
code records of a session and what the limiter answers to it say which visit a step is.
-/

namespace VllmSloProxy

open ProxySession Context WaitingRoom Transition Relation Population

/-- What the limiter's answer makes of a session that asks for a slot. -/
def answeredVisit (i : Nat) : InflightDecision → Visit Nat
  | .admitted => .enter i
  | .queue => .wait i
  | .reject | .closed => .refuse i

/-- What a turn of the session `i` is to the room: it comes when it is counted as started, and it
goes when its ending is recorded. -/
def ProxySession.visit (i : Nat) (answer : InflightDecision) (s s' : ProxySession) :
    Option (Visit Nat) :=
  if s.starts < s'.starts then some (answeredVisit i answer)
  else if s.endings < s'.endings then some (if s.queued then .giveUp i else .leave i)
  else none

/-- What the limiter would answer to a session that asks now. -/
def World.answer (w : World) : InflightDecision :=
  (w.server.limiter.tryAcquireOrQueue ()).1.decision

/-- The visits of a step from `w` to `w'`: the handlers of a session are its own turns, and a task
of the strand calls in whom the journal has as started. -/
def World.visitsOf (w : World) (e : Event) (w' : World) : List (Visit Nat) :=
  match e with
  | .complete i _ _ =>
      (w.sessions[i]?.bind fun s => w'.sessions[i]?.bind (visit i w.answer s)).toList
  | _ => (w'.started.drop w.started.length).map .callIn

/-- The entry that a visit makes in the journal of the queue. -/
def queueEntry : Visit Nat → Option QueueEvent
  | .wait i => some (.asked i)
  | .callIn i => some (.started i)
  | .giveUp i => some (.timedOut i)
  | _ => none

namespace ProxySession

variable {s s' : ProxySession} {i : Nat} {answer : InflightDecision}

theorem Accounts.starts_eq (h : s.Accounts) : s.starts = s.endings + share isOpen s := by
  unfold share isOpen
  rw [h.starts, h.endings]
  cases s.requestCounted <;> cases s.finished <;> rfl

/-- Calls that record nothing leave the sums as they are. -/
theorem records_extend {more : List Call} (hcalls : s'.calls = s.calls ++ more)
    (hmore : ∀ call ∈ more, inBooks call = false) :
    s'.starts = s.starts ∧ s'.endings = s.endings := by
  obtain ⟨hstarts, hendings⟩ := count_eq_zero_of_not_inBooks hmore
  unfold starts endings
  rw [hcalls, List.count_append, List.countP_append, hstarts, hendings]
  exact ⟨rfl, rfl⟩

/-- A session that is counted comes, and unless it is open then it also goes. -/
theorem Accounts.comes (h : s.Accounts) (h' : s'.Accounts) (hnew : s.requestCounted = false)
    (hnow : s'.requestCounted = true) :
    visit i answer s s' = some (answeredVisit i answer) ∧ s'.starts = s.starts + 1 ∧
      s'.endings + share isOpen s' = s.endings + 1 := by
  have hbefore := h.starts
  have hends := h.endings
  have hafter := h'.starts
  rw [hnew, if_neg Bool.false_ne_true] at hbefore
  rw [hnew, Bool.false_and, if_neg Bool.false_ne_true] at hends
  rw [hnow, if_pos rfl] at hafter
  refine ⟨if_pos (by omega), by omega, ?_⟩
  rw [← h'.starts_eq]
  omega

/-- A session that was counted before goes when it is open no more. -/
theorem Accounts.goes (h : s.Accounts) (h' : s'.Accounts)
    (hcounted : s'.requestCounted = s.requestCounted) :
    visit i answer s s' = (if s.endings < s'.endings then
      some (if s.queued then .giveUp i else .leave i) else none) ∧
      s'.starts = s.starts ∧ s'.endings + share isOpen s' = s.endings + share isOpen s := by
  have hstarts : s'.starts = s.starts := by rw [h'.starts, h.starts, hcounted]
  refine ⟨if_neg (by omega), hstarts, ?_⟩
  rw [← h'.starts_eq, ← h.starts_eq, hstarts]

end ProxySession

namespace Context

variable {c c' c₁ : Context} {op next : Op} {r : Outcome} {ending : Ending}

/-- Nobody comes, and nobody in the line moves; a desk may become free. -/
structure Stays (c c' : Context) : Prop where
  journal : c'.journal = c.journal
  requests : c'.server.metrics.totalRequests = c.server.metrics.totalRequests
  counted : c'.self.requestCounted = c.self.requestCounted
  permit : c'.self.permitValid = true → c.self.permitValid = true

theorem Stays.trans (h : Stays c c₁) (h' : Stays c₁ c') : Stays c c' :=
  ⟨h'.journal.trans h.journal, h'.requests.trans h.requests, h'.counted.trans h.counted,
    fun hp => h.permit (h'.permit hp)⟩

theorem Stays.of_self (s : ProxySession) (hpermit : s.permitValid = c.self.permitValid)
    (hcounted : s.requestCounted = c.self.requestCounted) : Stays c (c.setSelf s) :=
  ⟨rfl, rfl, hcounted, fun hp => hpermit.symm.trans hp⟩

theorem settle_stays (ending : Ending) : Stays c (c.settle ending) := by
  refine ⟨by rw [settle_eq], ?_, by rw [settle_eq], fun hp => ?_⟩
  · rw [settle_metrics]
    unfold recordedServer
    split
    · exact Ending.record_total ending _
    · rfl
  · rw [settle_eq] at hp
    cases hp

theorem Ends.stays (h : Ends ending c c') : Stays c c' := by
  cases h with
  | already => exact .of_self c.self rfl rfl
  | quietly => exact (settle_stays ending).trans (.of_self _ rfl rfl)
  | withError => exact (settle_stays ending).trans (.of_self _ rfl rfl)

theorem Prepares.stays (h : Prepares c c₁) : Stays c c₁ := by
  refine ⟨h.journal, ?_, h.counted, fun hp => h.permitValid.symm.trans hp⟩
  obtain ⟨metrics, htotal, -, -, hserver⟩ := h.server
  rw [hserver]
  exact htotal

/-- The session has just read a request, and it is counted. -/
structure Asks (c c' : Context) : Prop where
  permit : c.self.permitValid = false
  uncounted : c.self.requestCounted = false
  counted : c'.self.requestCounted = true
  requests : c'.server.metrics.totalRequests = c.server.metrics.totalRequests + 1

/-- What a handler means to the room. -/
inductive Attends (c c' : Context) : Prop
  | stays (hstays : Stays c c')
  | entered (hasks : Asks c c')
      (hanswer : (c.server.limiter.tryAcquireOrQueue ()).1.decision = .admitted)
      (hslot : c.server.limiter.currentInflight < c.server.limiter.maxInflight)
      (hjournal : c'.journal = c.journal) (hpermit : c'.self.permitValid = true)
  | waited (hasks : Asks c c')
      (hanswer : (c.server.limiter.tryAcquireOrQueue ()).1.decision = .queue)
      (hfull : c.server.limiter.maxInflight ≤ c.server.limiter.currentInflight)
      (hroom : c.server.limiter.queuedRequests < c.server.limiter.maxQueueSize)
      (hjournal : c'.journal = c.journal ++ [.asked c.id]) (hpermit : c'.self.permitValid = false)
  | refused (hasks : Asks c c')
      (hanswer : (c.server.limiter.tryAcquireOrQueue ()).1.decision = .reject)
      (hfull : c.server.limiter.maxInflight ≤ c.server.limiter.currentInflight)
      (hcrowded : c.server.limiter.maxQueueSize ≤ c.server.limiter.queuedRequests)
      (hjournal : c'.journal = c.journal) (hpermit : c'.self.permitValid = false)
  | gaveUp (hqueued : c.self.queued = true)
      (hjournal : c'.journal = c.journal ++ [.timedOut c.id])
      (hrequests : c'.server.metrics.totalRequests = c.server.metrics.totalRequests)
      (hcounted : c'.self.requestCounted = c.self.requestCounted)
      (hpermit : c'.self.permitValid = c.self.permitValid)

/-- The session may have been touched before, but not in what the room sees. -/
theorem Attends.of_setSelf {s : ProxySession} (h : Attends (c.setSelf s) c')
    (hpermit : s.permitValid = c.self.permitValid)
    (hcounted : s.requestCounted = c.self.requestCounted) (hqueued : s.queued = c.self.queued) :
    Attends c c' := by
  have hasked (hasks : Asks (c.setSelf s) c') : Asks c c' :=
    ⟨hpermit.symm.trans hasks.permit, hcounted.symm.trans hasks.uncounted, hasks.counted,
      hasks.requests⟩
  cases h with
  | stays hstays => exact .stays ((Stays.of_self s hpermit hcounted).trans hstays)
  | entered hasks hanswer hslot hjournal hnow =>
      exact .entered (hasked hasks) hanswer hslot hjournal hnow
  | waited hasks hanswer hfull hroom hjournal hnow =>
      exact .waited (hasked hasks) hanswer hfull hroom hjournal hnow
  | refused hasks hanswer hfull hcrowded hjournal hnow =>
      exact .refused (hasked hasks) hanswer hfull hcrowded hjournal hnow
  | gaveUp hwaited hjournal hrequests hkept hsame =>
      exact .gaveUp (hqueued.symm.trans hwaited) hjournal hrequests (hkept.trans hcounted)
        (hsame.trans hpermit)

/-- The limiter that serves never answers that it is closed, so it refuses for want of a chair. -/
theorem Answered.attends (h : Answered c c') (hpermit : c.self.permit = none)
    (hnew : c.self.requestCounted = false) (hclosed : c.server.limiter.closed = false) :
    Attends c c' := by
  have hnone : c.self.permitValid = false := by rw [ProxySession.permitValid, hpermit]; rfl
  have hcases := c.server.limiter.tryAcquireOrQueue_cases ()
  cases h with
  | dismissed _ hends => exact .stays hends.stays
  | health => exact .stays (.of_self _ rfl rfl)
  | admitted halive hanswer =>
      have hdecision := congrArg (fun answer => answer.1.decision) hanswer
      rw [hanswer] at hcases
      rw [startProxyRequest_eq (c := c.counted.setLimiter _) _ halive hpermit]
      rcases hcases with ⟨-, heq⟩ | ⟨-, hslot, -⟩ | ⟨-, -, -, heq⟩ | ⟨-, -, -, heq⟩
      · cases (Prod.mk.inj heq).1
      · exact .entered ⟨hnone, hnew, rfl, rfl⟩ hdecision hslot rfl rfl
      · cases (Prod.mk.inj heq).1
      · cases (Prod.mk.inj heq).1
  | queued hanswer =>
      have hdecision := congrArg (fun answer => answer.1.decision) hanswer
      rw [hanswer] at hcases
      rcases hcases with ⟨-, heq⟩ | ⟨-, -, heq⟩ | ⟨-, hfull, hroom, -⟩ | ⟨-, -, -, heq⟩
      · cases (Prod.mk.inj heq).1
      · cases (Prod.mk.inj heq).1
      · exact .waited ⟨hnone, hnew, rfl, rfl⟩ hdecision hfull hroom rfl hnone
      · cases (Prod.mk.inj heq).1
  | turnedAway _ decision hdecision hanswer hends =>
      have hrefuses := hends.stays
      have hpermit' : c'.self.permitValid = false :=
        Bool.eq_false_iff.mpr fun hp => Bool.false_ne_true (hnone.symm.trans (hrefuses.permit hp))
      rw [hanswer] at hcases
      rcases hcases with ⟨hclosed', -⟩ | ⟨-, -, heq⟩ | ⟨-, -, -, heq⟩ | ⟨-, hfull, hcrowded, heq⟩
      · exact absurd (hclosed.symm.trans hclosed') Bool.false_ne_true
      · rcases hdecision with hd | hd <;> rw [hd] at heq <;> cases (Prod.mk.inj heq).1
      · rcases hdecision with hd | hd <;> rw [hd] at heq <;> cases (Prod.mk.inj heq).1
      · refine .refused ⟨hnone, hnew, hrefuses.counted, hrefuses.requests⟩ ?_ hfull hcrowded
          hrefuses.journal hpermit'
        rw [hanswer, heq]

theorem Handled.attends (h : Handled op r c c') (hop : op ≠ .readRequest)
    (halive : c.server.alive = true) (hheld : c.self.queued = true → c.self.permitValid = false) :
    Attends c c' := by
  cases h with
  | timer => exact .stays (.of_self c.self rfl rfl)
  | timedOut _ _ _ _ hqueued hends =>
      have hout := hends.stays
      rw [timeOut_eq halive] at hout
      have hnone : c.self.permitValid = false := hheld hqueued
      refine .gaveUp hqueued hout.journal hout.requests hout.counted
        (hnone ▸ Bool.eq_false_iff.mpr fun hp => ?_)
      exact Bool.false_ne_true (hnone.symm.trans (hout.permit hp))
  | expired _ _ _ _ hends => exact .stays hends.stays
  | read _ hread => exact absurd hread hop
  | wroteText => exact .stays ⟨rfl, rfl, rfl, fun hp => hp⟩
  | wroteError => exact .stays ⟨rfl, rfl, rfl, fun hp => hp⟩
  | ended _ _ _ _ _ hobserves hends => exact .stays (hobserves.prepares.stays.trans hends.stays)
  | relayed _ _ hrelay => exact .stays (hrelay.prepares.stays.trans (.of_self _ rfl rfl))

end Context

namespace World

variable {config : ProxyConfig} {server : ProxyServer} {w w' : World} {e : Event} {i : Nat}
  {s : ProxySession} {c : Context}

/-- The sessions that hold a slot. -/
def holders (w : World) : Finset Nat :=
  (Finset.range w.sessions.length).filter fun i => w.sessions[i]?.any permitValid

theorem mem_holders : i ∈ w.holders ↔ ∃ s, w.sessions[i]? = some s ∧ s.permitValid = true := by
  unfold holders
  rw [Finset.mem_filter, Finset.mem_range, Option.any_eq_true]
  constructor
  · exact fun h => h.2
  · intro h
    obtain ⟨s, hs, hvalid⟩ := h
    exact ⟨(List.getElem?_eq_some_iff.mp hs).1, s, hs, hvalid⟩

theorem card_holders (w : World) : w.holders.card = w.sessions.countP permitValid := by
  rw [← countP_range permitValid w.sessions, List.countP_eq_length_filter]
  simp [holders, Finset.card_def, Finset.filter_val, Finset.range_val, Multiset.range]

/-- One session is put back, with or without a slot. -/
theorem holders_put (hget : w.sessions[c.id]? = some s) :
    (w.put c).holders =
      if c.self.permitValid then insert c.id w.holders else w.holders.erase c.id := by
  ext j
  rw [mem_holders, put_getElem? hget]
  by_cases hj : c.id = j
  · subst hj
    rw [if_pos rfl]
    cases hvalid : c.self.permitValid <;> simp [hvalid]
  · rw [if_neg hj, ← mem_holders]
    have hne : j ≠ c.id := Ne.symm hj
    split
    · simp [hne]
    · simp [hne]

theorem holders_put_of_same (hget : w.sessions[c.id]? = some s)
    (hsame : c.self.permitValid = s.permitValid) : (w.put c).holders = w.holders := by
  rw [holders_put hget, hsame]
  split
  · rename_i hvalid
    exact Finset.insert_eq_self.mpr (mem_holders.mpr ⟨s, hget, hvalid⟩)
  · rename_i hvalid
    apply Finset.erase_eq_self.mpr
    intro hmem
    obtain ⟨s', hs', hvalid'⟩ := mem_holders.mp hmem
    rw [hget] at hs'
    exact hvalid (Option.some.inj hs' ▸ hvalid')

/-- A task of the strand has started the sessions `members`, in order, and done no more. -/
structure Called (w w' : World) (members : List Nat) : Prop where
  journal : w'.journal = w.journal ++ members.map .started
  requests : w'.server.metrics.totalRequests = w.server.metrics.totalRequests
  holders : w'.holders = w.holders ∪ members.toFinset

theorem Called.nobody (hjournal : w'.journal = w.journal)
    (hmetrics : w'.server.metrics = w.server.metrics) (hholders : w'.holders = w.holders) :
    Called w w' [] :=
  ⟨by simp [hjournal], by rw [hmetrics], by simp [hholders]⟩

theorem Called.trans {w'' : World} {members members' : List Nat} (h : Called w w' members)
    (h' : Called w' w'' members') : Called w w'' (members ++ members') := by
  refine ⟨?_, h'.requests.trans h.requests, ?_⟩
  · rw [h'.journal, h.journal, List.map_append, List.append_assoc]
  · rw [h'.holders, h.holders, List.toFinset_append, Finset.union_assoc]

theorem Quiet.called (hq : Quiet w w') (hsound : w.Sound) : ∃ members, Called w w' members := by
  cases hq with
  | books _ hsame =>
      refine ⟨[], .nobody hsame.journal hsame.metrics ?_⟩
      unfold World.holders
      rw [hsame.sessions]
  | arrived sseParser accepting =>
      refine ⟨[], .nobody rfl rfl ?_⟩
      ext j
      rw [mem_holders, mem_holders]
      -- the new session has no permit
      have hnew : (({ sseParser } : ProxySession).start .readRequest).permitValid = false := rfl
      constructor
      · intro h
        obtain ⟨s, hs, hvalid⟩ := h
        rcases getElem?_snoc hs with hs | ⟨-, rfl⟩
        · exact ⟨s, hs, hvalid⟩
        · rw [hnew] at hvalid
          cases hvalid
      · intro h
        obtain ⟨s, hs, hvalid⟩ := h
        exact ⟨s, (List.getElem?_append_left (List.getElem?_eq_some_iff.mp hs).1).trans hs, hvalid⟩
  | closed i s hlock =>
      obtain ⟨hget, -⟩ := lock_eq_some.mp hlock
      exact ⟨[], .nobody rfl rfl (holders_put_of_same (c := (w.context i s).closeClient) hget rfl)⟩
  | enqueued i s strand hstrand hlock =>
      obtain ⟨hget, -⟩ := lock_eq_some.mp hlock
      have halive : w.server.alive = true :=
        hsound.alive_of_strand (hstrand ▸ List.cons_ne_nil _ _)
      rw [startQueueTimer_eq halive]
      exact ⟨[], .nobody rfl rfl (holders_put_of_same (w := w.takeEnqueue i strand)
        (c := (((w.takeEnqueue i strand).context i s).setSelf _)) hget rfl)⟩
  | promoted i s halive hlock hqueued _ _ _ =>
      obtain ⟨hget, -⟩ := lock_eq_some.mp hlock
      obtain ⟨idle, -, -, -⟩ := (hsound.phase i s hget).waiting_of_queued hqueued
      rw [tryStartFromQueue_of_queued _ hqueued idle.finished,
        startProxyRequest_eq (c := (w.takePromoted.context i s).dequeued) _ halive idle.permit]
      refine ⟨[i], rfl, rfl, ?_⟩
      rw [holders_put (w := w.takePromoted)
        (c := (w.takePromoted.context i s).dequeued.setSelf _) hget]
      show insert i w.holders = _
      rw [List.toFinset_cons, List.toFinset_nil, Finset.union_insert, Finset.union_empty]
  | destructed i s hlock hpending _ =>
      obtain ⟨hget, -⟩ := lock_eq_some.mp hlock
      rw [hsound.destruct_eq hlock hpending]
      exact ⟨[], .nobody rfl rfl
        (holders_put_of_same (c := (w.context i s).setSelf { s with destroyed := true }) hget rfl)⟩

theorem quiets_called (hquiet : ReflTransGen Quiet w w') (hsound : w.Sound) :
    ∃ members, Called w w' members := by
  induction hquiet with
  | refl => exact ⟨[], .nobody rfl rfl rfl⟩
  | tail hfirst hq ih =>
      obtain ⟨members, hcalled⟩ := ih
      obtain ⟨members', hcalled'⟩ := hq.called (hsound.quiets hfirst)
      exact ⟨members ++ members', hcalled.trans hcalled'⟩

/-- The sum that `f` gives for the session `i`, if it is there. -/
def tally (w : World) (f : ProxySession → Nat) (i : Nat) : Nat := w.sessions[i]?.elim 0 f

variable {desks chairs : Nat} {room room' : Room Nat desks chairs} {visits : List (Visit Nat)}

/-- The room shows the slots and the line, and the visits so far show the records: the journal of
the queue, and of each session how often it was counted as started and how often its ending was. -/
structure InRoom (w : World) (room : Room Nat desks chairs) (visits : List (Visit Nat)) : Prop where
  atDesk : room.atDesk = w.holders
  line : room.line = w.waiting
  journal : visits.filterMap queueEntry = w.journal
  came : ∀ i, visits.countP (fun v => v.arrives && v.who == i) = w.tally starts i
  gone : ∀ i, visits.countP (fun v => v.departs && v.who == i) = w.tally endings i
  requests : visits.countP Visit.arrives = w.server.metrics.totalRequests

theorem tally_put {f : ProxySession → Nat} (hget : w.sessions[c.id]? = some s) (n : Nat)
    (hf : f c.self = f s + n) (j : Nat) :
    (w.put c).tally f j = w.tally f j + if c.id = j then n else 0 := by
  unfold tally
  rw [put_getElem? hget]
  split
  · rename_i hj
    rw [← hj, hget]
    exact hf
  · rfl

/-- One visit of the session whose handler has run. -/
theorem InRoom.visited {v : Visit Nat} (h : InRoom w room visits)
    (hget : w.sessions[c.id]? = some s) (hwho : v.who = c.id)
    (hdesk : room'.atDesk = (w.put c).holders) (hline : room'.line = (w.put c).waiting)
    (hjournal : c.journal = w.journal ++ (queueEntry v).toList)
    (hcame : c.self.starts = s.starts + [v].countP Visit.arrives)
    (hgone : c.self.endings = s.endings + [v].countP Visit.departs)
    (hrequests : c.server.metrics.totalRequests =
      w.server.metrics.totalRequests + [v].countP Visit.arrives) :
    InRoom (w.put c) room' (visits ++ [v]) := by
  have hone (p : Visit Nat → Bool) (j : Nat) : [v].countP (fun v => p v && v.who == j) =
      if c.id = j then [v].countP p else 0 := by
    rw [List.countP_singleton, List.countP_singleton, hwho]
    by_cases hj : c.id = j <;> simp [hj]
  refine ⟨hdesk, hline, ?_, fun j => ?_, fun j => ?_, ?_⟩
  · show _ = c.journal
    rw [List.filterMap_append, h.journal, hjournal]
    cases hentry : queueEntry v <;> simp [hentry]
  · rw [List.countP_append, h.came, hone, tally_put hget _ hcame]
  · rw [List.countP_append, h.gone, hone, tally_put hget _ hgone]
  · show _ = c.server.metrics.totalRequests
    rw [List.countP_append, h.requests, hrequests]

/-- The line is known from the journal. -/
theorem Lined.waiting_same (h : w.Lined) (h' : w'.Lined) (hjournal : w'.journal = w.journal) :
    w'.waiting = w.waiting := by
  have hline := h'.line
  unfold asked started timedOut at hline
  rw [hjournal] at hline
  exact h.line.waiting_unique hline

theorem Lined.waiting_asked (h : w.Lined) (h' : (w.put c).Lined) (hnew : c.id ∉ w.asked)
    (hjournal : c.journal = w.journal ++ [.asked c.id]) :
    (w.put c).waiting = w.waiting ++ [c.id] := by
  have ⟨hasked, hstarted, htimedOut⟩ : (w.put c).asked = w.asked ++ [c.id] ∧
      (w.put c).started = w.started ∧ (w.put c).timedOut = w.timedOut := by
    simpa [QueueEvent.askedId, QueueEvent.startedId, QueueEvent.timedOutId] using
      histories hjournal
  have hline := h'.line
  rw [hasked, hstarted, htimedOut] at hline
  exact (h.line.join hnew).waiting_unique hline

theorem Lined.waiting_timedOut (h : w.Lined) (h' : (w.put c).Lined) (hmem : c.id ∈ w.waiting)
    (hjournal : c.journal = w.journal ++ [.timedOut c.id]) :
    (w.put c).waiting = w.waiting.erase c.id := by
  have ⟨hasked, hstarted, htimedOut⟩ : (w.put c).asked = w.asked ∧
      (w.put c).started = w.started ∧ (w.put c).timedOut = w.timedOut ++ [c.id] := by
    simpa [QueueEvent.askedId, QueueEvent.startedId, QueueEvent.timedOutId] using
      histories hjournal
  have hline := h'.line
  rw [hasked, hstarted, htimedOut] at hline
  rw [(h.line.leave hmem).waiting_unique hline, h.line.waiting_nodup.erase_eq_filter]
  apply List.filter_congr
  intro j _
  by_cases hj : j = c.id <;> simp [hj]

theorem Called.started {members : List Nat} (h : Called w w' members) :
    w'.started = w.started ++ members := by
  unfold World.started
  rw [h.journal, List.filterMap_append, List.filterMap_map]
  congr 1
  exact List.filterMap_some

theorem Called.waiting {members : List Nat} (h : Called w w' members) (hlined : w.Lined)
    (hlined' : w'.Lined) : w.waiting = members ++ w'.waiting := by
  have hsame (f : QueueEvent → Option Nat) (hf : ∀ i, f (.started i) = none) :
      w'.journal.filterMap f = w.journal.filterMap f := by
    rw [h.journal, List.filterMap_append, List.filterMap_map]
    have hnone : members.filterMap (f ∘ QueueEvent.started) = [] :=
      List.filterMap_eq_nil_iff.mpr fun i _ => hf i
    rw [hnone, List.append_nil]
  have hasked : w'.asked = w.asked := hsame _ fun _ => rfl
  have htimedOut : w'.timedOut = w.timedOut := hsame _ fun _ => rfl
  have horder := hlined'.line.order
  rw [hasked, htimedOut, h.started, hlined.line.order, List.append_assoc] at horder
  exact List.append_cancel_left horder

/-- The books balance within the limits of the configuration. -/
structure Managed (config : ProxyConfig) (w : World) : Prop where
  balancing : w.Balancing
  configured : w.server.Configured config

theorem Managed.step (h : Managed config w) (he : e ≠ .stop) (hstep : World.step w e = some w') :
    Managed config w' := by
  have hany : KeptFrom config w fun _ _ => True :=
    ⟨fun _ _ => trivial, fun _ _ _ => trivial, fun _ _ _ _ _ _ => trivial,
      fun _ _ _ _ _ => trivial, fun _ _ _ => trivial⟩
  have hkept := hany.step h.balancing.ordered.lined.sound h.configured hstep
    (fun _ _ _ => trivial) fun _ _ _ _ _ _ _ _ => trivial
  exact ⟨h.balancing.step he hstep, hkept.configured⟩

theorem Managed.init (hcreate : ProxyServer.create config = .ok server) :
    Managed config (World.init server) := by
  have hstarted := create_started hcreate
  exact ⟨.init hcreate, hstarted.config_eq, hstarted.maxInflight, hstarted.maxQueueSize⟩

/-- An open request holds a slot or waits for one. -/
theorem Balancing.isOpen_iff (h : w.Balancing) (hget : w.sessions[i]? = some s) :
    s.isOpen = true ↔ s.permitValid = true ∨ i ∈ w.waiting := by
  rw [h.mem_waiting_iff]
  constructor
  · intro hopen
    cases hvalid : s.permitValid with
    | true => exact .inl rfl
    | false => exact .inr ⟨s, hget, by rw [hopen, hvalid]; rfl⟩
  · rintro (hvalid | ⟨s', hget', hopen⟩)
    · exact h.open_of_permitValid (List.mem_of_getElem? hget) hvalid
    · rw [hget] at hget'
      rw [Option.some.inj hget']
      exact (Bool.and_eq_true_iff.mp hopen).1

/-- The room of the configuration. -/
abbrev RoomOf (config : ProxyConfig) : Type := Room Nat config.maxInflight config.maxQueueSize

variable {room room' : RoomOf config}

/-- The limiter counts the desks and the chairs that are taken. -/
theorem InRoom.counts (h : InRoom w room visits) (hbalancing : w.Balancing) :
    room.atDesk.card = w.server.limiter.currentInflight ∧
      room.line.length = w.server.limiter.queuedRequests := by
  refine ⟨?_, ?_⟩
  · rw [h.atDesk, card_holders, hbalancing.held.slots]
  · rw [h.line, hbalancing.ordered.lined.reserved]

/-- A session that has not been counted has not come yet. -/
theorem InRoom.outside (h : InRoom w room visits) (hlined : w.Lined)
    (hget : w.sessions[i]? = some s) (hpermit : s.permitValid = false)
    (hcounted : s.requestCounted = false) : room.Outside i ∧ i ∉ w.asked := by
  have hasked : i ∉ w.asked := by
    intro hmem
    obtain ⟨s', hs', hc⟩ := hlined.counted i hmem
    rw [hget] at hs'
    exact Bool.false_ne_true (hcounted.symm.trans (Option.some.inj hs' ▸ hc))
  refine ⟨⟨fun hmem => ?_, fun hmem => ?_⟩, hasked⟩
  · rw [h.atDesk] at hmem
    obtain ⟨s', hs', hvalid⟩ := mem_holders.mp hmem
    rw [hget] at hs'
    exact Bool.false_ne_true (hpermit.symm.trans (Option.some.inj hs' ▸ hvalid))
  · rw [h.line] at hmem
    exact hasked (hlined.line.asked_of_waiting hmem)

/-- The room goes through `more` visits and then shows `w'`. -/
def GoesOn (room : RoomOf config) (visits more : List (Visit Nat)) (w' : World) : Prop :=
  ∃ room', run Room.step room more = some room' ∧ InRoom w' room' (visits ++ more)

/-- A handler has run: the session that was `s` is put back as it is in `c`. -/
structure Turn (config : ProxyConfig) (w : World) (room : RoomOf config)
    (visits : List (Visit Nat)) (s : ProxySession) (c : Context) : Prop where
  inRoom : InRoom w room visits
  managed : Managed config w
  lock : w.lock c.id = some s
  balancing : (w.put c).Balancing

namespace Turn

theorem get (h : Turn config w room visits s c) : w.sessions[c.id]? = some s :=
  (lock_eq_some.mp h.lock).1

theorem get' (h : Turn config w room visits s c) : (w.put c).sessions[c.id]? = some c.self := by
  rw [put_getElem? h.get, if_pos rfl]

theorem lined (h : Turn config w room visits s c) : w.Lined := h.managed.balancing.ordered.lined

theorem lined' (h : Turn config w room visits s c) : (w.put c).Lined := h.balancing.ordered.lined

theorem accounts (h : Turn config w room visits s c) : s.Accounts ∧ c.self.Accounts :=
  ⟨h.managed.balancing.books.accounts _ s h.get, h.balancing.books.accounts _ _ h.get'⟩

theorem isOpen_iff (h : Turn config w room visits s c) :
    s.isOpen = true ↔ s.permitValid = true ∨ c.id ∈ w.waiting :=
  h.managed.balancing.isOpen_iff h.get

theorem isOpen_iff' (h : Turn config w room visits s c) :
    c.self.isOpen = true ↔ c.self.permitValid = true ∨ c.id ∈ (w.put c).waiting :=
  h.balancing.isOpen_iff h.get'

/-- All desks are taken when the limiter has no slot. -/
theorem desks_le (h : Turn config w room visits s c)
    (hfull : w.server.limiter.maxInflight ≤ w.server.limiter.currentInflight) :
    config.maxInflight ≤ room.atDesk.card := by
  rw [(h.inRoom.counts h.managed.balancing).1, ← h.managed.configured.maxInflight]
  exact hfull

theorem outside (h : Turn config w room visits s c) (hasks : Asks (w.context c.id s) c) :
    room.Outside c.id ∧ c.id ∉ w.asked :=
  h.inRoom.outside h.lined h.get hasks.permit hasks.uncounted

theorem comes {decision : InflightDecision} (h : Turn config w room visits s c)
    (hasks : Asks (w.context c.id s) c) (hanswer : w.answer = decision) :
    visit c.id w.answer s c.self = some (answeredVisit c.id decision) ∧
      c.self.starts = s.starts + 1 ∧ c.self.endings + share isOpen c.self = s.endings + 1 := by
  rw [hanswer]
  exact h.accounts.1.comes h.accounts.2 hasks.uncounted hasks.counted

theorem goes (h : Turn config w room visits s c)
    (hcounted : c.self.requestCounted = s.requestCounted) :
    visit c.id w.answer s c.self = (if s.endings < c.self.endings then
      some (if s.queued then .giveUp c.id else .leave c.id) else none) ∧
      c.self.starts = s.starts ∧
      c.self.endings + share isOpen c.self = s.endings + share isOpen s :=
  h.accounts.1.goes h.accounts.2 hcounted

/-- The turn is one visit. -/
theorem goesOn {v : Visit Nat} {room' : RoomOf config}
    (hvisit : visit c.id w.answer s c.self = some v) (hstep : Room.step room v = some room')
    (hin : InRoom (w.put c) room' (visits ++ [v])) :
    GoesOn room visits (visit c.id w.answer s c.self).toList (w.put c) := by
  rw [hvisit]
  exact ⟨room', by rw [Option.toList_some, run_cons, hstep]; rfl, hin⟩

/-- Nothing has changed that the room sees. -/
theorem remains (h : Turn config w room visits s c) (hstays : Stays (w.context c.id s) c)
    (hsame : c.self.permitValid = s.permitValid) :
    GoesOn room visits (visit c.id w.answer s c.self).toList (w.put c) := by
  have hwaiting := h.lined.waiting_same h.lined' hstays.journal
  have hkept : (w.put c).holders = w.holders := holders_put_of_same h.get hsame
  obtain ⟨hvisit, hcame, hgone⟩ := h.goes hstays.counted
  have hopens : c.self.isOpen = s.isOpen := by
    rw [Bool.eq_iff_iff, h.isOpen_iff, h.isOpen_iff', hwaiting, hsame]
  have hends : c.self.endings = s.endings + 0 := by
    rw [share, share, hopens] at hgone
    omega
  rw [hvisit, if_neg (by omega), Option.toList_none]
  refine ⟨room, rfl, ?_⟩
  rw [List.append_nil]
  refine ⟨h.inRoom.atDesk.trans hkept.symm, h.inRoom.line.trans hwaiting.symm,
    h.inRoom.journal.trans hstays.journal.symm, fun j => ?_, fun j => ?_,
    h.inRoom.requests.trans hstays.requests.symm⟩
  · rw [h.inRoom.came, tally_put (f := starts) h.get 0 hcame, ite_self, Nat.add_zero]
  · rw [h.inRoom.gone, tally_put (f := endings) h.get 0 hends, ite_self, Nat.add_zero]

/-- The slot of the session has come back. -/
theorem leaves (h : Turn config w room visits s c) (hstays : Stays (w.context c.id s) c)
    (hwas : s.permitValid = true) (hnow : c.self.permitValid = false) :
    GoesOn room visits (visit c.id w.answer s c.self).toList (w.put c) := by
  have hwaiting := h.lined.waiting_same h.lined' hstays.journal
  have hmem : c.id ∈ room.atDesk := by
    rw [h.inRoom.atDesk]
    exact mem_holders.mpr ⟨s, h.get, hwas⟩
  have hout : c.id ∉ w.waiting := by
    rw [← h.inRoom.line]
    exact fun hin => room.apart c.id hin hmem
  have hqueue : s.queued = false := by
    rw [← isQueued_eq h.lock, ← Bool.not_eq_true]
    exact fun hq => hout (h.lined.mem_waiting hq)
  have hover : c.self.isOpen = false := by
    rw [← Bool.not_eq_true, h.isOpen_iff', hwaiting, hnow]
    simpa using hout
  obtain ⟨room', hstep, hdesk, hline⟩ := Room.leave_step hmem
  obtain ⟨hvisit, hcame, hgone⟩ := h.goes hstays.counted
  rw [share_true (h.isOpen_iff.mpr (.inl hwas)), share_false hover] at hgone
  rw [if_pos (by omega), hqueue, if_neg Bool.false_ne_true] at hvisit
  apply goesOn hvisit hstep
  refine h.inRoom.visited h.get rfl ?_ ?_ ?_ hcame hgone hstays.requests
  · rw [hdesk, h.inRoom.atDesk, holders_put h.get, hnow, if_neg Bool.false_ne_true]
  · rw [hline, h.inRoom.line, hwaiting]
  · exact hstays.journal.trans (List.append_nil _).symm

theorem enters (h : Turn config w room visits s c) (hasks : Asks (w.context c.id s) c)
    (hanswer : w.answer = .admitted)
    (hslot : w.server.limiter.currentInflight < w.server.limiter.maxInflight)
    (hjournal : c.journal = w.journal) (hnow : c.self.permitValid = true) :
    GoesOn room visits (visit c.id w.answer s c.self).toList (w.put c) := by
  have hfree : room.atDesk.card < config.maxInflight := by
    rw [(h.inRoom.counts h.managed.balancing).1, ← h.managed.configured.maxInflight]
    exact hslot
  obtain ⟨room', hstep, hdesk, hline⟩ := Room.enter_step (h.outside hasks).1 hfree
  obtain ⟨hvisit, hcame, hgone⟩ := h.comes hasks hanswer
  rw [share_true (h.isOpen_iff'.mpr (.inl hnow))] at hgone
  apply goesOn hvisit hstep
  refine h.inRoom.visited h.get rfl ?_ ?_ ?_ hcame (Nat.succ.inj hgone) hasks.requests
  · rw [hdesk, h.inRoom.atDesk, holders_put h.get, if_pos hnow]
  · rw [hline, h.inRoom.line, h.lined.waiting_same h.lined' hjournal]
  · exact hjournal.trans (List.append_nil _).symm

theorem waits (h : Turn config w room visits s c) (hasks : Asks (w.context c.id s) c)
    (hanswer : w.answer = .queue)
    (hfull : w.server.limiter.maxInflight ≤ w.server.limiter.currentInflight)
    (hroom : w.server.limiter.queuedRequests < w.server.limiter.maxQueueSize)
    (hjournal : c.journal = w.journal ++ [.asked c.id]) (hnow : c.self.permitValid = false) :
    GoesOn room visits (visit c.id w.answer s c.self).toList (w.put c) := by
  obtain ⟨hout, hnew⟩ := h.outside hasks
  have hchair : room.line.length < config.maxQueueSize := by
    rw [(h.inRoom.counts h.managed.balancing).2, ← h.managed.configured.maxQueueSize]
    exact hroom
  have hwaiting := h.lined.waiting_asked h.lined' hnew hjournal
  have hin : c.id ∈ (w.put c).waiting := by
    rw [hwaiting]
    exact List.mem_append_right _ (List.mem_singleton_self _)
  obtain ⟨room', hstep, hdesk, hline⟩ := Room.wait_step hout (h.desks_le hfull) hchair
  obtain ⟨hvisit, hcame, hgone⟩ := h.comes hasks hanswer
  rw [share_true (h.isOpen_iff'.mpr (.inr hin))] at hgone
  apply goesOn hvisit hstep
  refine h.inRoom.visited h.get rfl ?_ ?_ hjournal hcame (Nat.succ.inj hgone) hasks.requests
  · rw [hdesk, h.inRoom.atDesk, holders_put_of_same h.get (hnow.trans hasks.permit.symm)]
  · rw [hline, h.inRoom.line, hwaiting]

theorem refused (h : Turn config w room visits s c) (hasks : Asks (w.context c.id s) c)
    (hanswer : w.answer = .reject)
    (hfull : w.server.limiter.maxInflight ≤ w.server.limiter.currentInflight)
    (hcrowded : w.server.limiter.maxQueueSize ≤ w.server.limiter.queuedRequests)
    (hjournal : c.journal = w.journal) (hnow : c.self.permitValid = false) :
    GoesOn room visits (visit c.id w.answer s c.self).toList (w.put c) := by
  obtain ⟨hout, hnew⟩ := h.outside hasks
  have hchairs : config.maxQueueSize ≤ room.line.length := by
    rw [(h.inRoom.counts h.managed.balancing).2, ← h.managed.configured.maxQueueSize]
    exact hcrowded
  have hwaiting := h.lined.waiting_same h.lined' hjournal
  have hover : c.self.isOpen = false := by
    rw [← Bool.not_eq_true, h.isOpen_iff', hwaiting, hnow]
    simpa using fun hin => hnew (h.lined.line.asked_of_waiting hin)
  obtain ⟨hvisit, hcame, hgone⟩ := h.comes hasks hanswer
  rw [share_false hover] at hgone
  apply goesOn hvisit (Room.refuse_step hout (h.desks_le hfull) hchairs)
  refine h.inRoom.visited h.get rfl ?_ ?_ ?_ hcame hgone hasks.requests
  · rw [h.inRoom.atDesk, holders_put_of_same h.get (hnow.trans hasks.permit.symm)]
  · rw [h.inRoom.line, hwaiting]
  · exact hjournal.trans (List.append_nil _).symm

theorem givesUp (h : Turn config w room visits s c) (hwas : s.queued = true)
    (hjournal : c.journal = w.journal ++ [.timedOut c.id])
    (hrequests : c.server.metrics.totalRequests = w.server.metrics.totalRequests)
    (hcounted : c.self.requestCounted = s.requestCounted)
    (hsame : c.self.permitValid = s.permitValid) :
    GoesOn room visits (visit c.id w.answer s c.self).toList (w.put c) := by
  have hmem : c.id ∈ w.waiting := h.lined.mem_waiting ((isQueued_eq h.lock).trans hwas)
  have hin : c.id ∈ room.line := by
    rw [h.inRoom.line]
    exact hmem
  have hwaiting := h.lined.waiting_timedOut h.lined' hmem hjournal
  have hover : c.self.isOpen = false := by
    rw [← Bool.not_eq_true, h.isOpen_iff', hwaiting, hsame]
    rintro (hvalid | hstill)
    · -- who waits is at no desk
      apply room.apart c.id hin
      rw [h.inRoom.atDesk]
      exact mem_holders.mpr ⟨s, h.get, hvalid⟩
    · exact h.lined.line.waiting_nodup.not_mem_erase hstill
  obtain ⟨room', hstep, hdesk, hline⟩ := Room.giveUp_step hin
  obtain ⟨hvisit, hcame, hgone⟩ := h.goes hcounted
  rw [share_true (h.isOpen_iff.mpr (.inr hmem)), share_false hover] at hgone
  rw [if_pos (by omega), hwas, if_pos rfl] at hvisit
  apply goesOn hvisit hstep
  refine h.inRoom.visited h.get rfl ?_ ?_ hjournal hcame hgone hrequests
  · rw [hdesk, h.inRoom.atDesk, holders_put_of_same h.get hsame]
  · rw [hline, h.inRoom.line, hwaiting]

/-- What a handler does is at most one visit. -/
theorem attend (h : Turn config w room visits s c) (hattends : Attends (w.context c.id s) c) :
    GoesOn room visits (visit c.id w.answer s c.self).toList (w.put c) := by
  cases hattends with
  | stays hstays =>
      by_cases hsame : c.self.permitValid = s.permitValid
      · exact h.remains hstays hsame
      · cases hnow : c.self.permitValid with
        | true => exact absurd (hnow.trans (hstays.permit hnow).symm) hsame
        | false =>
            have hwas : s.permitValid = true :=
              Bool.eq_true_of_not_eq_false fun hp => hsame (hnow.trans hp.symm)
            exact h.leaves hstays hwas hnow
  | entered hasks hanswer hslot hjournal hnow => exact h.enters hasks hanswer hslot hjournal hnow
  | waited hasks hanswer hfull hroom hjournal hnow =>
      exact h.waits hasks hanswer hfull hroom hjournal hnow
  | refused hasks hanswer hfull hcrowded hjournal hnow =>
      exact h.refused hasks hanswer hfull hcrowded hjournal hnow
  | gaveUp hqueued hjournal hrequests hcounted hsame =>
      exact h.givesUp hqueued hjournal hrequests hcounted hsame

end Turn

/-- A handler is the turn of its session. -/
theorem visitsOf_complete {op : Op} {r : Outcome} {s' : ProxySession}
    (hs : w.sessions[i]? = some s) (hs' : w'.sessions[i]? = some s') :
    visitsOf w (.complete i op r) w' = (visit i w.answer s s').toList := by
  rw [visitsOf, hs, hs']
  rfl

theorem visitsOf_quiet (he : ∀ i op r, e ≠ .complete i op r) :
    visitsOf w e w' = (w'.started.drop w.started.length).map .callIn := by
  cases e with
  | complete i op r => exact absurd rfl (he i op r)
  | _ => rfl

/-- Nothing but a handler records anything. -/
theorem tally_quiet (hmanaged : Managed config w) (he : ∀ i op r, e ≠ .complete i op r)
    (hstep : World.step w e = some w') (i : Nat) :
    w'.tally starts i = w.tally starts i ∧ w'.tally endings i = w.tally endings i := by
  have hsame : KeptFrom config w fun i s =>
      s.starts = w.tally starts i ∧ s.endings = w.tally endings i := by
    have hextend {i : Nat} {s s' : ProxySession} (more : List Call)
        (hcalls : s'.calls = s.calls ++ more) (hmore : ∀ call ∈ more, inBooks call = false)
        (h : s.starts = w.tally starts i ∧ s.endings = w.tally endings i) :
        s'.starts = w.tally starts i ∧ s'.endings = w.tally endings i := by
      obtain ⟨hstarts, hendings⟩ := records_extend hcalls hmore
      exact ⟨hstarts.trans h.1, hendings.trans h.2⟩
    refine ⟨fun sseParser _ => ?_,
      fun i s => hextend [.closeClient] rfl (by simp [inBooks, isEnding]),
      fun i s _ _ _ => hextend [_] rfl (by simp [inBooks, isEnding]),
      fun i s _ _ => hextend [_, _] (List.append_assoc _ _ _) (by simp [inBooks, isEnding]),
      fun i s h => h⟩
    unfold tally
    rw [List.getElem?_eq_none (Nat.le_refl _)]
    exact ⟨rfl, rfl⟩
  have hkept := hsame.step hmanaged.balancing.ordered.lined.sound hmanaged.configured hstep
    (fun i s hs => by rw [tally, tally, hs]; exact ⟨rfl, rfl⟩)
    fun i op r _ heq => absurd heq (he i op r)
  cases hs : w'.sessions[i]? with
  | some s =>
      obtain ⟨hstarts, hendings⟩ := hkept.sessions i s hs
      rw [← hstarts, ← hendings, tally, tally, hs]
      exact ⟨rfl, rfl⟩
  | none =>
      have hlength := hkept.length_le.trans (List.getElem?_eq_none_iff.mp hs)
      rw [tally, tally, tally, tally, hs, List.getElem?_eq_none hlength]
      exact ⟨rfl, rfl⟩

/-- A task of the strand calls the sessions that it starts in from the front of the line. -/
theorem InRoom.call {members : List Nat} (h : InRoom w room visits) (hmanaged : Managed config w)
    (he : ∀ i op r, e ≠ .complete i op r) (hstep : World.step w e = some w')
    (hmanaged' : Managed config w') (hcalled : Called w w' members) :
    GoesOn room visits (visitsOf w e w') w' := by
  have hlined' := hmanaged'.balancing.ordered.lined
  have hline : room.line = members ++ w'.waiting := by
    rw [h.line]
    exact hcalled.waiting hmanaged.balancing.ordered.lined hlined'
  have hdesk : w'.holders = room.atDesk ∪ members.toFinset := by
    rw [h.atDesk]
    exact hcalled.holders
  have hfree : w'.holders.card ≤ config.maxInflight := by
    rw [card_holders, ← hmanaged'.balancing.held.slots, ← hmanaged'.configured.maxInflight]
    exact hlined'.capped
  have hvisits : visitsOf w e w' = members.map .callIn := by
    rw [visitsOf_quiet he, hcalled.started, List.drop_left]
  have hnone (p : Visit Nat → Bool) (hp : ∀ i, p (.callIn i) = false) :
      (members.map Visit.callIn).countP p = 0 :=
    List.countP_eq_zero.mpr (by simp [hp])
  obtain ⟨room', hrun, hdesk', hline'⟩ := Room.callIn_run hline hdesk hfree
  rw [hvisits]
  refine ⟨room', hrun, hdesk', hline', ?_, fun j => ?_, fun j => ?_, ?_⟩
  · rw [List.filterMap_append, h.journal, hcalled.journal, List.filterMap_map]
    congr 1
    exact congrFun (List.filterMap_eq_map (f := QueueEvent.started)) members
  · rw [List.countP_append, h.came, hnone _ fun _ => rfl, Nat.add_zero,
      (tally_quiet hmanaged he hstep j).1]
  · rw [List.countP_append, h.gone, hnone _ fun _ => rfl, Nat.add_zero,
      (tally_quiet hmanaged he hstep j).2]
  · rw [List.countP_append, h.requests, hcalled.requests, hnone _ fun _ => rfl, Nat.add_zero]

/-- The handler of an operation attends to its session. -/
theorem complete_attends {op : Op} {r : Outcome} (hlined : w.Lined) (hlock : w.lock i = some s)
    (hmem : op ∈ s.pending) :
    Attends (w.context i s) ((w.context i (deliver s op r)).handle op r) := by
  refine .of_setSelf (s := deliver s op r) ?_ (deliver_permitValid s op r)
    (deliver_requestCounted s op r) (deliver_queued s op r)
  have hphase := hlined.sound.phase i s (lock_eq_some.mp hlock).1
  by_cases hop : op = .readRequest
  · subst hop
    obtain ⟨idle, hcounted, -⟩ := hphase.of_opening hmem rfl
    have hidle := idle.deliver .readRequest r
    show Attends _ (onReadRequest r.ec r.request _)
    unfold onReadRequest
    split
    · exact .stays (.of_self _ rfl rfl)
    · refine .of_setSelf ((handleRequest_answered _).attends ?_ ?_ hlined.serving.closed)
        rfl rfl rfl
      · exact hidle.permit
      · exact (deliver_requestCounted s .readRequest r).trans hcounted
  · refine (handle_handled op r _).attends hop hlined.serving.alive fun hqueued => ?_
    have hwaits : s.queued = true := (deliver_queued s op r).symm.trans hqueued
    obtain ⟨idle, -⟩ := hphase.waiting_of_queued hwaits
    show (deliver s op r).permitValid = false
    rw [deliver_permitValid, ProxySession.permitValid, idle.permit]
    rfl

/-- Each step of the event loop goes through as the visits that it makes. -/
theorem InRoom.step (h : InRoom w room visits) (hmanaged : Managed config w) (he : e ≠ .stop)
    (hstep : World.step w e = some w') : GoesOn room visits (visitsOf w e w') w' := by
  have hmanaged' := hmanaged.step he hstep
  have hlined := hmanaged.balancing.ordered.lined
  by_cases hcomplete : ∃ i op r, e = .complete i op r
  · obtain ⟨i, op, r, rfl⟩ := hcomplete
    obtain ⟨s, hlock, hmem, -, rfl⟩ := complete_eq_some hstep
    have hid : ((w.context i (deliver s op r)).handle op r).id = i :=
      (handle_handled op r (w.context i (deliver s op r))).frame.id
    have hattends := complete_attends (r := r) hlined hlock hmem
    generalize (w.context i (deliver s op r)).handle op r = c at *
    subst hid
    have hturn : Turn config w room visits s c := ⟨h, hmanaged, hlock, hmanaged'.balancing⟩
    rw [visitsOf_complete hturn.get hturn.get']
    exact hturn.attend hattends
  · have hquiet : ∀ i op r, e ≠ .complete i op r := fun i op r heq => hcomplete ⟨i, op, r, heq⟩
    rcases step_cases hlined.sound hstep with
      ⟨i, op, r, _, heq, -⟩ | ⟨i, s, strand, -, -, hstopping, -⟩ | hquiets
    · exact absurd heq (hquiet i op r)
    · rw [hlined.serving.stopping] at hstopping
      cases hstopping
    · obtain ⟨members, hcalled⟩ := quiets_called hquiets hlined.sound
      exact h.call hmanaged hquiet hstep hmanaged' hcalled

/-- The visits of a run. -/
def visitLog (w : World) (events : List Event) : List (Visit Nat) :=
  shown World.step visitsOf w events

/-- A run goes through as its visits. -/
theorem InRoom.of_run {events : List Event} (h : InRoom w room visits) (hmanaged : Managed config w)
    (hserving : .stop ∉ events) (hrun : run World.step w events = some w') :
    Managed config w' ∧ GoesOn room visits (w.visitLog events) w' := by
  have hmeets : Meets World.step (fun _ e => e ≠ .stop) w events :=
    meets_of_forall fun _ e hmem heq => hserving (heq ▸ hmem)
  have hinit : Managed config w ∧ GoesOn room visits [] w :=
    ⟨hmanaged, room, rfl, by rwa [List.append_nil]⟩
  refine run_shown (I := fun log w => Managed config w ∧ GoesOn room visits log w) hrun hmeets
    hinit ?_
  rintro log w e w' ⟨hmanaged, room₁, hlog, hin⟩ he hstep
  obtain ⟨room₂, hmore, hin'⟩ := hin.step hmanaged he hstep
  refine ⟨hmanaged.step he hstep, room₂, ?_, List.append_assoc .. ▸ hin'⟩
  rw [run_append, hlog]
  exact hmore

theorem InRoom.init (hcreate : ProxyServer.create config = .ok server) :
    InRoom (World.init server) (Room.empty : RoomOf config) [] := by
  have hstarted := create_started hcreate
  refine ⟨rfl, ?_, rfl, fun _ => rfl, fun _ => rfl, hstarted.totalRequests.symm⟩
  show [] = server.queuedSessions.filter _ ++ server.strand.filterMap _
  rw [hstarted.queuedSessions, hstarted.strand]
  rfl

theorem inRoom_of_run {events : List Event} (hcreate : ProxyServer.create config = .ok server)
    (hserving : .stop ∉ events) (hrun : run World.step (World.init server) events = some w) :
    Managed config w ∧ ∃ room : RoomOf config,
      run Room.step Room.empty ((World.init server).visitLog events) = some room ∧
      InRoom w room ((World.init server).visitLog events) :=
  (InRoom.init hcreate).of_run (.init hcreate) hserving hrun

/-- Until `stop` is called, every run goes through as a run of the waiting room, visit by visit: a
request that is counted takes a free desk, or a free chair when there is no desk, or is refused when
there is neither, who starts from the queue is called in from the front of the line, and each
request on record has left. -/
theorem refines_waitingRoom {events : List Event}
    (hcreate : ProxyServer.create config = .ok server) (hserving : .stop ∉ events)
    (hrun : run World.step (World.init server) events = some w) :
    ∃ room : RoomOf config,
      run Room.step Room.empty ((World.init server).visitLog events) = some room ∧
      InRoom w room ((World.init server).visitLog events) ∧
      ((World.init server).visitLog events).countP Visit.departs = w.server.metrics.recorded := by
  obtain ⟨hmanaged, room, hroom, hin⟩ := inRoom_of_run hcreate hserving hrun
  refine ⟨room, hroom, hin, ?_⟩
  -- who has come is inside or gone, in the books as in the room
  have hbalance := Room.balance_run hroom
  have ⟨hcard, hlength⟩ := hin.counts hmanaged.balancing
  have hfigures : w.server.metrics.totalRequests =
      w.server.metrics.completedRequests + w.server.metrics.failedRequests +
        w.server.limiter.currentInflight + w.server.limiter.queuedRequests :=
    (hmanaged.balancing.coherent hmanaged.configured).requests
  rw [hin.requests, hcard, hlength, hfigures] at hbalance
  simp only [Room.empty, Finset.card_empty, List.length_nil] at hbalance
  unfold ProxyMetrics.recorded
  omega

theorem secondStarts_visits :
    (World.init oneSlotServer).visitLog secondStarts =
      [.enter 0, .wait 1, .wait 2, .giveUp 1, .leave 0, .callIn 2] := rfl

theorem refines_waitingRoom_secondStarts : ∃ (w : World) (room : RoomOf oneSlotConfig),
    run World.step (World.init oneSlotServer) secondStarts = some w ∧
    (World.init oneSlotServer).visitLog secondStarts =
      [.enter 0, .wait 1, .wait 2, .giveUp 1, .leave 0, .callIn 2] ∧
    run Room.step Room.empty [.enter 0, .wait 1, .wait 2, .giveUp 1, .leave 0, .callIn 2] =
      some room ∧
    InRoom w room [.enter 0, .wait 1, .wait 2, .giveUp 1, .leave 0, .callIn 2] ∧
    w.server.metrics.recorded = 2 := by
  obtain ⟨w, hrun⟩ : ∃ w, run World.step (World.init oneSlotServer) secondStarts = some w :=
    ⟨_, rfl⟩
  obtain ⟨room, hroom, hin, hrecorded⟩ :=
    refines_waitingRoom oneSlotServer_create (by decide) hrun
  rw [secondStarts_visits] at hroom hin hrecorded
  exact ⟨w, room, hrun, secondStarts_visits, hroom, hin, hrecorded.symm⟩

/-- The starts in the journal are the calls. -/
theorem started_eq_calls (visits : List (Visit Nat)) :
    ((visits.filterMap queueEntry).filterMap QueueEvent.startedId).length =
      visits.countP Visit.calls := by
  rw [List.filterMap_filterMap, List.length_filterMap_eq_countP]
  apply List.countP_congr
  intro v _
  cases v <;> simp [queueEntry, QueueEvent.startedId, Visit.calls]

theorem InRoom.started_length {more : List (Visit Nat)} (h : InRoom w room visits)
    (h' : InRoom w' room' (visits ++ more)) :
    w'.started.length = w.started.length + more.countP Visit.calls := by
  unfold started
  rw [← h'.journal, ← h.journal, started_eq_calls, started_eq_calls, List.countP_append]

/-- While a session waits, the sessions that start from the queue are those that were before it. -/
theorem InRoom.position {events : List Event} (h : InRoom w room visits)
    (hmanaged : Managed config w) (hserving : .stop ∉ events)
    (hrun : run World.step w events = some w') (hi : i ∈ w.waiting)
    (hi' : i ∈ w'.waiting) :
    w'.waiting.idxOf i + w'.started.length ≤ w.waiting.idxOf i + w.started.length := by
  obtain ⟨hmanaged', room', hroom, hin⟩ := h.of_run hmanaged hserving hrun
  have hline := hmanaged'.balancing.ordered.lined.line
  have hentry {v : Visit Nat} {entry : QueueEvent} (hv : queueEntry v = some entry)
      (hmem : v ∈ w.visitLog events) : entry ∈ w'.journal := by
    rw [← hin.journal]
    exact List.mem_filterMap.mpr ⟨v, List.mem_append_right _ hmem, hv⟩
  -- who still waits has neither been called in nor given up
  have hcalled : .callIn i ∉ w.visitLog events := by
    intro hmem
    apply hline.not_served_of_waiting hi'
    exact List.mem_filterMap.mpr ⟨.started i, hentry rfl hmem, rfl⟩
  have hgave : .giveUp i ∉ w.visitLog events := by
    intro hmem
    apply hline.not_left_of_waiting hi'
    exact List.mem_filterMap.mpr ⟨.timedOut i, hentry rfl hmem, rfl⟩
  rw [← h.line] at hi
  have hposition := (Room.position_run hroom hi hcalled hgave).2
  have hstarted := h.started_length hin
  rw [h.line, hin.line] at hposition
  omega

end World

end VllmSloProxy
