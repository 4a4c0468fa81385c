import Mathlib.Data.List.Chain
import VllmSloProxy.Lib.Population
import VllmSloProxy.SessionMessages

/-!
# The exchange with the upstream

The operations that relay a request follow one another in one order, each after the one before it
has succeeded, also in a session that has been ended meanwhile.  So the upstream sees at most one
request of a session, and the client sees nothing of the answer before its header.
-/

namespace VllmSloProxy

open Context Transition Population

namespace Op

/-- What the relay starts when `op` has completed with `r`. -/
def Follows (op : Op) (r : Outcome) (next : Op) : Prop :=
  match op, next with
  | .resolve _ _, .connect => r.ec = none
  | .connect, .writeUpstream _ => r.ec = none
  | .writeUpstream _, .readHeader => r.ec = none
  | .readHeader, .writeSseHeader _ => r.ec = none ∧ r.status = .ok
  | .writeSseHeader _, .readBody => r.ec = none
  | .readBody, .readBody => r.ec = some .needBuffer
  | .readBody, .writeBody _ _ => r.ec = none ∧ r.isDone = false
  | .writeBody _ upstreamDone, .readBody => r.ec = none ∧ upstreamDone = false
  | _, _ => False

def isResolve : Op → Bool
  | .resolve _ _ => true
  | _ => false

def isUpstreamRequest : Op → Bool
  | .writeUpstream _ => true
  | _ => false

/-- How far the relay has come; the body is read and written in turns. -/
def stage : Op → Nat
  | .resolve _ _ => 0
  | .connect => 1
  | .writeUpstream _ => 2
  | .readHeader => 3
  | .writeSseHeader _ => 4
  | _ => 5

/-- An operation that comes later in the order. -/
def Later (op later : Op) : Prop := op.stage < later.stage ∨ (op.stage = 5 ∧ later.stage = 5)

instance : Trans Later Later Later where
  trans h h' := by
    unfold Later at h h' ⊢
    omega

theorem Follows.later {op next : Op} {r : Outcome} (h : Follows op r next) : Later op next := by
  unfold Follows at h
  unfold Later
  split at h <;> simp_all [Op.stage]

end Op

namespace Context

theorem Relay.follows {op next : Op} {r : Outcome} {c c₁ : Context} (h : Relay op r c c₁ next) :
    op.Follows r next := by
  cases h with
  | resolved host service hop hec => rw [hop]; exact hec
  | connected request hop hec => rw [hop]; exact hec
  | requestWritten request hop hec => rw [hop]; exact hec
  | headerRead hop hec hstatus => rw [hop]; exact ⟨hec, hstatus⟩
  | headerWritten header hop hec => rw [hop]; exact hec
  | bodyWritten payload hop hec => rw [hop]; exact ⟨hec, rfl⟩
  | bufferFull hop hec => rw [hop]; exact hec
  | chunk _ done hop hec hdone => rw [hop]; exact ⟨hec, hdone⟩

end Context

namespace ProxySession

def relayOf : Call → Option Op
  | .start op _ => if op.isRelay then some op else none
  | _ => none

/-- The operations that were started to relay the request, in order. -/
def relayed (s : ProxySession) : List Op := s.calls.filterMap relayOf

/-- Those that have completed, with what they completed with. -/
def exchange (s : ProxySession) : List (Op × Outcome) := s.delivered.filter fun d => d.1.isRelay

/-- Those that are pending. -/
def relaying (s : ProxySession) : List Op := s.control.filter Op.isRelay

/-- The relay goes from one operation to the next. -/
structure InStep (s : ProxySession) : Prop where
  started : s.relayed = s.exchange.map Prod.fst ++ s.relaying
  resolves : ∀ op ∈ s.relayed.head?, op.isResolve = true
  follows : s.exchange.IsChain fun a b => a.1.Follows a.2 b.1
  next : ∀ a ∈ s.exchange.getLast?, ∀ op ∈ s.relaying.head?, a.1.Follows a.2 op
  unstarted : s.requestStart = none → s.relayed = []

variable {s s' : ProxySession} {op : Op}

theorem relayed_append {more : List Call} (hcalls : s'.calls = s.calls ++ more) :
    s'.relayed = s.relayed ++ more.filterMap relayOf := by
  unfold relayed
  rw [hcalls, List.filterMap_append]

theorem InStep.congr (h : s.InStep) (hrelayed : s'.relayed = s.relayed)
    (hexchange : s'.exchange = s.exchange) (hrelaying : s'.relaying = s.relaying)
    (hstart : s'.requestStart = none → s.requestStart = none) : s'.InStep := by
  refine ⟨?_, ?_, ?_, ?_, fun hnone => ?_⟩
  · rw [hrelayed, hexchange, hrelaying]
    exact h.started
  · rw [hrelayed]
    exact h.resolves
  · rw [hexchange]
    exact h.follows
  · rw [hexchange, hrelaying]
    exact h.next
  · rw [hrelayed]
    exact h.unstarted (hstart hnone)

/-- Nothing has been relayed yet, and the first operation is started. -/
theorem InStep.first (h : s.InStep) (host service : Bytes) (hidle : s.requestStart = none)
    (hrelayed : s'.relayed = s.relayed ++ [.resolve host service])
    (hexchange : s'.exchange = s.exchange)
    (hrelaying : s'.relaying = s.relaying ++ [.resolve host service])
    (hstart : s'.requestStart.isSome = true) : s'.InStep := by
  have hnil := h.unstarted hidle
  have hstarted := h.started
  rw [hnil] at hstarted
  obtain ⟨hmap, hrelayingNil⟩ := List.append_eq_nil_iff.mp hstarted.symm
  have hexchangeNil : s'.exchange = [] := hexchange.trans (List.map_eq_nil_iff.mp hmap)
  rw [hnil, List.nil_append] at hrelayed
  rw [hrelayingNil, List.nil_append] at hrelaying
  refine ⟨?_, ?_, ?_, ?_, fun hnone => ?_⟩
  · rw [hrelayed, hexchangeNil, hrelaying]
    rfl
  · rw [hrelayed]
    rintro op hop
    obtain rfl := Option.some.inj hop
    rfl
  · rw [hexchangeNil]
    exact .nil
  · rw [hexchangeNil]
    exact fun _ ha => nomatch ha
  · rw [hnone] at hstart
    cases hstart

/-- The next operation is started after the last one has completed. -/
theorem InStep.advance {r : Outcome} {next : Op} (h : s.InStep) (hrelaying : s.relaying = [])
    (hlast : s.exchange.getLast? = some (op, r)) (hfollows : op.Follows r next)
    (hrelayed : s'.relayed = s.relayed ++ [next]) (hexchange : s'.exchange = s.exchange)
    (hrelaying' : s'.relaying = [next]) (hstart : s'.requestStart = s.requestStart) :
    s'.InStep := by
  have hstarted := h.started
  rw [hrelaying, List.append_nil] at hstarted
  have hne : s.exchange ≠ [] := by
    rintro hnil
    rw [hnil] at hlast
    cases hlast
  refine ⟨?_, ?_, ?_, ?_, fun hnone => ?_⟩
  · rw [hrelayed, hexchange, hrelaying', hstarted]
  · have hhead : s'.relayed.head? = s.relayed.head? := by
      rw [hrelayed, hstarted]
      exact List.head?_append_of_ne_nil _ (by simpa using hne)
    rw [hhead]
    exact h.resolves
  · rw [hexchange]
    exact h.follows
  · rw [hexchange, hlast, hrelaying']
    rintro a ha op' hop'
    obtain rfl := Option.some.inj ha
    obtain rfl := Option.some.inj hop'
    exact hfollows
  · have hnil := h.unstarted (hstart ▸ hnone)
    rw [hstarted] at hnil
    exact absurd (List.map_eq_nil_iff.mp hnil) hne

theorem InStep.pairwise (h : s.InStep) (hone : s.relaying.length ≤ 1) :
    s.relayed.Pairwise Op.Later := by
  rw [← List.isChain_iff_pairwise, h.started]
  refine List.IsChain.append ?_ ?_ ?_
  · exact (List.isChain_map Prod.fst).mpr (h.follows.imp fun _ _ hfollows => hfollows.later)
  · match s.relaying, hone with
    | [], _ => exact .nil
    | [op], _ => exact .singleton op
  · intro op hop next hnext
    rw [List.getLast?_map, Option.mem_def, Option.map_eq_some_iff] at hop
    obtain ⟨a, ha, rfl⟩ := hop
    exact (h.next a ha next hnext).later

/-- What has its place in the order before the body is started once at most. -/
theorem InStep.countP_le_one (h : s.InStep) (hone : s.relaying.length ≤ 1) {p : Op → Bool} {n : Nat}
    (hn : n < 5) (hp : ∀ op, p op = true → op.stage = n) : s.relayed.countP p ≤ 1 := by
  refine Population.countP_le_one ((h.pairwise hone).imp fun hlater => ?_)
  rintro ⟨ha, hb⟩
  have hfirst := hp _ ha
  have hsecond := hp _ hb
  unfold Op.Later at hlater
  omega

end ProxySession

open ProxySession

/-- A request of the proxy's own to the upstream, of which only the body is the client's. -/
structure Forwards (config : ProxyConfig) (client request : HttpRequest) : Prop where
  version : request.version = 11
  method : request.method = .post
  target : request.target = bytes "/v1/chat/completions"
  fields : request.fields = [
    (.host, config.upstreamHost),
    (.userAgent, bytes "vllm-slo-proxy"),
    (.contentType, bytes "application/json"),
    (.accept, bytes "text/event-stream"),
    (.contentLength, decimal client.body.length)]
  body : request.body = client.body

theorem upstreamRequestOf_forwards (config : ProxyConfig) (client : HttpRequest) :
    Forwards config client (upstreamRequestOf config {} client) :=
  ⟨rfl, rfl, rfl, rfl, rfl⟩

namespace Context

variable {c c' c₁ : Context} {op next : Op} {r : Outcome} {ending : Ending}

theorem InStep.keep {s s' : ProxySession} (h : s.InStep) (more : List Call)
    (hcalls : s'.calls = s.calls ++ more) (hmore : more.filterMap relayOf = [])
    (hdelivered : s'.delivered = s.delivered) (hrelaying : s'.relaying = s.relaying)
    (hstart : s'.requestStart = s.requestStart) : s'.InStep := by
  refine h.congr ?_ ?_ hrelaying fun hnone => hstart ▸ hnone
  · rw [relayed_append hcalls, hmore, List.append_nil]
  · unfold exchange
    rw [hdelivered]

theorem relayOf_endingCalls (c : Context) (ending : Ending) :
    (c.endingCalls ending).filterMap relayOf = [] := by
  unfold endingCalls
  split
  · cases ending <;> rfl
  · rfl

theorem settle_inStep (h : c.self.InStep) (ending : Ending) : (c.settle ending).self.InStep := by
  refine InStep.keep h (c.endingCalls ending) (by rw [settle_eq]) (relayOf_endingCalls c ending)
    (by rw [settle_eq]) ?_ (by rw [settle_eq])
  unfold relaying
  rw [settle_control]

theorem Ends.inStep (hends : Ends ending c c') (h : c.self.InStep) : c'.self.InStep := by
  cases hends with
  | already => exact h
  | quietly => exact InStep.keep (settle_inStep h ending) [.closeClient] rfl rfl rfl rfl rfl
  | withError response =>
      refine InStep.keep (settle_inStep h ending) [.start (.writeError response) _] rfl
        rfl rfl ?_ rfl
      show ((c.settle ending).self.start _).control.filter Op.isRelay = _
      rw [ProxySession.control_start _ rfl, List.filter_append]
      exact List.append_nil _

theorem Prepares.inStep (hprep : Prepares c c₁) (h : c.self.InStep) : c₁.self.InStep := by
  obtain ⟨calls, hcalls, heq⟩ := hprep.calls
  refine InStep.keep h calls heq ?_ hprep.delivered ?_ hprep.requestStart
  · rw [List.filterMap_eq_nil_iff]
    intro call hmem
    rw [hcalls call hmem]
    rfl
  · unfold relaying
    rw [hprep.control]

/-- The operation of the relay that was pending completes. -/
theorem deliver_inStep {s : ProxySession} {op : Op} (r : Outcome) (h : s.InStep)
    (hmem : op ∈ s.pending) (hone : s.relaying.length ≤ 1) : (World.deliver s op r).InStep := by
  have hrelayed : (World.deliver s op r).relayed = s.relayed := by
    unfold relayed
    rw [World.deliver_calls]
  have hexchange : (World.deliver s op r).exchange =
      s.exchange ++ if op.isRelay then [(op, r)] else [] := by
    unfold exchange
    rw [World.deliver_delivered, List.filter_append, List.filter_singleton]
    cases op.isRelay <;> rfl
  cases hop : op.isRelay with
  -- a timer or a write to the client: the exchange is not concerned
  | false =>
      refine h.congr hrelayed ?_ ?_ fun hnone => (World.deliver_requestStart s op r) ▸ hnone
      · rw [hexchange, hop]
        exact List.append_nil _
      · unfold relaying
        rw [World.deliver_control]
        split
        · rfl
        · rw [← List.erase_filter, List.erase_of_not_mem]
          simp [hop]
  | true =>
      have hcontrol : op ∈ s.control :=
        List.mem_filter.mpr ⟨hmem, by rw [Op.isTimer_of_isRelay hop]; rfl⟩
      -- at most one operation of the relay is pending, and it is this one
      have hrelaying : s.relaying = [op] := by
        have hmem' : op ∈ s.relaying := List.mem_filter.mpr ⟨hcontrol, hop⟩
        match hs : s.relaying, hone with
        | [], _ => rw [hs] at hmem'; cases hmem'
        | [op'], _ => rw [hs, List.mem_singleton] at hmem'; rw [hmem']
      have hrelaying' : (World.deliver s op r).relaying = [] := by
        unfold relaying at hrelaying ⊢
        rw [World.deliver_control, Op.isTimer_of_isRelay hop, if_neg Bool.false_ne_true,
          ← List.erase_filter, hrelaying, List.erase_cons_head]
      rw [hop, if_pos rfl] at hexchange
      refine ⟨?_, ?_, ?_, ?_, ?_⟩
      · rw [hrelayed, hexchange, hrelaying', h.started, hrelaying]
        simp
      · rw [hrelayed]
        exact h.resolves
      · rw [hexchange]
        refine h.follows.append (.singleton _) fun a ha b hb => ?_
        obtain rfl := Option.some.inj hb
        exact h.next a ha op (by rw [hrelaying]; rfl)
      · rw [hrelaying']
        exact fun _ _ _ hop' => nomatch hop'
      · rw [World.deliver_requestStart, hrelayed]
        exact h.unstarted

theorem startProxyRequest_inStep (permit : ServerPermit) (halive : c.server.alive = true)
    (hidle : c.self.Idle) (h : c.self.InStep) : (c.startProxyRequest permit).self.InStep := by
  rw [startProxyRequest_eq permit halive hidle.permit]
  refine h.first c.server.config.upstreamHost (decimal c.server.config.upstreamPort)
    hidle.requestStart ?_ rfl ?_ rfl
  · show (c.self.calls ++ [Call.start (.requestTimer false) _] ++
      [Call.start (.resolve _ _) _]).filterMap relayOf = _
    rw [List.filterMap_append, List.filterMap_append]
    exact congrArg (· ++ _) (List.append_nil _)
  · unfold relaying
    show (ProxySession.control (ProxySession.start _ (ProxySession.start _ _))).filter _ = _
    rw [ProxySession.control_start _ rfl, ProxySession.control_start_timer _ rfl,
      List.filter_append]
    rfl

theorem Requested.inStep (hrequested : Requested c c') (hidle : c.self.Idle) (h : c.self.InStep) :
    c'.self.InStep := by
  have hcounted (limiter : InflightLimiter Task) : (c.counted.setLimiter limiter).self.InStep :=
    InStep.keep h [.recordStarted] rfl rfl rfl rfl rfl
  cases hrequested with
  | unread => exact h.congr rfl rfl rfl fun hnone => hnone
  | refused _ hends => exact hends.inStep h
  | health response =>
      refine InStep.keep h [.start (.writeText response) _] rfl rfl rfl ?_ rfl
      show (c.self.start _).control.filter Op.isRelay = _
      rw [ProxySession.control_start _ rfl, List.filter_append]
      exact List.append_nil _
  | admitted halive =>
      exact startProxyRequest_inStep _ (c := c.counted.setLimiter _) halive
        ⟨hidle.1, hidle.2, hidle.3, hidle.4⟩ (hcounted _)
  | queued => exact hcounted c.server.limiter
  | turnedAway _ _ hends => exact hends.inStep (hcounted c.server.limiter)

theorem relaying_length_le {s : ProxySession} {e : Nat} (h : s.Phase e) :
    s.relaying.length ≤ 1 := by
  have hnone (hcontrol : s.control.length ≤ 1) : s.relaying.length ≤ 1 :=
    (List.length_filter_le _ _).trans hcontrol
  have hpending (hpending : s.pending.length ≤ 1) : s.relaying.length ≤ 1 :=
    hnone ((List.length_filter_le _ _).trans hpending)
  cases h with
  | reading _ _ _ pending => exact hpending (by rw [pending]; exact Nat.le_refl 1)
  | health _ _ _ _ pending => exact hpending (by rw [pending]; exact Nat.le_refl 1)
  | asked _ _ _ pending => exact hpending (by rw [pending]; exact Nat.zero_le 1)
  | waiting _ _ _ pending => exact hpending (by rw [pending]; exact Nat.le_refl 1)
  | running op running => exact hnone (by rw [running.control]; exact Nat.le_refl 1)
  | ended hover =>
      have hrelays := hover.relays
      rwa [List.countP_eq_length_filter] at hrelays

theorem Handled.inStep {s : ProxySession} {e : Nat} (hhandled : Handled op r c c')
    (hphase : s.Phase e) (hself : c.self = World.deliver s op r) (hmem : op ∈ s.pending)
    (h : s.InStep) : c'.self.InStep := by
  have hone := relaying_length_le hphase
  have hdelivered : c.self.InStep := hself ▸ deliver_inStep r h hmem hone
  cases hhandled with
  | timer => exact hdelivered
  | timedOut _ _ _ _ _ hends =>
      refine hends.inStep ?_
      rw [timeOut_self]
      exact hdelivered.congr rfl rfl rfl fun hnone => hnone
  | expired _ _ _ _ hends => exact hends.inStep hdelivered
  | read _ hop hrequested =>
      obtain ⟨idle, -, -⟩ := hphase.of_opening hmem (by rw [hop]; rfl)
      have hidle : c.self.Idle := by
        rw [hself]
        exact idle.deliver op r
      exact hrequested.inStep ⟨hidle.1, hidle.2, hidle.3, hidle.4⟩
        (hdelivered.congr rfl rfl rfl fun hnone => hnone)
  | wroteText => exact InStep.keep hdelivered [.closeClient] rfl rfl rfl rfl rfl
  | wroteError => exact InStep.keep hdelivered [.closeClient] rfl rfl rfl rfl rfl
  | ended _ c₁ _ _ _ hobserves hends => exact hends.inStep (hobserves.prepares.inStep hdelivered)
  | relayed c₁ next hrelay =>
      have hprep := hrelay.prepares
      have hop := hrelay.isRelay.1
      have hnext := hrelay.isRelay.2
      have hcompleted := hprep.inStep hdelivered
      have hexchange : c₁.self.exchange = s.exchange ++ [(op, r)] := by
        unfold exchange
        rw [hprep.delivered, hself, World.deliver_delivered, List.filter_append,
          List.filter_singleton, hop]
        rfl
      -- nothing of the relay is pending any more, so the next one may start
      have hrelaying : c₁.self.relaying = [] := by
        have hstarted := hcompleted.started
        have hbefore := h.started
        have hmem' : op ∈ s.relaying := List.mem_filter.mpr
          ⟨List.mem_filter.mpr ⟨hmem, by rw [Op.isTimer_of_isRelay hop]; rfl⟩, hop⟩
        unfold relaying at hone hmem' ⊢
        rw [hprep.control, hself, World.deliver_control, Op.isTimer_of_isRelay hop,
          if_neg Bool.false_ne_true, ← List.erase_filter, ← List.length_eq_zero_iff,
          List.length_erase_of_mem hmem']
        omega
      refine hcompleted.advance hrelaying (by rw [hexchange, List.getLast?_concat]) hrelay.follows
        ?_ rfl ?_ rfl
      · have happend : (c₁.start next).self.relayed = _ := relayed_append (s := c₁.self) rfl
        rw [happend]
        simp [relayOf, hnext]
      · unfold relaying at hrelaying ⊢
        show ((c₁.self.start next).control).filter Op.isRelay = _
        rw [ProxySession.control_start _ (Op.isTimer_of_isRelay hnext), List.filter_append,
          hrelaying, List.filter_singleton, hnext]
        rfl

end Context

namespace World

variable {config : ProxyConfig} {server : ProxyServer} {w w' : World} {events : List Event}

theorem inStep_keptQuietly : KeptQuietly fun _ => InStep := by
  constructor
  case created =>
    intro _ sseParser _
    exact ⟨rfl, fun _ hop => (nomatch hop), .nil, fun _ ha => (nomatch ha), fun _ => rfl⟩
  case closed => exact fun _ s hs => InStep.keep hs [.closeClient] rfl rfl rfl rfl rfl
  case enqueued =>
    intro _ s _ pending hs
    refine InStep.keep hs [.start (.queueTimer false) _] rfl rfl rfl ?_ rfl
    unfold relaying
    rw [control_start_timer _ rfl]
    rfl
  case promoted =>
    intro _ s host service clock idle pending hs
    refine hs.first host service idle.requestStart ?_ rfl ?_ rfl
    · show (s.calls ++ [Call.start (.requestTimer false) _] ++
        [Call.start (.resolve _ _) _]).filterMap relayOf = _
      rw [List.filterMap_append, List.filterMap_append]
      exact congrArg (· ++ _) (List.append_nil _)
    · have hcontrol : (startedFromQueue host service clock s).control =
          s.control ++ [.resolve host service] := by
        unfold startedFromQueue
        rw [control_start _ rfl, control_start_timer _ rfl]
        unfold ProxySession.control
        rw [pending]
        rfl
      unfold relaying
      rw [hcontrol, List.filter_append]
      rfl
  case destroyed => exact fun _ s hs => hs.congr rfl rfl rfl fun hnone => hnone

/-- What keeps the order from one step to the next. -/
structure Stepping (config : ProxyConfig) (w : World) : Prop where
  delivering : Delivering config (fun _ _ _ => True) (fun _ failure => failure ∈ failures) w
  inStep : ∀ (i : Nat) (s : ProxySession), w.sessions[i]? = some s → s.InStep

theorem Stepping.step {e : Event} (h : Stepping config w) (hstep : World.step w e = some w') :
    Stepping config w' := by
  refine ⟨h.delivering.step (fun _ _ _ => trivial) (fun _ op r _ => failuresOf_subset op r) hstep,
    inStep_keptQuietly.step h.delivering.sound hstep h.inStep ?_⟩
  rintro i op r s rfl hlock hmem -
  obtain ⟨hget, -⟩ := lock_eq_some.mp hlock
  exact (handle_handled op r (w.context i (deliver s op r))).inStep
    (h.delivering.sound.phase i s hget) rfl hmem (h.inStep i s hget)

theorem mem_calls_of_relayed {s : ProxySession} {op : Op} (hmem : op ∈ s.relayed) :
    ∃ valid, .start op valid ∈ s.calls := by
  obtain ⟨call, hcall, heq⟩ := List.mem_filterMap.mp hmem
  cases call with
  | start op' valid =>
      simp only [relayOf] at heq
      split at heq
      · obtain rfl := Option.some.inj heq
        exact ⟨valid, hcall⟩
      · cases heq
  | _ => cases heq

/-- In every run, also after a timeout or a failure, a session relays in order: it resolves the
configured upstream, and it starts each operation after the one before it has succeeded.  The
upstream sees one request at most, and this forwards the body of the client. -/
theorem exchange_inOrder (hcreate : ProxyServer.create config = .ok server)
    (hrun : run World.step (World.init server) events = some w) {s : ProxySession}
    (hs : s ∈ w.sessions) :
    s.InStep ∧ s.relayed.countP Op.isUpstreamRequest ≤ 1 ∧
      (∀ host service, .resolve host service ∈ s.relayed →
        host = config.upstreamHost ∧ service = decimal config.upstreamPort) ∧
      ∀ request, .writeUpstream request ∈ s.relayed →
        Forwards config s.clientRequest request := by
  have hinit : Stepping config (World.init server) :=
    ⟨.init hcreate, fun _ _ hi => nomatch hi⟩
  have h : Stepping config w := run_induct hrun hinit fun _ _ _ h hstep => h.step hstep
  obtain ⟨i, hi⟩ := List.getElem?_of_mem hs
  have hauthentic := h.delivering.authentic i s hi
  refine ⟨h.inStep i s hi, ?_, fun host service hmem => ?_, fun request hmem => ?_⟩
  · refine (h.inStep i s hi).countP_le_one (relaying_length_le (h.delivering.sound.phase i s hi))
      (show 2 < 5 by decide) fun op hop => ?_
    cases op <;> first | rfl | cases hop
  · obtain ⟨valid, hcall⟩ := mem_calls_of_relayed hmem
    exact hauthentic.carries hcall
  · obtain ⟨valid, hcall⟩ := mem_calls_of_relayed hmem
    rw [show request = upstreamRequestOf config {} s.clientRequest from hauthentic.carries hcall]
    exact upstreamRequestOf_forwards config s.clientRequest

/-- A request that is relayed up to the read of the header. -/
def requestWritten : List Event :=
  [.accept, .complete 0 .readRequest { request := chatRequest },
    .complete 0 (.resolve (bytes "127.0.0.1") (bytes "8000")) {}, .complete 0 .connect {},
    .complete 0 (.writeUpstream (upstreamRequestOf oneSlotConfig {} chatRequest)) {}]

theorem requestWritten_run : ∃ w s,
    run World.step (World.init oneSlotServer) requestWritten = some w ∧ w.sessions = [s] ∧
    s.clientRequest = chatRequest ∧ s.relayed = [
      .resolve (bytes "127.0.0.1") (bytes "8000"), .connect,
      .writeUpstream (upstreamRequestOf oneSlotConfig {} chatRequest), .readHeader] :=
  ⟨_, _, rfl, rfl, rfl, rfl⟩

theorem exchange_inOrder_requestWritten : ∃ w s request,
    run World.step (World.init oneSlotServer) requestWritten = some w ∧ w.sessions = [s] ∧
    s.InStep ∧ .resolve (bytes "127.0.0.1") (bytes "8000") ∈ s.relayed ∧
    (bytes "127.0.0.1" = oneSlotConfig.upstreamHost ∧
      bytes "8000" = decimal oneSlotConfig.upstreamPort) ∧
    .writeUpstream request ∈ s.relayed ∧ Forwards oneSlotConfig chatRequest request := by
  obtain ⟨w, s, hrun, hs, hclient, hrelayed⟩ := requestWritten_run
  have hresolve : .resolve (bytes "127.0.0.1") (bytes "8000") ∈ s.relayed := by
    rw [hrelayed]
    exact List.mem_cons_self
  have hwrite : .writeUpstream (upstreamRequestOf oneSlotConfig {} chatRequest) ∈ s.relayed := by
    rw [hrelayed]
    exact .tail _ (.tail _ List.mem_cons_self)
  obtain ⟨hin, -, hhost, hforwards⟩ :=
    exchange_inOrder oneSlotServer_create hrun (by rw [hs]; exact List.mem_cons_self)
  have hforwarded := hforwards _ hwrite
  rw [hclient] at hforwarded
  exact ⟨w, s, _, hrun, hs, hin, hresolve, hhost _ _ hresolve, hwrite, hforwarded⟩

end World

end VllmSloProxy
