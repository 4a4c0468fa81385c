import VllmSloProxy.Lib.Run
import VllmSloProxy.PermitBooks

/-!
# The in-flight cap

A session may start an upstream operation only while it holds a permit, and then no more exchanges
are under way than there are slots.  The continuations after a successful completion do not look at
`finished_`, so this holds of a run exactly when none of them finds its session finished.
-/

namespace VllmSloProxy

open Context Transition Relation Population

namespace ProxySession

/-- An upstream operation is started with a valid permit in hand. -/
def permitted : Call → Bool
  | .start op valid => !op.usesUpstream || valid
  | _ => true

def tracks (underWay : Bool) : Call → Bool
  | .start op _ => underWay || op.usesUpstream
  | .closeUpstream => false
  | _ => underWay

/-- An exchange with the upstream is under way from its first operation until the session closes
the upstream connection. -/
def underWay (s : ProxySession) : Bool := s.calls.foldl tracks false

/-- A call that says nothing about the upstream. -/
def aside : Call → Bool
  | .start op _ => !op.usesUpstream
  | .closeUpstream => false
  | _ => true

theorem permitted_of_aside {call : Call} (h : aside call = true) : permitted call = true := by
  cases call <;> simp_all [aside, permitted]

theorem foldl_tracks_of_aside {calls : List Call} (b : Bool)
    (h : ∀ call ∈ calls, aside call = true) : calls.foldl tracks b = b := by
  induction calls generalizing b with
  | nil => rfl
  | cons call calls ih =>
      have hcall : aside call = true := h call List.mem_cons_self
      have htrack : tracks b call = b := by
        cases call <;> simp_all [aside, tracks]
      rw [List.foldl_cons, htrack]
      exact ih b fun call' hmem => h call' (List.mem_cons_of_mem _ hmem)

/-- What the calls of a session say about its permit. -/
structure HoldsPermit (s : ProxySession) : Prop where
  permitted : ∀ call ∈ s.calls, permitted call = true
  underWay : s.underWay = true → s.permitValid = true

theorem HoldsPermit.extend {s s' : ProxySession} (h : s.HoldsPermit) (more : List Call)
    (hcalls : s'.calls = s.calls ++ more) (hmore : ∀ call ∈ more, aside call = true)
    (hpermit : s.permitValid = true → s'.permitValid = true) : s'.HoldsPermit := by
  refine ⟨fun call hmem => ?_, fun hway => hpermit (h.underWay ?_)⟩
  · rw [hcalls] at hmem
    exact (List.mem_append.mp hmem).elim (h.permitted call)
      fun hmem => permitted_of_aside (hmore call hmem)
  · unfold ProxySession.underWay at hway ⊢
    rw [hcalls, List.foldl_append, foldl_tracks_of_aside _ hmore] at hway
    exact hway

/-- Once the upstream is closed no exchange is under way. -/
theorem HoldsPermit.close {s s' : ProxySession} (h : s.HoldsPermit) (more : List Call)
    (hcalls : s'.calls = s.calls ++ .closeUpstream :: more)
    (hmore : ∀ call ∈ more, aside call = true) : s'.HoldsPermit := by
  refine ⟨fun call hmem => ?_, fun hway => ?_⟩
  · rw [hcalls] at hmem
    rcases List.mem_append.mp hmem with hmem | hmem
    · exact h.permitted call hmem
    · rcases List.mem_cons.mp hmem with rfl | hmem
      · rfl
      · exact permitted_of_aside (hmore call hmem)
  · unfold ProxySession.underWay at hway
    rw [hcalls, List.foldl_append, List.foldl_cons, tracks, foldl_tracks_of_aside _ hmore] at hway
    cases hway

/-- An upstream operation is started while the permit is valid. -/
theorem HoldsPermit.start {s : ProxySession} (h : s.HoldsPermit) (op : Op)
    (hvalid : op.usesUpstream = true → s.permitValid = true) : (s.start op).HoldsPermit := by
  refine ⟨fun call hmem => ?_, fun hway => ?_⟩
  · rw [start_calls] at hmem
    rcases List.mem_append.mp hmem with hmem | hmem
    · exact h.permitted call hmem
    · rw [List.mem_singleton.mp hmem, ProxySession.permitted]
      cases hop : op.usesUpstream with
      | true => rw [hvalid hop]; rfl
      | false => rfl
  · rw [start_permitValid]
    unfold ProxySession.underWay at hway
    rw [start_calls, List.foldl_append, List.foldl_cons, List.foldl_nil, tracks] at hway
    rcases Bool.or_eq_true_iff.mp hway with hway | hop
    · exact h.underWay hway
    · exact hvalid hop

end ProxySession

open ProxySession

/-- The completions after which a session goes on to its next upstream operation. -/
def continuesUpstream (alive : Bool) (op : Op) (r : Outcome) : Bool :=
  match op with
  | .resolve _ _ | .connect | .writeSseHeader _ | .writeBody _ false => r.ec.isNone && alive
  | .writeUpstream _ => r.ec.isNone
  | .readBody => r.ec = some .needBuffer && alive
  | _ => false

namespace Context

variable {c c' c₁ : Context} {op next : Op} {r : Outcome}

theorem endingCalls_aside (ending : Ending) :
    ∃ more, c.endingCalls ending = .closeUpstream :: more ∧
      ∀ call ∈ more, aside call = true := by
  unfold endingCalls
  refine ⟨_, rfl, fun call hmem => ?_⟩
  split at hmem
  · rw [List.mem_singleton.mp hmem]
    cases ending <;> rfl
  · cases hmem

theorem Ends.holdsPermit {ending : Ending} (h : Ends ending c c') (hs : c.self.HoldsPermit) :
    c'.self.HoldsPermit := by
  cases h with
  | already => exact hs
  | quietly =>
      obtain ⟨more, hmore, haside⟩ := endingCalls_aside (c := c) ending
      refine hs.close (more ++ [.closeClient]) ?_ ?_
      · simp [settle_eq, hmore]
      · simpa [aside, or_imp, forall_and] using haside
  | withError response =>
      obtain ⟨more, hmore, haside⟩ := endingCalls_aside (c := c) ending
      refine hs.close (more ++ [.start (.writeError response) false]) ?_ ?_
      · simp [settle_eq, hmore, permitValid]
      · simpa [aside, or_imp, forall_and, Op.usesUpstream] using haside

theorem Prepares.holdsPermit (h : Prepares c c₁) (hs : c.self.HoldsPermit) :
    c₁.self.HoldsPermit := by
  obtain ⟨calls, hcalls, heq⟩ := h.calls
  refine hs.extend calls heq (fun call hmem => ?_) fun hp => h.permitValid.trans hp
  rw [hcalls call hmem]
  rfl

theorem startProxyRequest_holdsPermit (halive : c.server.alive = true)
    (hpermit : c.self.permit = none) (hs : c.self.HoldsPermit) :
    (c.startProxyRequest (Permit.owning ())).self.HoldsPermit := by
  rw [startProxyRequest_eq _ halive hpermit]
  have hpermitted : ({ c.self with
      permit := some (Permit.owning ()), requestStart := some c.clock } :
      ProxySession).HoldsPermit := ⟨hs.permitted, fun _ => rfl⟩
  exact (hpermitted.start (.requestTimer false) fun _ => rfl).start _ fun _ => rfl

theorem Requested.holdsPermit (h : Requested c c') (hpermit : c.self.permit = none)
    (hs : c.self.HoldsPermit) : c'.self.HoldsPermit := by
  have hcounted : c.counted.self.HoldsPermit :=
    hs.extend [.recordStarted] rfl (by simp [aside]) fun hp => hp
  cases h with
  | unread => exact ⟨hs.permitted, hs.underWay⟩
  | refused _ hends => exact hends.holdsPermit hs
  | health => exact hs.start _ fun h => nomatch h
  | admitted halive =>
      exact startProxyRequest_holdsPermit (c := c.counted.setLimiter _) halive hpermit hcounted
  | queued => exact hcounted
  | turnedAway _ _ hends => exact hends.holdsPermit hcounted

theorem Relay.continues (h : Relay op r c c₁ next) (hnext : next.usesUpstream = true) :
    continuesUpstream c.server.alive op r = true := by
  cases h <;> simp_all [continuesUpstream, Op.usesUpstream]

/-- After such a completion the session does start its next upstream operation. -/
theorem handle_of_continues (h : continuesUpstream c.server.alive op r = true) :
    ∃ c₁ next, next.usesUpstream = true ∧ Relay op r c c₁ next ∧
      c.handle op r = c₁.start next := by
  cases op with
  | resolve host service =>
      simp only [continuesUpstream, Bool.and_eq_true, Option.isNone_iff_eq_none] at h
      refine ⟨_, _, ?_, .resolved host service rfl h.1 h.2, ?_⟩
      · rfl
      · simp [handle, onResolve, connectUpstream, h]
  | connect =>
      simp only [continuesUpstream, Bool.and_eq_true, Option.isNone_iff_eq_none] at h
      let request := upstreamRequestOf c.server.config c.self.upstreamRequest c.self.clientRequest
      refine ⟨_, _, ?_, .connected request rfl h.1 h.2, ?_⟩
      · rfl
      · simp [handle, onConnect, writeUpstreamRequest, h, request]
  | writeUpstream request =>
      simp only [continuesUpstream, Option.isNone_iff_eq_none] at h
      refine ⟨_, _, ?_, .requestWritten request rfl h, ?_⟩
      · rfl
      · simp [handle, onWriteUpstream, readUpstreamHeader, h]
  | writeSseHeader header =>
      simp only [continuesUpstream, Bool.and_eq_true, Option.isNone_iff_eq_none] at h
      refine ⟨_, _, ?_, .headerWritten header rfl h.1 h.2, ?_⟩
      · rfl
      · simp [handle, onWriteSseHeader, readUpstreamBody, h]
  -- `need_buffer` with an empty buffer: the next read is begun at once
  | readBody =>
      simp only [continuesUpstream, Bool.and_eq_true, decide_eq_true_eq] at h
      refine ⟨_, _, ?_, .bufferFull rfl h.1 h.2, ?_⟩
      · rfl
      · simp [handle, onReadBody, readUpstreamBody, h]
  | writeBody payload upstreamDone =>
      cases upstreamDone with
      -- after the last chunk the request is finished
      | true => cases h
      | false =>
          simp only [continuesUpstream, Bool.and_eq_true, Option.isNone_iff_eq_none] at h
          refine ⟨_, _, ?_, .bodyWritten payload rfl h.1 h.2, ?_⟩
          · rfl
          · simp [handle, onWriteBody, readUpstreamBody, h]
  | _ => cases h

theorem Handled.holdsPermit {s : ProxySession} {e : Nat} (h : Handled op r c c')
    (hphase : s.Phase e) (hself : c.self = World.deliver s op r) (hmem : op ∈ s.pending)
    (hfinished : s.finished = true → continuesUpstream c.server.alive op r = false)
    (hs : s.HoldsPermit) : c'.self.HoldsPermit := by
  have hc : c.self.HoldsPermit := by
    rw [hself]
    refine hs.extend [] ?_ (by simp) ?_
    · rw [World.deliver_calls, List.append_nil]
    · rw [World.deliver_permitValid]; exact fun hp => hp
  cases h with
  | timer => exact hc
  | timedOut _ _ _ _ _ hends =>
      refine hends.holdsPermit ?_
      rw [timeOut_self]
      exact ⟨hc.permitted, hc.underWay⟩
  | expired _ _ _ _ hends => exact hends.holdsPermit hc
  | read _ hop hrequested =>
      refine hrequested.holdsPermit ?_ ⟨hc.permitted, hc.underWay⟩
      show c.self.permit = none
      rw [hself, World.deliver_permit]
      exact (hphase.of_opening hmem (by rw [hop]; rfl)).1.permit
  | wroteText =>
      exact hc.extend [.closeClient] rfl (by simp [aside]) fun hp => hp
  | wroteError =>
      exact hc.extend [.closeClient] rfl (by simp [aside]) fun hp => hp
  | ended _ c₁ _ _ _ hobserves hends => exact hends.holdsPermit (hobserves.prepares.holdsPermit hc)
  | relayed c₁ next hrelay =>
      have hprep := hrelay.prepares
      refine (hprep.holdsPermit hc).start next fun hnext => ?_
      have hcontinues := hrelay.continues hnext
      rw [hprep.permitValid, hself, World.deliver_permitValid]
      -- the relay goes on: the session runs on its permit, or it is the resumed one
      rcases hphase.of_relay hmem hrelay.isRelay.1 with hrunning | hover
      · rw [ProxySession.permitValid, hrunning.permit]
        rfl
      · rw [hfinished hover.finished] at hcontinues
        cases hcontinues

end Context

namespace World

variable {config : ProxyConfig} {server : ProxyServer} {w w' : World}

/-- How many sessions have an exchange with the upstream under way. -/
def exchanges (w : World) : Nat := w.sessions.countP underWay

/-- Upstream operations were started with a permit only, and the cap bounds the exchanges. -/
structure CapHolds (config : ProxyConfig) (w : World) : Prop where
  permitted : ∀ s ∈ w.sessions, ∀ call ∈ s.calls, permitted call = true
  exchanges : w.exchanges ≤ config.maxInflight

/-- A completion that goes on to the next upstream operation finds its session finished. -/
def resumesFinished (w : World) : Event → Bool
  | .complete i op r =>
      (w.lock i).any fun s => s.finished && continuesUpstream w.server.alive op r
  | _ => false

/-- What keeps the cap from one step to the next. -/
structure Capped (config : ProxyConfig) (w : World) : Prop where
  sound : w.Sound
  holdsPermit : ∀ (i : Nat) (s : ProxySession), w.sessions[i]? = some s → s.HoldsPermit
  books : w.PermitBooks
  maxInflight : w.server.limiter.maxInflight = config.maxInflight

theorem Capped.capHolds (h : Capped config w) : CapHolds config w := by
  refine ⟨fun s hmem => ?_, ?_⟩
  · obtain ⟨i, hi⟩ := List.getElem?_of_mem hmem
    exact (h.holdsPermit i s hi).permitted
  · have hle : w.exchanges ≤ w.sessions.countP permitValid := by
      refine List.countP_mono_left fun s hmem hway => ?_
      obtain ⟨i, hi⟩ := List.getElem?_of_mem hmem
      exact (h.holdsPermit i s hi).underWay hway
    calc w.exchanges
        ≤ w.sessions.countP permitValid := hle
      _ ≤ w.server.limiter.currentInflight := h.books.held
      _ ≤ w.server.limiter.maxInflight := h.books.capped
      _ = config.maxInflight := h.maxInflight

/-- One session has gone from `c` to `c'`, which is now put back. -/
theorem Capped.put {c c' : Context} {s : ProxySession} (h : Capped config w)
    (hsound : (w.put c').Sound) (hget : w.sessions[c'.id]? = some s)
    (hcurrent : c.server.limiter.currentInflight = w.server.limiter.currentInflight)
    (hmax : c.server.limiter.maxInflight = w.server.limiter.maxInflight)
    (hpermit : c.self.permitValid = s.permitValid) (hbalanced : Balanced c c')
    (hframe : c'.server.limiter.maxInflight = c.server.limiter.maxInflight)
    (hholds : c'.self.HoldsPermit) : Capped config (w.put c') := by
  refine ⟨hsound, forall_put h.holdsPermit hget hholds, ?_, ?_⟩
  · refine h.books.put hget ?_ (hbalanced.capped ?_)
    · have hheld := hbalanced.held
      rw [hcurrent] at hheld
      simp only [share, hpermit] at hheld ⊢
      exact hheld
    · rw [hcurrent, hmax]
      exact h.books.capped
  · exact hframe.trans (hmax.trans h.maxInflight)

theorem Capped.complete {i : Nat} {op : Op} {r : Outcome} {s : ProxySession}
    (h : Capped config w) (hlock : w.lock i = some s) (hmem : op ∈ s.pending)
    (hdeliverable : deliverable s op r = true)
    (hok : resumesFinished w (.complete i op r) = false) :
    Capped config (w.put ((w.context i (deliver s op r)).handle op r)) := by
  obtain ⟨hget, -⟩ := lock_eq_some.mp hlock
  have hphase : s.Phase (w.server.posted i) := h.sound.phase i s hget
  have hhandled := handle_handled op r (w.context i (deliver s op r))
  have hid : ((w.context i (deliver s op r)).handle op r).id = i := hhandled.frame.id
  refine h.put (h.sound.complete hlock hmem hdeliverable) (by rw [hid]; exact hget) rfl rfl ?_
    (hhandled.balanced fun hread => ?_) hhandled.frame.server.maxInflight ?_
  · exact deliver_permitValid s op r
  · show (deliver s op r).permit = none
    rw [deliver_permit]
    exact (hphase.of_opening hmem (by rw [hread]; rfl)).1.permit
  · refine hhandled.holdsPermit hphase rfl hmem (fun hfinished => ?_) (h.holdsPermit i s hget)
    rw [resumesFinished, hlock, Option.any_some, hfinished, Bool.true_and] at hok
    exact hok

theorem Capped.quiet (h : Capped config w) (hq : Quiet w w') : Capped config w' := by
  have hsound : w'.Sound := h.sound.quiet hq
  cases hq with
  | books _ hsame =>
      refine ⟨hsound, ?_, ⟨?_, ?_⟩, ?_⟩
      · rw [hsame.sessions]
        exact h.holdsPermit
      · rw [hsame.sessions, hsame.currentInflight]
        exact h.books.held
      · rw [hsame.currentInflight, hsame.maxInflight]
        exact h.books.capped
      · rw [hsame.maxInflight, h.maxInflight]
  -- a new session uses no upstream and holds no permit
  | arrived sseParser accepting _ =>
      have hfresh : ({ sseParser } : ProxySession).HoldsPermit :=
        ⟨fun _ hmem => (nomatch hmem), fun hway => (nomatch hway)⟩
      have hnew := hfresh.start .readRequest fun hop => nomatch hop
      refine ⟨hsound, fun i s hi => ?_, ⟨?_, h.books.capped⟩, h.maxInflight⟩
      · rcases getElem?_snoc hi with hi | ⟨-, rfl⟩
        · exact h.holdsPermit i s hi
        · exact hnew
      · rw [countP_snoc, share_false rfl]
        exact h.books.held
  | closed i s hlock =>
      obtain ⟨hget, -⟩ := lock_eq_some.mp hlock
      refine h.put (c := w.context i s) hsound hget rfl rfl rfl (.of_eq rfl rfl rfl) rfl ?_
      exact (h.holdsPermit i s hget).extend [.closeClient] rfl (by simp [aside])
        fun hp => hp
  | enqueued i s strand hstrand hlock =>
      obtain ⟨hget, -⟩ := lock_eq_some.mp hlock
      have halive : w.server.alive = true :=
        h.sound.alive_of_strand (hstrand ▸ List.cons_ne_nil _ _)
      rw [startQueueTimer_eq halive] at hsound ⊢
      refine h.put (c := w.context i s) hsound hget rfl rfl rfl (.of_eq rfl rfl rfl) rfl ?_
      have hholds : ({ s with queued := true } : ProxySession).HoldsPermit :=
        ⟨(h.holdsPermit i s hget).permitted, (h.holdsPermit i s hget).underWay⟩
      exact hholds.start (.queueTimer false) fun hop => nomatch hop
  -- the promoted session takes the permit before its request is started
  | promoted i s halive hlock hqueued hclosed hwaiting hslot =>
      obtain ⟨hget, -⟩ := lock_eq_some.mp hlock
      obtain ⟨idle, -, -, -⟩ := (h.sound.phase i s hget).waiting_of_queued hqueued
      have heq := tryStartFromQueue_of_queued (c := w.takePromoted.context i s)
        (Permit.owning ()) hqueued idle.finished
      rw [heq] at hsound ⊢
      have hholds := h.holdsPermit i s hget
      show Capped config (w.put _)
      refine h.put (c := (w.takePromoted.context i s).dequeued.setLimiter w.server.limiter) (s := s)
        hsound ?_ rfl rfl rfl ?_ (startProxyRequest_frame _).server.maxInflight ?_
      · rw [(startProxyRequest_frame _).id]
        exact hget
      · exact startProxyRequest_balanced halive idle.permit rfl rfl hslot
      · exact startProxyRequest_holdsPermit halive idle.permit ⟨hholds.permitted, hholds.underWay⟩
  | destructed i s hlock hpending hposted =>
      obtain ⟨hget, -⟩ := lock_eq_some.mp hlock
      have heq := h.sound.destruct_eq hlock hpending
      rw [heq] at hsound ⊢
      have hholds := h.holdsPermit i s hget
      exact h.put (c := w.context i s) hsound hget rfl rfl rfl (.of_eq rfl rfl rfl) rfl
        ⟨hholds.permitted, hholds.underWay⟩

theorem Capped.step {e : Event} (h : Capped config w) (hok : resumesFinished w e = false)
    (hstep : step w e = some w') : Capped config w' := by
  rcases step_cases h.sound hstep with
    ⟨i, op, r, s, rfl, hlock, hmem, hdeliverable, rfl⟩ |
      ⟨i, s, strand, -, hstrand, -, hlock, rfl⟩ | hquiet
  · exact h.complete hlock hmem hdeliverable hok
  · have htaken : Capped config (w.setStrand strand) :=
      ⟨h.sound.popEnqueue hstrand _ rfl rfl rfl, h.holdsPermit, ⟨h.books.1, h.books.2⟩,
        h.maxInflight⟩
    exact htaken.quiet (.closed i s hlock)
  · clear hstep
    induction hquiet with
    | refl => exact h
    | tail _ hq ih => exact ih.quiet hq

theorem Capped.init (hcreate : ProxyServer.create config = .ok server) :
    Capped config (World.init server) := by
  have hstarted := create_started hcreate
  refine ⟨Sound.init hcreate, fun i s hi => (by cases hi), ⟨Nat.zero_le _, ?_⟩,
    hstarted.maxInflight⟩
  show server.limiter.currentInflight ≤ _
  rw [hstarted.currentInflight]
  exact Nat.zero_le _

/-- A finished session that goes on starts its next upstream operation without a permit. -/
theorem resumesFinished_breaks {e : Event} (h : Capped config w) (hbad : resumesFinished w e = true)
    (hstep : step w e = some w') : ¬ CapHolds config w' := by
  cases e with
  | complete i op r =>
      obtain ⟨s, hlock, hmem, hdeliverable, rfl⟩ := complete_eq_some hstep
      rw [resumesFinished, hlock, Option.any_some, Bool.and_eq_true] at hbad
      obtain ⟨hget, -⟩ := lock_eq_some.mp hlock
      obtain ⟨c₁, next, hnext, hrelay, heq⟩ :=
        handle_of_continues (c := w.context i (deliver s op r)) hbad.2
      have hprep := hrelay.prepares
      -- the session is over, so its permit is gone
      have hpermit : c₁.self.permitValid = false := by
        rw [hprep.permitValid]
        show (deliver s op r).permitValid = false
        rw [deliver_permitValid, ProxySession.permitValid]
        rcases (h.sound.phase i s hget).of_relay hmem hrelay.isRelay.1 with hrunning | hover
        · rw [hrunning.finished] at hbad
          cases hbad.1
        · rw [hover.permit]
          rfl
      intro hcap
      rw [heq] at hcap
      have hid : (c₁.start next).id = i := hprep.id
      have hstart := hcap.permitted _ (put_self_mem (by rw [hid]; exact hget))
        (.start next c₁.self.permitValid) (by simp)
      rw [ProxySession.permitted, hnext, hpermit] at hstart
      cases hstart
  | _ => cases hbad

/-- The cap bounds the upstream load in every state of a run exactly when no completion resumes a
finished session in it. -/
theorem capHolds_iff {events : List Event} (hcreate : ProxyServer.create config = .ok server)
    (hrun : run step (World.init server) events = some w) :
    Always step (CapHolds config) (World.init server) events ↔
      Meets step (fun w e => resumesFinished w e = false) (World.init server) events := by
  refine always_iff_meets hrun (Capped.init hcreate) (fun _ => Capped.capHolds)
    (fun _ _ _ h hok hstep => h.step hok hstep) fun _ _ _ h hbad hstep => ?_
  exact resumesFinished_breaks h (by simpa using hbad) hstep

instance (config : ProxyConfig) (w : World) : Decidable (CapHolds config w) :=
  decidable_of_iff ((∀ s ∈ w.sessions, ∀ call ∈ s.calls, permitted call = true) ∧
    w.exchanges ≤ config.maxInflight) ⟨fun h => ⟨h.1, h.2⟩, fun h => ⟨h.1, h.2⟩⟩

/-- The resolver answers a session whose request timer has fired, while the next request already
uses the slot. -/
def resolveAfterTimeout : List Event :=
  [.accept, .complete 0 .readRequest { request := chatRequest },
    .complete 0 (.requestTimer false) {},
    .accept, .complete 1 .readRequest { request := chatRequest },
    .complete 0 (.resolve (bytes "127.0.0.1") (bytes "8000")) {}]

theorem capHolds_resolveAfterTimeout :
    (run step (World.init oneSlotServer) resolveAfterTimeout).map
      (fun w => decide (CapHolds oneSlotConfig w)) = some false := by
  decide

/-- A request that is resolved and connected before its timer fires. -/
def resolveThenTimeout : List Event :=
  [.accept, .complete 0 .readRequest { request := chatRequest },
    .complete 0 (.resolve (bytes "127.0.0.1") (bytes "8000")) {}, .complete 0 .connect {},
    .complete 0 (.requestTimer false) {}]

theorem capHolds_resolveThenTimeout :
    Always step (CapHolds oneSlotConfig) (World.init oneSlotServer) resolveThenTimeout :=
  have hrun : (run step (World.init oneSlotServer) resolveThenTimeout).isSome = true := by decide
  (capHolds_iff oneSlotServer_create (Option.some_get hrun).symm).mpr (by decide)

end World

end VllmSloProxy
