import VllmSloProxy.Accounting
import VllmSloProxy.QueueDiscipline
import VllmSloProxy.SessionMessages

/-!
# The figures of the health endpoint

Until `stop` is called every request that was counted is completed, failed, in flight or waiting, so
the figures that `/health` reports add up.
-/

namespace VllmSloProxy

open Context Transition Relation Population ProxySession

namespace Context

variable {c c' c₁ : Context} {op next : Op} {r : Outcome} {ending : Ending}

/-- The slots taken change by what the session gains or loses. -/
def Conserves (c c' : Context) : Prop :=
  share permitValid c'.self + c.server.limiter.currentInflight =
    share permitValid c.self + c'.server.limiter.currentInflight

theorem Conserves.of_eq (hpermit : c'.self.permitValid = c.self.permitValid)
    (hcurrent : c'.server.limiter.currentInflight = c.server.limiter.currentInflight) :
    Conserves c c' := by
  unfold Conserves share
  rw [hpermit, hcurrent]

theorem Conserves.trans (h : Conserves c c₁) (h' : Conserves c₁ c') : Conserves c c' := by
  unfold Conserves at h h' ⊢
  omega

/-- The slot that the session held comes back. -/
theorem settle_conserves (halive : c.server.alive = true)
    (hheld : share permitValid c.self ≤ c.server.limiter.currentInflight) (ending : Ending) :
    Conserves c (c.settle ending) := by
  have hself : (c.settle ending).self.permitValid = false := by
    simp [settle_eq, ProxySession.permitValid]
  have halive' : (c.recordedServer ending).alive = true := by
    unfold recordedServer
    split <;> exact halive
  have hserver : (c.settle ending).server =
      c.self.permit.elim (c.recordedServer ending) (c.recordedServer ending).releasePermit := by
    rw [settle_eq]
  unfold Conserves
  rw [share_false hself, hserver]
  cases hpermit : c.self.permit with
  | none =>
      have hvalid : c.self.permitValid = false := by rw [ProxySession.permitValid, hpermit]; rfl
      rw [share_false hvalid, Option.elim_none, recordedServer_limiter]
  | some permit =>
      rw [Option.elim_some]
      have hvalid : c.self.permitValid = permit.ownsSlot := by
        rw [ProxySession.permitValid, hpermit]
        rfl
      rcases ProxyServer.releasePermit_cases permit (c.recordedServer ending) with
        ⟨h, hidle | hdead⟩ | ⟨howns, -, h⟩
      · rw [h, share_false (hvalid.trans hidle), recordedServer_limiter]
      · rw [halive'] at hdead
        cases hdead
      · rw [share_true (hvalid.trans howns)] at hheld ⊢
        rw [h]
        simp only [recordedServer_limiter, InflightLimiter.giveBack_currentInflight]
        omega

theorem Ends.conserves (h : Ends ending c c') (halive : c.server.alive = true)
    (hheld : share permitValid c.self ≤ c.server.limiter.currentInflight) : Conserves c c' := by
  cases h with
  | already => exact .of_eq rfl rfl
  | quietly => exact (settle_conserves halive hheld ending).trans (.of_eq rfl rfl)
  | withError => exact (settle_conserves halive hheld ending).trans (.of_eq rfl rfl)

theorem Prepares.conserves (h : Prepares c c₁) : Conserves c c₁ :=
  .of_eq h.permitValid (by rw [h.limiter])

theorem timeOut_permitValid : c.timeOut.self.permitValid = c.self.permitValid := by
  rw [timeOut_self]
  rfl

theorem timeOut_currentInflight :
    c.timeOut.server.limiter.currentInflight = c.server.limiter.currentInflight := by
  unfold timeOut
  split
  · exact cancelQueued_currentInflight _
  · rfl

/-- The slot that was taken goes to the session. -/
theorem startProxyRequest_conserves (current : Nat) (halive : c.server.alive = true)
    (hpermit : c.self.permit = none)
    (hcurrent : c.server.limiter.currentInflight = current + 1) :
    share permitValid (c.startProxyRequest (Permit.owning ())).self + current =
      share permitValid c.self +
        (c.startProxyRequest (Permit.owning ())).server.limiter.currentInflight := by
  have hself : (c.startProxyRequest (Permit.owning ())).self.permitValid = true := by
    rw [startProxyRequest_eq _ halive hpermit]
    rfl
  have hbefore : c.self.permitValid = false := by rw [ProxySession.permitValid, hpermit]; rfl
  rw [share_true hself, share_false hbefore, startProxyRequest_server _ halive hpermit, hcurrent]
  omega

theorem Requested.conserves (h : Requested c c') (hpermit : c.self.permit = none)
    (halive : c.server.alive = true) : Conserves c c' := by
  have hheld (limiter : InflightLimiter Task) :
      share permitValid c.self ≤ limiter.currentInflight := by
    rw [share_false (by rw [ProxySession.permitValid, hpermit]; rfl)]
    exact Nat.zero_le _
  have hcounted : Conserves c c.counted := .of_eq rfl rfl
  cases h with
  | unread => exact .of_eq rfl rfl
  | refused _ hends => exact hends.conserves halive (hheld _)
  | health => exact .of_eq rfl rfl
  | admitted =>
      exact startProxyRequest_conserves (c := c.counted.setLimiter _) _ halive hpermit rfl
  | queued => exact .of_eq rfl rfl
  | turnedAway _ _ hends => exact hcounted.trans (hends.conserves halive (hheld _))

theorem Handled.conserves (h : Handled op r c c') (halive : c.server.alive = true)
    (hread : op = .readRequest → c.self.permit = none)
    (hheld : share permitValid c.self ≤ c.server.limiter.currentInflight) : Conserves c c' := by
  cases h with
  | timer => exact .of_eq rfl rfl
  | timedOut _ _ _ _ _ hends =>
      have htimeOut : Conserves c c.timeOut := .of_eq timeOut_permitValid timeOut_currentInflight
      refine htimeOut.trans (hends.conserves (timeOut_frame.server.alive.trans halive) ?_)
      unfold share at hheld ⊢
      rw [timeOut_permitValid, timeOut_currentInflight]
      exact hheld
  | expired _ _ _ _ hends => exact hends.conserves halive hheld
  | read _ hop hrequested =>
      have hbefore : Conserves c (c.setSelf { c.self with clientRequest := r.request }) :=
        .of_eq rfl rfl
      exact hbefore.trans (hrequested.conserves (hread hop) halive)
  | wroteText => exact .of_eq rfl rfl
  | wroteError => exact .of_eq rfl rfl
  | ended _ c₁ _ _ _ hobserves hends =>
      have hprep := hobserves.prepares
      refine hprep.conserves.trans (hends.conserves (hobserves.frame.server.alive.trans halive) ?_)
      unfold share at hheld ⊢
      rw [hprep.permitValid, hprep.limiter]
      exact hheld
  | relayed _ _ hrelay => exact hrelay.prepares.conserves.trans (.of_eq rfl rfl)

theorem KeepsQueue.queueSize (h : KeepsQueue c c') {size : Nat}
    (hsize : c.server.limiter.queuedRequests ≤ size) :
    c'.server.limiter.queuedRequests ≤ size :=
  h.queuedRequests.trans_le hsize

theorem timeOut_queuedRequests_le :
    c.timeOut.server.limiter.queuedRequests ≤ c.server.limiter.queuedRequests := by
  unfold timeOut
  split
  · rcases c.server.limiter.cancelQueued_cases with ⟨-, h⟩ | ⟨-, h⟩
    · show c.server.limiter.cancelQueued.2.queuedRequests ≤ _
      rw [h]
    · show c.server.limiter.cancelQueued.2.queuedRequests ≤ _
      rw [h]
      exact Nat.sub_le _ _
  · exact Nat.le_refl _

/-- A place in the queue is taken only while there is one. -/
theorem Requested.queueSize (h : Requested c c') (hpermit : c.self.permit = none)
    (hcb : c.server.limiter.onRelease = some .promote)
    (hsize : c.server.limiter.queuedRequests ≤ c.server.limiter.maxQueueSize) :
    c'.server.limiter.queuedRequests ≤ c.server.limiter.maxQueueSize := by
  cases h with
  | queued _ _ _ hroom => exact hroom
  | unread => exact hsize
  | health => exact hsize
  | refused _ hends => exact (hends.keepsQueue hcb).queueSize hsize
  | turnedAway _ _ hends =>
      exact (counted_keepsQueue.trans (hends.keepsQueue hcb)).queueSize hsize
  | admitted halive =>
      rw [startProxyRequest_server (c := c.counted.setLimiter _) _ halive hpermit]
      exact hsize

theorem Handled.queueSize (h : Handled op r c c') (hread : op = .readRequest → c.self.permit = none)
    (hcb : c.server.limiter.onRelease = some .promote)
    (hsize : c.server.limiter.queuedRequests ≤ c.server.limiter.maxQueueSize) :
    c'.server.limiter.queuedRequests ≤ c'.server.limiter.maxQueueSize := by
  rw [h.frame.server.maxQueueSize]
  rcases h.queueing hread hcb with hkeeps | ⟨hop, -⟩ | ⟨-, hkeeps⟩
  · exact hkeeps.queueSize hsize
  · cases h with
    | read _ _ hrequested => exact hrequested.queueSize (hread hop) hcb hsize
    | relayed _ _ hrelay => exact hrelay.prepares.keepsQueue.queueSize hsize
    | ended _ _ _ hrelay => rw [hop] at hrelay; cases hrelay
    | timer => exact hsize
    | timedOut _ _ h' => rw [hop] at h'; cases h'
    | expired _ _ h' => rw [hop] at h'; cases h'
    | wroteText => exact hsize
    | wroteError => exact hsize
  · exact hkeeps.queueSize (timeOut_queuedRequests_le.trans hsize)

end Context

namespace World

variable {config : ProxyConfig} {server : ProxyServer} {w w' : World} {i : Nat} {s : ProxySession}

/-- Every slot that is taken is held by a session, and a session that is gone waits for nothing. -/
structure SlotsHeld (w : World) : Prop where
  slots : w.server.limiter.currentInflight = w.sessions.countP permitValid
  gone : ∀ (i : Nat) (s : ProxySession), w.sessions[i]? = some s → s.destroyed = true →
    s.pending = []

theorem SlotsHeld.put {c c' : Context} (h : w.SlotsHeld) (hget : w.sessions[c'.id]? = some c.self)
    (hcurrent : c.server.limiter.currentInflight = w.server.limiter.currentInflight)
    (hconserves : Conserves c c') (hgone : c'.self.destroyed = true → c'.self.pending = []) :
    (w.put c').SlotsHeld := by
  refine ⟨?_, forall_put h.gone hget hgone⟩
  have hset : (w.sessions.set c'.id c'.self).countP permitValid + share permitValid c.self =
      w.sessions.countP permitValid + share permitValid c'.self := countP_set hget
  have hslots := h.slots
  unfold Conserves at hconserves
  show c'.server.limiter.currentInflight = (w.sessions.set c'.id c'.self).countP permitValid
  omega

theorem SlotsHeld.share_le (h : w.SlotsHeld) (hget : w.sessions[i]? = some s) :
    share permitValid s ≤ w.server.limiter.currentInflight := by
  rw [h.slots]
  exact share_le_countP hget

theorem SlotsHeld.complete {op : Op} {r : Outcome} (h : w.SlotsHeld) (hsound : w.Sound)
    (halive : w.server.alive = true) (hlock : w.lock i = some s) (hmem : op ∈ s.pending) :
    (w.put ((w.context i (deliver s op r)).handle op r)).SlotsHeld := by
  obtain ⟨hget, hs⟩ := lock_eq_some.mp hlock
  have hhandled := handle_handled op r (w.context i (deliver s op r))
  have hid : ((w.context i (deliver s op r)).handle op r).id = i := hhandled.frame.id
  have hvalid : share permitValid (deliver s op r) = share permitValid s := by
    unfold share
    rw [deliver_permitValid]
  have hconserves := hhandled.conserves halive (fun hread => ?_)
    (hvalid.trans_le (h.share_le hget))
  · refine h.put (c := w.context i s) (by rw [hid]; exact hget) rfl ?_ fun hd => ?_
    · unfold Conserves at hconserves ⊢
      exact hconserves.trans (congrArg (· + _) hvalid)
    · rw [hhandled.frame.destroyed] at hd
      exact absurd ((deliver_destroyed s op r).symm.trans hd) (by rw [hs]; exact Bool.false_ne_true)
  · show (deliver s op r).permit = none
    rw [deliver_permit]
    exact ((hsound.phase i s hget).of_opening hmem (by rw [hread]; rfl)).1.permit

theorem SlotsHeld.quiet (h : w.SlotsHeld) (hsound : w.Sound) (hq : Quiet w w') :
    w'.SlotsHeld := by
  cases hq with
  | books _ hsame =>
      refine ⟨?_, ?_⟩
      · rw [hsame.currentInflight, hsame.sessions]
        exact h.slots
      · rw [hsame.sessions]
        exact h.gone
  | arrived sseParser accepting _ =>
      refine ⟨?_, fun i s hi hd => ?_⟩
      · show w.server.limiter.currentInflight = _
        rw [countP_snoc, share_false rfl]
        exact h.slots
      · rcases getElem?_snoc hi with hi | ⟨-, rfl⟩
        · exact h.gone i s hi hd
        · cases hd
  | closed i s hlock =>
      obtain ⟨hget, -⟩ := lock_eq_some.mp hlock
      exact h.put (c := w.context i s) hget rfl (.of_eq rfl rfl) (h.gone i s hget)
  | enqueued i s strand hstrand hlock =>
      obtain ⟨hget, hs⟩ := lock_eq_some.mp hlock
      have halive : w.server.alive = true :=
        hsound.alive_of_strand (hstrand ▸ List.cons_ne_nil _ _)
      rw [startQueueTimer_eq halive]
      refine h.put (c := w.context i s) hget rfl (.of_eq rfl rfl) fun hd => ?_
      exact absurd (hs.symm.trans hd) Bool.false_ne_true
  -- the slot that the promotion takes is the one the session holds
  | promoted i s halive hlock hqueued _ _ _ =>
      obtain ⟨hget, hs⟩ := lock_eq_some.mp hlock
      obtain ⟨idle, -, -, -⟩ := (hsound.phase i s hget).waiting_of_queued hqueued
      rw [tryStartFromQueue_of_queued (c := w.takePromoted.context i s) _ hqueued idle.finished]
      have hframe := startProxyRequest_frame (c := (w.takePromoted.context i s).dequeued)
        (Permit.owning ())
      have hput := startProxyRequest_conserves (c := (w.takePromoted.context i s).dequeued)
        w.server.limiter.currentInflight halive idle.permit rfl
      refine h.put (c := w.context i s) (by rw [hframe.id]; exact hget) rfl hput fun hd => ?_
      rw [hframe.destroyed] at hd
      exact absurd (hs.symm.trans hd) Bool.false_ne_true
  | destructed i s hlock hpending _ =>
      obtain ⟨hget, -⟩ := lock_eq_some.mp hlock
      rw [hsound.destruct_eq hlock hpending]
      exact h.put (c := w.context i s) hget rfl (.of_eq rfl rfl) fun _ => hpending

/-- What the entries that leave the queue and the slots that are taken for them do not change, the
loop of the promotion does not change either. -/
theorem promoteLoop_keeps {p : ProxyServer → Prop}
    (hqueue : ∀ (w : World) queue, p w.server → p (w.setQueue queue).server)
    (htaken : ∀ w : World, p w.server → p w.takePromoted.server) (queue : List Nat) (w : World)
    (hsound : w.Sound) (halive : w.server.alive = true) (h : p w.server) :
    p (w.promoteLoop queue).server := by
  -- along the queue, as in `promote_queued_sessions`
  induction queue generalizing w with
  | nil => exact hqueue w [] h
  | cons i queue ih =>
      have hpopped : (w.setQueue queue).Sound :=
        hsound.quiet (.books _ (setQueue_sameBooks w queue))
      have hskip : p ((w.setQueue queue).promoteLoop queue).server :=
        ih _ hpopped halive (hqueue w queue h)
      rw [promoteLoop]
      cases hlock : w.lock i with
      | none => exact hskip
      | some s =>
          dsimp only
          cases hqueued : s.queued with
          | false => exact hskip
          | true =>
              rw [Bool.not_true, if_neg Bool.false_ne_true]
              rcases w.server.limiter.tryPromoteQueued_cases () with
                ⟨-, hpromote⟩ | ⟨hclosed, hwaiting, hslot, hpromote⟩
              · rw [hpromote]
                split
                · split
                  · exact hskip
                  · exact hqueue w (i :: queue) h
                · rename_i hvalid
                  exact absurd rfl hvalid
              · rw [hpromote]
                have hframe := tryStartFromQueue_frame
                  (c := (w.setQueue queue).takePromoted.context i s) (Permit.owning ())
                refine ih _ (hpopped.quiet
                  (.promoted i s halive hlock hqueued hclosed hwaiting hslot))
                  (hframe.server.alive.trans halive) ?_
                obtain ⟨idle, -, -, -⟩ :=
                  (hsound.phase i s (lock_eq_some.mp hlock).1).waiting_of_queued hqueued
                have hserver := startProxyRequest_server (Permit.owning ()) halive idle.permit
                  (c := ((w.setQueue queue).takePromoted.context i s).dequeued)
                rw [tryStartFromQueue_of_queued (c := World.context _ i s) _ hqueued idle.finished]
                show p (((w.setQueue queue).takePromoted.context i s).dequeued.startProxyRequest
                  (Permit.owning ())).server
                rw [hserver]
                exact htaken _ (hqueue w queue h)

/-- No more sessions wait than there are places in the queue. -/
def PlacesKept (w : World) : Prop :=
  w.server.limiter.queuedRequests ≤ w.server.limiter.maxQueueSize

theorem promoteLoop_placesKept (queue : List Nat) (w : World) (hsound : w.Sound)
    (halive : w.server.alive = true) (h : w.PlacesKept) : (w.promoteLoop queue).PlacesKept :=
  promoteLoop_keeps (p := fun server => server.limiter.queuedRequests ≤ server.limiter.maxQueueSize)
    (fun _ _ h => h) (fun _ h => (Nat.sub_le _ _).trans h) queue w hsound halive h

/-- The figures add up as long as nobody has called `stop`. -/
structure Balancing (w : World) : Prop where
  ordered : w.Ordered
  books : w.Books
  held : w.SlotsHeld
  places : w.PlacesKept

theorem PlacesKept.step {e : Event} (h : w.PlacesKept) (hordered : w.Ordered) (he : e ≠ .stop)
    (hstep : World.step w e = some w') : w'.PlacesKept := by
  have hserving := hordered.lined.serving
  have hsound := hordered.lined.sound
  cases e with
  | stop => exact absurd rfl he
  | accept =>
      simp only [World.step, hserving.accepting, if_true] at hstep
      unfold accepted at hstep
      split at hstep
      · cases hstep
      · obtain rfl := Option.some.inj hstep
        exact h
  | acceptFailed =>
      simp only [World.step, hserving.accepting, if_true] at hstep
      obtain rfl := Option.some.inj hstep
      exact h
  | complete i op r =>
      obtain ⟨s, hlock, hmem, -, rfl⟩ := complete_eq_some hstep
      refine (handle_handled op r (w.context i (deliver s op r))).queueSize (fun hread => ?_)
        hsound.onRelease h
      show (deliver s op r).permit = none
      rw [deliver_permit]
      exact ((hsound.phase i s (lock_eq_some.mp hlock).1).of_opening hmem
        (by rw [hread]; rfl)).1.permit
  | runTask =>
      simp only [World.step] at hstep
      split at hstep
      · cases hstep
      · rename_i task strand hstrand
        obtain rfl := Option.some.inj hstep
        cases task with
        | enqueue i =>
            obtain ⟨s, hlock⟩ := hsound.lock_of_head hstrand
            have hopen : (w.setStrand strand).server.stopping = false := hserving.stopping
            show ((w.setStrand strand).enqueued i).PlacesKept
            unfold enqueued
            rw [hopen, if_neg Bool.false_ne_true]
            show ((w.takeEnqueue i strand).onSession i startQueueTimer).PlacesKept
            rw [onSession_of_lock (w := w.takeEnqueue i strand) hlock,
              startQueueTimer_eq hserving.alive]
            exact h
        -- a promotion only takes reservations away
        | promote =>
            refine promoteLoop_placesKept _ _ (hsound.quiet (.books _ ?_)) hserving.alive h
            exact setStrand_sameBooks hstrand (by simp)
        | stop => exact absurd (hstrand ▸ List.mem_cons_self) hserving.strand
  | destroySession i =>
      simp only [World.step, Option.bind_eq_bind, Option.bind_eq_some_iff,
        Option.guard_eq_some'] at hstep
      obtain ⟨s, hlock, -, ⟨hpending, -⟩, hput⟩ := hstep
      obtain rfl := Option.some.inj hput
      rw [hsound.destruct_eq hlock hpending]
      exact h
  | destroyServer => simp [World.step, hserving.accepting] at hstep
  | tick n =>
      obtain rfl := Option.some.inj hstep
      exact h

theorem Balancing.step {e : Event} (h : w.Balancing) (he : e ≠ .stop)
    (hstep : World.step w e = some w') : w'.Balancing := by
  have hserving := h.ordered.lined.serving
  have hsound := h.ordered.lined.sound
  have hordered := h.ordered.step he hstep
  have haccounting : w.Accounting := ⟨hsound, fun _ => h.books⟩
  have hkept : dropsRequest w e = false := by
    cases e <;> first | rfl | simp [dropsRequest, hserving.stopping]
  refine ⟨hordered, (haccounting.step hkept hstep).books hordered.lined.serving.alive, ?_,
    h.places.step h.ordered he hstep⟩
  rcases step_cases hsound hstep with
    ⟨i, op, r, s, -, hlock, hmem, -, rfl⟩ | ⟨i, s, strand, -, -, hstopping, -, -⟩ | hquiet
  · exact h.held.complete hsound hserving.alive hlock hmem
  · rw [hserving.stopping] at hstopping
    cases hstopping
  · clear hstep hordered hkept
    induction hquiet with
    | refl => exact h.held
    | tail hfirst hq ih => exact ih.quiet (hsound.quiets hfirst) hq

theorem Balancing.init (hcreate : ProxyServer.create config = .ok server) :
    (World.init server).Balancing := by
  have hstarted := create_started hcreate
  refine ⟨Ordered.init hcreate, (Accounting.init hcreate).books hstarted.alive,
    ⟨hstarted.currentInflight, fun _ _ hi => (nomatch hi)⟩, ?_⟩
  show server.limiter.queuedRequests ≤ _
  rw [hstarted.queuedRequests]
  exact Nat.zero_le _

/-- A request that is open holds a slot, or it waits in the queue or for the task that takes it
there. -/
theorem Balancing.mem_waiting_iff (h : w.Balancing) (i : Nat) :
    i ∈ w.waiting ↔ ∃ s, w.sessions[i]? = some s ∧ (s.isOpen && !s.permitValid) = true := by
  have hsound := h.ordered.lined.sound
  have hclear {s : ProxySession} (idle : s.Idle) (counted : s.requestCounted = true) :
      (s.isOpen && !s.permitValid) = true := by
    simp [isOpen, ProxySession.permitValid, counted, idle.finished, idle.permit]
  -- the tasks that are to enqueue `i`, and the count of them
  have hposted : i ∈ w.toEnqueue ↔ w.server.posted i ≠ 0 := by
    unfold toEnqueue ProxyServer.posted
    rw [Nat.ne_zero_iff_zero_lt, List.count_pos_iff, List.mem_filterMap]
    constructor
    · rintro ⟨task, htask, hid⟩
      cases task with
      | enqueue j =>
          obtain rfl : j = i := Option.some.inj hid
          exact htask
      | promote => cases hid
      | stop => cases hid
    · exact fun hmem => ⟨_, hmem, rfl⟩
  constructor
  · intro hmem
    rcases List.mem_append.mp hmem with hmem | hmem
    · obtain ⟨s, hlock, hqueued⟩ := isQueued_eq_true.mp (List.mem_filter.mp hmem).2
      obtain ⟨hget, -⟩ := lock_eq_some.mp hlock
      obtain ⟨idle, counted, -, -⟩ := (hsound.phase i s hget).waiting_of_queued hqueued
      exact ⟨s, hget, hclear idle counted⟩
    · obtain ⟨s, hlock⟩ := hsound.lock_of_posted (hposted.mp hmem)
      obtain ⟨hget, -⟩ := lock_eq_some.mp hlock
      obtain ⟨idle, -, counted, -, -⟩ := (hsound.phase i s hget).asked_of_posted (hposted.mp hmem)
      exact ⟨s, hget, hclear idle counted⟩
  · rintro ⟨s, hget, hopen⟩
    rw [Bool.and_eq_true, Bool.not_eq_true'] at hopen
    obtain ⟨hopen, hpermit⟩ := hopen
    obtain ⟨hcounted, hfinished⟩ := isOpen_eq_true.mp hopen
    have hphase := hsound.phase i s hget
    have hawaited := h.books.awaited i s hget hopen
    generalize he : w.server.posted i = e at hphase
    -- of the phases only two have a counted request, open and without a permit
    cases hphase with
    | reading _ _ counted => rw [counted] at hcounted; cases hcounted
    | health _ _ _ counted => rw [counted] at hcounted; cases hcounted
    | asked _ _ _ pending => exact List.mem_append_right _ (hposted.mpr (hawaited pending))
    | waiting _ queued _ pending =>
        refine h.ordered.lined.mem_waiting (isQueued_eq_true.mpr ⟨s, ?_, queued⟩)
        refine lock_eq_some.mpr ⟨hget, Bool.eq_false_iff.mpr fun hd => ?_⟩
        rw [h.held.gone i s hget hd] at pending
        cases pending
    | running op running =>
        rw [ProxySession.permitValid, running.permit] at hpermit
        cases hpermit
    | ended hover => rw [hover.finished] at hfinished; cases hfinished

theorem Balancing.open_of_permitValid (h : w.Balancing) (hmem : s ∈ w.sessions)
    (hvalid : s.permitValid = true) : s.isOpen = true := by
  obtain ⟨i, hget⟩ := List.getElem?_of_mem hmem
  have hnone (hpermit : s.permit = none) : s.isOpen = true := by
    rw [ProxySession.permitValid, hpermit] at hvalid
    cases hvalid
  have hphase := h.ordered.lined.sound.phase i s hget
  generalize w.server.posted i = e at hphase
  cases hphase with
  | running op running => exact isOpen_eq_true.mpr ⟨running.counted, running.finished⟩
  | reading idle => exact hnone idle.permit
  | health _ idle => exact hnone idle.permit
  | asked idle => exact hnone idle.permit
  | waiting idle => exact hnone idle.permit
  | ended hover => exact hnone hover.permit

/-- The requests that are open hold a slot or wait. -/
theorem Balancing.countP_isOpen (h : w.Balancing) : w.sessions.countP isOpen =
    w.server.limiter.currentInflight + w.server.limiter.queuedRequests := by
  have hwaiting : w.waiting.length = w.sessions.countP fun s => s.isOpen && !s.permitValid := by
    refine length_eq_countP ?_ h.mem_waiting_iff
    have hnodup := h.ordered.lined.entries_nodup
    exact hnodup.sublist (List.Sublist.append_right List.filter_sublist _)
  have hheld : (w.sessions.countP fun s => s.isOpen && s.permitValid) =
      w.sessions.countP permitValid := by
    refine List.countP_congr fun s hmem => ?_
    rw [Bool.and_eq_true]
    exact ⟨fun hboth => hboth.2, fun hvalid => ⟨h.open_of_permitValid hmem hvalid, hvalid⟩⟩
  rw [h.held.slots, h.ordered.lined.reserved, hwaiting, ← hheld,
    List.countP_eq_countP_filter_add w.sessions isOpen permitValid, List.countP_filter,
    List.countP_filter]

end World

/-- The figures of `/health` add up and stay in their bounds. -/
structure Coherent (config : ProxyConfig) (limit : InflightLimiterSnapshot)
    (metrics : ProxyMetricsSnapshot) : Prop where
  requests : metrics.totalRequests = metrics.completedRequests + metrics.failedRequests +
    limit.currentInflight + limit.queuedRequests
  maxInflight : limit.maxInflight = config.maxInflight
  maxQueueSize : limit.maxQueueSize = config.maxQueueSize
  currentInflight : limit.currentInflight ≤ config.maxInflight
  queuedRequests : limit.queuedRequests ≤ config.maxQueueSize
  notClosed : limit.closed = false

namespace World

variable {config : ProxyConfig} {server : ProxyServer} {w w' : World} {events : List Event}

theorem Balancing.coherent (h : w.Balancing) (hconfigured : w.server.Configured config) :
    Coherent config w.server.limiter.snapshot w.server.metrics.snapshot := by
  refine ⟨?_, hconfigured.maxInflight, hconfigured.maxQueueSize, ?_, ?_,
    h.ordered.lined.serving.closed⟩
  · have htotals := h.books.totals
    rw [h.countP_isOpen] at htotals
    unfold ProxyMetrics.recorded at htotals
    show w.server.metrics.totalRequests = w.server.metrics.completedRequests +
      w.server.metrics.failedRequests + w.server.limiter.currentInflight +
      w.server.limiter.queuedRequests
    omega
  · exact hconfigured.maxInflight ▸ h.ordered.lined.capped
  · exact hconfigured.maxQueueSize ▸ h.places

/-- The books balance, and every report so far shows figures that were `reported` for its session.
-/
structure Reporting (config : ProxyConfig)
    (reported : Nat → InflightLimiterSnapshot → ProxyMetricsSnapshot → Prop) (w : World) :
    Prop where
  balancing : w.Balancing
  delivering : Delivering config reported (fun _ failure => failure ∈ failures) w

variable {reported : Nat → InflightLimiterSnapshot → ProxyMetricsSnapshot → Prop}

theorem Reporting.coherent (h : Reporting config reported w) :
    Coherent config w.server.limiter.snapshot w.server.metrics.snapshot :=
  h.balancing.coherent h.delivering.configured

theorem Reporting.step {e : Event} (h : Reporting config reported w) (he : e ≠ .stop)
    (hreported : ∀ i r, e = .complete i .readRequest r →
      reported i w.server.limiter.snapshot w.server.metrics.snapshot)
    (hstep : World.step w e = some w') : Reporting config reported w' :=
  ⟨h.balancing.step he hstep,
    h.delivering.step hreported (fun _ op r _ => failuresOf_subset op r) hstep⟩

theorem Reporting.init (hcreate : ProxyServer.create config = .ok server) :
    Reporting config reported (World.init server) :=
  ⟨.init hcreate, .init hcreate⟩

/-- In every run without a call of `stop`, a request that was counted is completed, failed, in
flight or queued in every state, and every health report shows the figures of the state in which the
request for it was read. -/
theorem health_coherent (hcreate : ProxyServer.create config = .ok server)
    (hserving : .stop ∉ events) (hrun : run World.step (World.init server) events = some w) :
    Coherent config w.server.limiter.snapshot w.server.metrics.snapshot ∧
      ∀ (i : Nat) (s : ProxySession), w.sessions[i]? = some s →
        ∀ response valid, .start (.writeText response) valid ∈ s.calls →
          ∃ pre r w₀, pre ++ [.complete i .readRequest r] <+: events ∧
            run World.step (World.init server) pre = some w₀ ∧
            Coherent config w₀.server.limiter.snapshot w₀.server.metrics.snapshot ∧
            response = jsonResponse .ok s.clientRequest.version
              (healthBody config w₀.server.limiter.snapshot w₀.server.metrics.snapshot) := by
  have hmeets : Meets World.step (fun _ e => e ≠ .stop) (World.init server) events :=
    meets_of_forall fun _ e hmem heq => hserving (heq ▸ hmem)
  have hreporting : Reporting config (fun i limit metrics => ∃ pre r w₀,
      pre ++ [.complete i .readRequest r] <+: events ∧
      run World.step (World.init server) pre = some w₀ ∧
      Coherent config w₀.server.limiter.snapshot w₀.server.metrics.snapshot ∧
      limit = w₀.server.limiter.snapshot ∧ metrics = w₀.server.metrics.snapshot) w := by
    refine meets_induct hrun (meets_and hmeets (meets_reached _ _)) (.init hcreate)
      fun w e w' h he hstep => h.step he.1 (fun i r heq => ?_) hstep
    obtain ⟨-, pre, hpre, hreached⟩ := he
    exact ⟨pre, r, w, heq ▸ hpre, hreached, h.coherent, rfl, rfl⟩
  refine ⟨hreporting.coherent, fun i s hs response valid hcall => ?_⟩
  obtain ⟨limit, metrics, ⟨pre, r, w₀, hpre, hreached, hcoherent, rfl, rfl⟩, hresponse⟩ :=
    (hreporting.delivering.authentic i s hs).carries hcall
  exact ⟨pre, r, w₀, hpre, hreached, hcoherent, hresponse⟩

/-- A health report while one request is in flight and one waits. -/
def healthUnderLoad : List Event :=
  [.accept, .complete 0 .readRequest { request := chatRequest },
    .accept, .complete 1 .readRequest { request := chatRequest }, .runTask,
    .accept, .complete 2 .readRequest { request := { target := bytes "/health" } }]

theorem healthUnderLoad_run : ∃ w s response,
    run World.step (World.init oneSlotServer) healthUnderLoad = some w ∧
    w.sessions[2]? = some s ∧ s.calls.getLast? = some (.start (.writeText response) false) ∧
    response.body = healthBody oneSlotConfig
      { currentInflight := 1, queuedRequests := 1, maxInflight := 1, maxQueueSize := 8 }
      { totalRequests := 2 } :=
  ⟨_, _, _, rfl, rfl, rfl, rfl⟩

theorem health_coherent_underLoad : ∃ w s response,
    run World.step (World.init oneSlotServer) healthUnderLoad = some w ∧
    w.sessions[2]? = some s ∧
    Coherent oneSlotConfig w.server.limiter.snapshot w.server.metrics.snapshot ∧
    response.body = healthBody oneSlotConfig
      { currentInflight := 1, queuedRequests := 1, maxInflight := 1, maxQueueSize := 8 }
      { totalRequests := 2 } ∧
    ∃ pre r w₀, pre ++ [.complete 2 .readRequest r] <+: healthUnderLoad ∧
      run World.step (World.init oneSlotServer) pre = some w₀ ∧
      Coherent oneSlotConfig w₀.server.limiter.snapshot w₀.server.metrics.snapshot ∧
      response = jsonResponse .ok s.clientRequest.version
        (healthBody oneSlotConfig w₀.server.limiter.snapshot w₀.server.metrics.snapshot) := by
  obtain ⟨w, s, response, hrun, hs, hlast, hbody⟩ := healthUnderLoad_run
  obtain ⟨hcoherent, hreports⟩ := health_coherent oneSlotServer_create (by decide) hrun
  exact ⟨w, s, response, hrun, hs, hcoherent, hbody,
    hreports 2 s hs response false (List.mem_of_getLast? hlast)⟩

end World

end VllmSloProxy
