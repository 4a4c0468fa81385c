import VllmSloProxy.QueueReservations

/-!
# The slots under several worker threads

The limiter counts the slots that are taken without saying by whom.  A permit moves from the limiter
through the hands of the strand to a session, and `finish_request`, a promotion that came too late
or the destructor gives it back; no interleaving of the handlers loses one or makes one, also while
the server stops.
-/

namespace VllmSloProxy

open Transition Population

/-- `handle_request` has not yet come to its end. -/
def SessionPoint.opening : SessionPoint → Bool
  | reading | admitted | told => true
  | _ => false

namespace StrandPoint

/-- The permit that the strand has in hand. -/
def permit : StrandPoint → ServerPermit
  | granted _ p | readQueued _ p | willStart _ p | cleared _ p | starting _ p | returning _ p => p
  | _ => {}

/-- The session whose entry the loop has taken off the queue and may still start. -/
def taken : StrandPoint → Option Nat
  | popped i | willPromote i | refused i => some i
  | granted i _ | readQueued i _ | willStart i _ | cleared i _ | starting i _ => some i
  | _ => none

end StrandPoint

namespace ThreadedSession

def owns (s : ThreadedSession) : Bool := s.permit.ownsSlot

end ThreadedSession

namespace ThreadedProxy

open ThreadedSession

/-- How often a session is to be enqueued, and how often it may still be started from the queue. -/
def tasks (w : ThreadedProxy) (i : Nat) : Nat := w.server.strand.count (.enqueue i)

def entries (w : ThreadedProxy) (i : Nat) : Nat :=
  w.server.queuedSessions.count i + if w.point.taken = some i then 1 else 0

/-- A session is put in the queue once, before it is started, and gives its permit back when it goes
away. -/
structure Settled (w : ThreadedProxy) (i : Nat) (s : ThreadedSession) : Prop where
  once : w.tasks i + w.entries i ≤ 1
  opening : s.point.opening = true →
    w.tasks i + w.entries i = 0 ∧ s.started = false ∧ s.destroyed = false
  unstarted : w.tasks i + w.entries i ≠ 0 → s.started = false
  owner : s.owns = true → s.started = true ∨ s.point = .admitted
  gone : s.destroyed = true → w.tasks i = 0 ∧ w.point.inHand ≠ some i ∧
    (s.owns = true → s.point = .destroying ∨ s.point = .releasing)
  calls : ∀ task, s.point = .posting task → task = .promote

/-- The slots that are taken are those of the permits. -/
structure SlotsKept (config : ProxyConfig) (w : ThreadedProxy) : Prop where
  settled : ∀ i, w.Settled i (w.session i)
  slots : w.server.limiter.currentInflight =
    w.sessions.countP owns + w.point.permit.ownsSlot.toNat
  capped : w.server.limiter.currentInflight ≤ config.maxInflight
  limit : w.server.limiter.maxInflight = config.maxInflight
  callback : w.server.limiter.onRelease = some .promote
  calls : ∀ i task, w.point = .posting i task → task = .promote

variable {config : ProxyConfig} {server : ProxyServer} {w w' : ThreadedProxy} {e : ThreadEvent}
  {i : Nat} {s s' : ThreadedSession} {limiter : InflightLimiter Task} {point : StrandPoint}

theorem settle_owns (s : ThreadedSession) : s.settle.owns = s.owns := by
  unfold ThreadedSession.settle
  split <;> rfl

theorem settle_started (s : ThreadedSession) : s.settle.started = s.started := by
  unfold ThreadedSession.settle
  split <;> rfl

theorem settle_destroyed (s : ThreadedSession) : s.settle.destroyed = s.destroyed := by
  unfold ThreadedSession.settle
  split <;> rfl

theorem settle_point (s : ThreadedSession) :
    s.settle.point = .idle ∨ s.settle.point = .releasing := by
  unfold ThreadedSession.settle
  split
  · exact .inl rfl
  · exact .inr rfl

/-- A session that is not there yet looks like the one that `on_accept` makes. -/
theorem session_snoc (server : ProxyServer) (j : Nat) :
    ({ w with server, sessions := w.sessions ++ [{}] } : ThreadedProxy).session j =
      w.session j := by
  rw [session, session, List.getD_eq_getElem?_getD, List.getD_eq_getElem?_getD,
    List.getElem?_append]
  split
  · rfl
  · have hnone : w.sessions[j]? = none := List.getElem?_eq_none (by omega)
    rw [hnone]
    cases j - w.sessions.length <;> rfl

namespace Settled

/-- The session has been started, or may be started, no more often than before. -/
theorem less (h : w.Settled i s) (htasks : w'.tasks i ≤ w.tasks i)
    (htotal : w'.tasks i + w'.entries i ≤ w.tasks i + w.entries i)
    (hhand : s.destroyed = true → w'.point.inHand ≠ some i) : w'.Settled i s := by
  refine ⟨htotal.trans h.once, fun hopening => ?_, fun hentry => ?_, h.owner, fun hgone => ?_,
    h.calls⟩
  · obtain ⟨hnone, hrest⟩ := h.opening hopening
    exact ⟨by omega, hrest⟩
  · exact h.unstarted (by omega)
  · obtain ⟨hnone, -, howns⟩ := h.gone hgone
    exact ⟨by omega, hhand hgone, howns⟩

/-- Neither the point nor the permit of the session changes. -/
theorem same (h : w.Settled i s) (hpoint : s'.point = s.point) (howns : s'.owns = s.owns)
    (hstarted : s'.started = s.started) (hexists : s'.destroyed = s.destroyed) :
    w.Settled i s' := by
  refine ⟨h.once, ?_, ?_, ?_, ?_, ?_⟩
  · rw [hpoint, hstarted, hexists]
    exact h.opening
  · rw [hstarted]
    exact h.unstarted
  · rw [howns, hstarted, hpoint]
    exact h.owner
  · rw [hexists, howns, hpoint]
    exact h.gone
  · rw [hpoint]
    exact h.calls

/-- The handler of the session goes on, and the permit stays. -/
theorem calmly (h : w.Settled i s) (hbefore : s.point ≠ .admitted)
    (hpoint : s'.point.opening = false) (howns : s'.owns = s.owns)
    (hstarted : s'.started = s.started)
    (hexists : s'.destroyed = s.destroyed)
    (hgone : s.point = .destroying ∨ s.point = .releasing → s'.point = .releasing)
    (hcalls : ∀ task, s'.point = .posting task → task = .promote) : w.Settled i s' := by
  refine ⟨h.once, fun hopening => ?_, fun hentry => ?_, fun hown => ?_, fun hdestroyed => ?_,
    hcalls⟩
  · exact absurd (hpoint.symm.trans hopening) Bool.false_ne_true
  · exact hstarted.trans (h.unstarted hentry)
  · exact .inl (hstarted.trans ((h.owner (howns ▸ hown)).resolve_right hbefore))
  · rw [hexists] at hdestroyed
    obtain ⟨htasks, hhand, hleft⟩ := h.gone hdestroyed
    exact ⟨htasks, hhand, fun hown => .inr (hgone (hleft (howns ▸ hown)))⟩

theorem settle (h : w.Settled i s) (hbefore : s.point ≠ .admitted)
    (hpoint : s.point ≠ .destroying ∧ s.point ≠ .releasing) : w.Settled i s.settle := by
  refine h.calmly hbefore ?_ (settle_owns s) (settle_started s) (settle_destroyed s)
    (fun hgone => absurd hgone (not_or.mpr hpoint)) fun task => ?_
  · rcases settle_point s with heq | heq <;> rw [heq] <;> rfl
  · rcases settle_point s with heq | heq <;> rw [heq] <;> exact nofun

end Settled

namespace SlotsKept

theorem settled_of_get (h : w.SlotsKept config) (hs : w.sessions[i]? = some s) : w.Settled i s := by
  have hsettled := h.settled i
  rwa [session_of_get hs] at hsettled

/-- A step that leaves all sessions but one with their entries. -/
theorem move (h : w.SlotsKept config) (i : Nat)
    (hsession : ∀ j, j ≠ i → w'.session j = w.session j)
    (hother : ∀ j, j ≠ i → w'.tasks j = w.tasks j ∧ w'.entries j = w.entries j ∧
      (w'.point.inHand = some j → w.point.inHand = some j))
    (hsettled : w'.Settled i (w'.session i))
    (hslots : w'.server.limiter.currentInflight =
      w'.sessions.countP owns + w'.point.permit.ownsSlot.toNat)
    (hcapped : w'.server.limiter.currentInflight ≤ config.maxInflight)
    (hlimit : w'.server.limiter.maxInflight = w.server.limiter.maxInflight)
    (hcallback : w'.server.limiter.onRelease = w.server.limiter.onRelease)
    (hcalls : ∀ i task, w'.point = .posting i task → task = .promote) :
    w'.SlotsKept config := by
  refine ⟨fun j => ?_, hslots, hcapped, hlimit.trans h.limit, hcallback.trans h.callback, hcalls⟩
  by_cases hj : j = i
  · exact hj ▸ hsettled
  · obtain ⟨htasks, hentries, hhand⟩ := hother j hj
    have hbefore := h.settled j
    rw [hsession j hj]
    refine ⟨?_, ?_, ?_, hbefore.owner, fun hgone => ?_, hbefore.calls⟩
    · rw [htasks, hentries]
      exact hbefore.once
    · rw [htasks, hentries]
      exact hbefore.opening
    · rw [htasks, hentries]
      exact hbefore.unstarted
    · obtain ⟨hnone, hnot, howns⟩ := hbefore.gone hgone
      exact ⟨htasks.trans hnone, fun heq => hnot (hhand heq), howns⟩

/-- A step on one session. -/
theorem moveOne (h : w.SlotsKept config) (hs : w.sessions[i]? = some s)
    (hsessions : w'.sessions = w.sessions.set i s')
    (hother : ∀ j, j ≠ i → w'.tasks j = w.tasks j ∧ w'.entries j = w.entries j ∧
      (w'.point.inHand = some j → w.point.inHand = some j))
    (hsettled : w'.Settled i s')
    (hslots : w'.server.limiter.currentInflight + share owns s + w.point.permit.ownsSlot.toNat =
      w.server.limiter.currentInflight + share owns s' + w'.point.permit.ownsSlot.toNat)
    (hcapped : w'.server.limiter.currentInflight ≤ config.maxInflight)
    (hlimit : w'.server.limiter.maxInflight = w.server.limiter.maxInflight)
    (hcallback : w'.server.limiter.onRelease = w.server.limiter.onRelease)
    (hcalls : ∀ i task, w'.point = .posting i task → task = .promote) :
    w'.SlotsKept config := by
  have hput (j : Nat) : w'.session j = (w.put i s').session j := by
    rw [session, session, hsessions]
    rfl
  refine h.move i (fun j hj => ?_) hother ?_ ?_ hcapped hlimit hcallback hcalls
  · rw [hput, session_put_ne hj]
  · rw [hput, session_put hs]
    exact hsettled
  · have hset : (w.sessions.set i s').countP owns + share owns s =
        w.sessions.countP owns + share owns s' := countP_set hs
    have hcounted := h.slots
    rw [hsessions]
    omega

/-- A step of the strand that leaves the sessions as they are. -/
theorem moveStrand (h : w.SlotsKept config) (i : Nat) (hsessions : w'.sessions = w.sessions)
    (hother : ∀ j, j ≠ i → w'.tasks j = w.tasks j ∧ w'.entries j = w.entries j ∧
      (w'.point.inHand = some j → w.point.inHand = some j))
    (hsettled : w'.Settled i (w.session i))
    (hslots : w'.server.limiter.currentInflight + w.point.permit.ownsSlot.toNat =
      w.server.limiter.currentInflight + w'.point.permit.ownsSlot.toNat)
    (hcapped : w'.server.limiter.currentInflight ≤ config.maxInflight)
    (hlimit : w'.server.limiter.maxInflight = w.server.limiter.maxInflight)
    (hcallback : w'.server.limiter.onRelease = w.server.limiter.onRelease)
    (hcalls : ∀ i task, w'.point = .posting i task → task = .promote) :
    w'.SlotsKept config := by
  have hsame (j : Nat) : w'.session j = w.session j := by rw [session, session, hsessions]
  refine h.move i (fun j _ => hsame j) hother (hsame i ▸ hsettled) ?_ hcapped hlimit
    hcallback hcalls
  have hcounted := h.slots
  rw [hsessions]
  omega

/-- A handler of a session takes a step that has nothing to do with its permit. -/
theorem put (h : w.SlotsKept config) (hs : w.sessions[i]? = some s) (hsettled : w.Settled i s')
    (howns : s'.owns = s.owns) : (w.put i s').SlotsKept config := by
  refine h.moveOne hs rfl (fun j _ => ⟨rfl, rfl, id⟩) ⟨hsettled.1, hsettled.2, hsettled.3,
    hsettled.4, hsettled.5, hsettled.6⟩ ?_ h.capped rfl rfl h.calls
  show _ + share owns s + _ = _ + share owns s' + _
  rw [share, share, howns]
  rfl

theorem setLimiter (h : w.SlotsKept config)
    (hinflight : limiter.currentInflight = w.server.limiter.currentInflight)
    (hmax : limiter.maxInflight = w.server.limiter.maxInflight)
    (hcallback : limiter.onRelease = w.server.limiter.onRelease) :
    (w.setLimiter limiter).SlotsKept config := by
  refine h.moveStrand 0 rfl (fun j _ => ⟨rfl, rfl, id⟩) ?_ ?_ (hinflight.trans_le h.capped) hmax
    hcallback h.calls
  · have hsettled := h.settled 0
    exact ⟨hsettled.1, hsettled.2, hsettled.3, hsettled.4, hsettled.5, hsettled.6⟩
  · rw [show (w.setLimiter limiter).server.limiter = limiter from rfl, hinflight]
    rfl

/-- A task other than one that enqueues a session is posted. -/
theorem post (h : w.SlotsKept config) {t : Task} (htask : ∀ i, t ≠ .enqueue i) :
    (w.post t).SlotsKept config := by
  have htasks (j : Nat) : (w.post t).tasks j = w.tasks j := by
    show (w.server.strand ++ [t]).count (.enqueue j) = _
    have hnone : [t].count (.enqueue j) = 0 :=
      List.count_eq_zero.mpr fun hmem => htask j (List.mem_singleton.mp hmem).symm
    rw [List.count_append, hnone]
    rfl
  refine h.moveStrand 0 rfl (fun j _ => ⟨htasks j, rfl, id⟩) ?_ rfl h.capped rfl rfl h.calls
  have hsettled := h.settled 0
  have hentries : (w.post t).entries 0 = w.entries 0 := rfl
  refine ⟨?_, ?_, ?_, hsettled.4, ?_, hsettled.6⟩
  · rw [htasks, hentries]
    exact hsettled.once
  · rw [htasks, hentries]
    exact hsettled.opening
  · rw [htasks, hentries]
    exact hsettled.unstarted
  · rw [htasks]
    exact hsettled.gone

theorem settle (h : w.SlotsKept config) (hs : w.sessions[i]? = some s)
    (hbefore : s.point ≠ .admitted) (hpoint : s.point ≠ .destroying ∧ s.point ≠ .releasing) :
    (w.put i s.settle).SlotsKept config :=
  h.put hs ((h.settled_of_get hs).settle hbefore hpoint) (settle_owns s)

/-- `release` on a permit that owns its slot, and on one that does not. -/
theorem release_eq (permit : ServerPermit) (hpos : permit.ownsSlot = true →
      0 < w.server.limiter.currentInflight) :
    permit.ownsSlot = false ∧ w.release permit = (w, none) ∨
    permit.ownsSlot = true ∧ w.release permit = (w.setLimiter { w.server.limiter with
      currentInflight := w.server.limiter.currentInflight - 1 }, w.server.limiter.onRelease) := by
  unfold ThreadedProxy.release
  cases howns : permit.ownsSlot with
  | false =>
      rw [Permit.release_idle howns]
      exact .inl ⟨rfl, rfl⟩
  | true =>
      rw [Permit.release_owning howns, InflightLimiter.giveBack_of_pos (hpos howns)]
      exact .inr ⟨rfl, rfl⟩

theorem pos_of_owns (h : w.SlotsKept config) (hs : w.sessions[i]? = some s)
    (howns : s.permit.ownsSlot = true) : 0 < w.server.limiter.currentInflight := by
  have hle := share_le_countP (p := owns) hs
  have hcounted := h.slots
  rw [share_true (p := owns) howns] at hle
  omega

/-- The session gives its permit back. -/
theorem release (h : w.SlotsKept config) (hs : w.sessions[i]? = some s) :
    (w.releaseFor i s).SlotsKept config := by
  have hsettled := h.settled_of_get hs
  unfold releaseFor
  rcases release_eq s.permit (h.pos_of_owns hs) with ⟨howns, heq⟩ | ⟨howns, heq⟩ <;> rw [heq]
  · refine h.put hs ⟨hsettled.once, nofun, hsettled.unstarted, nofun, fun hgone => ?_,
      nofun⟩ howns.symm
    · obtain ⟨htasks, hhand, -⟩ := hsettled.gone hgone
      exact ⟨htasks, hhand, nofun⟩
  · rw [h.callback]
    have hpos := h.pos_of_owns hs howns
    refine h.moveOne hs rfl (fun j _ => ⟨rfl, rfl, id⟩) ?_ ?_ ((Nat.sub_le _ _).trans h.capped)
      rfl rfl h.calls
    · refine ⟨hsettled.once, nofun, hsettled.unstarted, nofun, fun hgone => ?_,
        fun task heq => (SessionPoint.posting.inj heq).symm⟩
      · obtain ⟨htasks, hhand, -⟩ := hsettled.gone hgone
        exact ⟨htasks, hhand, nofun⟩
    · show w.server.limiter.currentInflight - 1 + share owns s + w.point.permit.ownsSlot.toNat =
        w.server.limiter.currentInflight + share owns _ + w.point.permit.ownsSlot.toNat
      rw [share_true (p := owns) howns, share_false (p := owns) rfl]
      omega

theorem entries_of_taken (htaken : w.point.taken = some i) :
    w.entries i = w.server.queuedSessions.count i + 1 := by
  rw [entries, if_pos htaken]

theorem entries_of_ne {j : Nat} (hnone : w.point.taken ≠ some j) :
    w.entries j = w.server.queuedSessions.count j := by
  rw [entries, if_neg hnone]
  rfl

/-- The strand goes on with what it has in hand. -/
theorem goTo {p : StrandPoint} (h : w.SlotsKept config) (hpoint : w.point = p)
    (htaken : point.taken = p.taken) (hhand : ∀ j, point.inHand = some j → p.inHand = some j)
    (hpermit : point.permit.ownsSlot = p.permit.ownsSlot)
    (hcalls : ∀ i task, point ≠ .posting i task) : (w.goTo point).SlotsKept config := by
  subst hpoint
  have hentries (j : Nat) : (w.goTo point).entries j = w.entries j := by
    show _ + (if point.taken = some j then 1 else 0) = _
    rw [htaken]
    rfl
  refine h.moveStrand 0 rfl (fun j _ => ⟨rfl, hentries j, hhand j⟩) ?_ ?_ h.capped rfl rfl
    fun i task heq => absurd heq (hcalls i task)
  · refine (h.settled 0).less (Nat.le_refl _) ?_ fun hgone heq => ?_
    · rw [hentries]
      exact Nat.le_refl _
    · exact ((h.settled 0).gone hgone).2.1 (hhand 0 heq)
  · show _ + _ = _ + point.permit.ownsSlot.toNat
    rw [hpermit]
    rfl

/-- The strand lets go of the session that it has examined, or puts it back. -/
theorem letGo {p : StrandPoint} {queue : List Nat} (h : w.SlotsKept config) (hpoint : w.point = p)
    (htaken : p.taken = some i)
    (hqueue : queue = w.server.queuedSessions ∨ queue = i :: w.server.queuedSessions)
    (hnone : point.taken = none) (hhand : ∀ j, point.inHand = some j → p.inHand = some j)
    (hpermit : point.permit.ownsSlot = p.permit.ownsSlot)
    (hcalls : ∀ i task, point ≠ .posting i task) :
    ((w.setQueue queue).goTo point).SlotsKept config := by
  subst hpoint
  have hentries (j : Nat) : ((w.setQueue queue).goTo point).entries j = queue.count j :=
    entries_of_ne (by
      rw [show ((w.setQueue queue).goTo point).point = point from rfl, hnone]
      nofun)
  refine h.moveStrand i rfl (fun j hj => ⟨rfl, ?_, hhand j⟩) ?_ ?_ h.capped rfl rfl
    fun i task heq => absurd heq (hcalls i task)
  · have hbefore : w.entries j = w.server.queuedSessions.count j :=
      entries_of_ne (by rw [htaken]; exact fun heq => hj (Option.some.inj heq).symm)
    rw [hentries, hbefore]
    rcases hqueue with rfl | rfl
    · rfl
    · exact List.count_cons_of_ne (Ne.symm hj)
  · refine (h.settled i).less (Nat.le_refl _) ?_ fun hgone heq => ?_
    · rw [hentries, entries_of_taken htaken]
      refine Nat.add_le_add_left ?_ _
      rcases hqueue with rfl | rfl
      · exact Nat.le_succ _
      · rw [List.count_cons_self]
    · exact ((h.settled i).gone hgone).2.1 (hhand i heq)
  · show _ + _ = _ + point.permit.ownsSlot.toNat
    rw [hpermit]
    rfl

/-- The task of `enqueue_session` begins. -/
theorem beginEnqueue (h : w.SlotsKept config) {strand : List Task} (hpoint : w.point = .free)
    (hstrand : w.server.strand = .enqueue i :: strand) :
    ((w.setStrand strand).begin (.enqueue i)).SlotsKept config := by
  have htask : w.tasks i = strand.count (.enqueue i) + 1 := by
    rw [tasks, hstrand, List.count_cons_self]
  have htasks {j : Nat} (hj : j ≠ i) : strand.count (.enqueue j) = w.tasks j := by
    rw [tasks, hstrand]
    exact (List.count_cons_of_ne fun heq => hj (Task.enqueue.inj heq).symm).symm
  have hexists : (w.session i).destroyed = true → False := fun hgone => by
    have hnone := ((h.settled i).gone hgone).1
    omega
  have hentries (j : Nat) : w.entries j = w.server.queuedSessions.count j :=
    entries_of_ne (by simp [hpoint, StrandPoint.taken])
  rw [begin]
  split
  · refine h.moveStrand i rfl (fun j hj => ⟨htasks hj, rfl, id⟩) ?_ rfl h.capped rfl rfl h.calls
    refine (h.settled i).less ?_ ?_ fun hgone => absurd hgone hexists
    · show strand.count (.enqueue i) ≤ _
      omega
    · show strand.count (.enqueue i) + w.entries i ≤ _
      omega
  · refine h.moveStrand i rfl (fun j hj => ⟨htasks hj, ?_, ?_⟩) ?_ ?_ h.capped rfl rfl
      (by intro _ _ heq; cases heq)
    · show (w.server.queuedSessions ++ [i]).count j + 0 = _
      rw [hentries, List.count_append, List.count_singleton, if_neg (by simpa using Ne.symm hj)]
      rfl
    · exact fun heq => absurd (Option.some.inj heq).symm hj
    · refine (h.settled i).less ?_ ?_ fun hgone => absurd hgone hexists
      · show strand.count (.enqueue i) ≤ _
        omega
      · show strand.count (.enqueue i) + ((w.server.queuedSessions ++ [i]).count i + 0) ≤ _
        rw [hentries, htask, List.count_append, List.count_singleton_self]
        omega
    · rw [hpoint]
      rfl

/-- The loop takes the first entry off the queue. -/
theorem take (h : w.SlotsKept config) {queue : List Nat} (hpoint : w.point = .looping)
    (hqueue : w.server.queuedSessions = i :: queue)
    (hexists : (w.session i).destroyed = false ∨ point = .looping)
    (hnext : point = .popped i ∨ point = .looping) :
    ((w.setQueue queue).goTo point).SlotsKept config := by
  have hentries (j : Nat) : w.entries j = (i :: queue).count j := by
    rw [entries_of_ne (by rw [hpoint]; nofun), hqueue]
  refine h.moveStrand i rfl (fun j hj => ⟨rfl, ?_, fun heq => ?_⟩) ?_ ?_ h.capped rfl rfl ?_
  · show queue.count j + (if point.taken = some j then 1 else 0) = _
    rw [hentries, List.count_cons_of_ne (Ne.symm hj)]
    rcases hnext with rfl | rfl
    · exact congrArg (_ + ·) (if_neg fun heq => hj (Option.some.inj heq).symm)
    · rfl
  · rcases hnext with rfl | rfl
    · exact absurd (Option.some.inj heq).symm hj
    · cases heq
  · refine (h.settled i).less (Nat.le_refl _) ?_ fun hgone heq => ?_
    · show _ + (queue.count i + (if point.taken = some i then 1 else 0)) ≤ _
      rw [hentries, List.count_cons_self]
      refine Nat.add_le_add_left (Nat.add_le_add_left ?_ _) _
      split
      · exact Nat.le_refl 1
      · exact Nat.zero_le 1
    · rcases hexists with hhere | rfl
      · exact Bool.false_ne_true (hhere.symm.trans hgone)
      · cases heq
  · rw [hpoint]
    rcases hnext with rfl | rfl <;> rfl
  · rcases hnext with rfl | rfl <;> nofun

/-- The limiter grants a slot to the session that the strand has in hand. -/
theorem grant (h : w.SlotsKept config) (hs : w.sessions[i]? = some s)
    (hpoint : w.point = .willPromote i) (hinflight : limiter.currentInflight =
      w.server.limiter.currentInflight + 1)
    (hcapped : limiter.currentInflight ≤ limiter.maxInflight)
    (hmax : limiter.maxInflight = w.server.limiter.maxInflight)
    (hcallback : limiter.onRelease = w.server.limiter.onRelease)
    (hpermit : s'.permit = s.permit) (hplace : s'.point = s.point)
    (hstarted : s'.started = s.started) (hexists : s'.destroyed = s.destroyed) :
    (((w.setLimiter limiter).put i s').goTo (.granted i (Permit.owning ()))).SlotsKept config := by
  have howns : s'.owns = s.owns := by rw [owns, owns, hpermit]
  have hentries (j : Nat) : (((w.setLimiter limiter).put i s').goTo
      (.granted i (Permit.owning ()))).entries j = w.entries j := by
    rw [entries, entries, hpoint]
    rfl
  refine h.moveOne hs rfl (fun j _ => ⟨rfl, hentries j, ?_⟩) ?_ ?_ ?_ hmax hcallback nofun
  · rw [hpoint]
    exact id
  · refine Settled.less ((h.settled_of_get hs).same hplace howns hstarted hexists) (Nat.le_refl _)
      (by rw [hentries]; exact Nat.le_refl _) fun hgone => ?_
    have hhand := ((h.settled_of_get hs).gone (hexists ▸ hgone)).2.1
    rw [hpoint] at hhand
    exact hhand
  · rw [hpoint]
    show limiter.currentInflight + share owns s + 0 = _ + share owns s' + 1
    rw [share, share, howns, hinflight]
    omega
  · rw [← h.limit, ← hmax]
    exact hcapped

/-- The session gets the permit that the strand has in hand. -/
theorem start {permit : ServerPermit} (h : w.SlotsKept config) (hs : w.sessions[i]? = some s)
    (hpoint : w.point = .starting i permit) (hpermit : s'.permit = permit)
    (hplace : s'.point = s.point) (hstarted : s'.started = true)
    (hexists : s'.destroyed = s.destroyed) :
    ((w.put i s').goTo .looping).SlotsKept config := by
  have hsettled := h.settled_of_get hs
  have hentry : w.entries i = w.server.queuedSessions.count i + 1 :=
    entries_of_taken (by rw [hpoint]; rfl)
  have hentries (j : Nat) :
      ((w.put i s').goTo .looping).entries j = w.server.queuedSessions.count j :=
    rfl
  have hnone : s.owns = false := by
    refine Bool.eq_false_iff.mpr fun hown => ?_
    rcases hsettled.owner hown with hbegun | hadmitted
    · exact Bool.false_ne_true ((hsettled.unstarted (by omega)).symm.trans hbegun)
    · have hgone := (hsettled.opening (by rw [hadmitted]; rfl)).1
      omega
  have hhere : s'.destroyed = true → False := fun hgone => by
    have hhand := (hsettled.gone (hexists ▸ hgone)).2.1
    rw [hpoint] at hhand
    exact hhand rfl
  refine h.moveOne hs rfl (fun j hj => ⟨rfl, ?_, nofun⟩) ?_ ?_ h.capped rfl rfl nofun
  · rw [hentries, entries_of_ne]
    rw [hpoint]
    exact fun heq => hj (Option.some.inj heq).symm
  · have honce := hsettled.once
    refine ⟨?_, fun hopening => ?_, fun hleft => ?_, fun _ => .inl hstarted,
      fun hgone => absurd hgone hhere, hplace ▸ hsettled.calls⟩
    · rw [hentries]
      show w.tasks i + _ ≤ 1
      omega
    · have hgone := (hsettled.opening (hplace ▸ hopening)).1
      omega
    · refine absurd ?_ hleft
      rw [hentries]
      show w.tasks i + _ = 0
      omega
  · rw [hpoint, share_false hnone]
    show _ + 0 + permit.ownsSlot.toNat = _ + share owns s' + 0
    rw [share, owns, hpermit]
    cases permit.ownsSlot <;> rfl

/-- The permit of a promotion that came too late goes back. -/
theorem giveBack {permit : ServerPermit} (h : w.SlotsKept config)
    (hpoint : w.point = .returning i permit) :
    ((w.release permit).1.goTo
      ((w.release permit).2.elim .looping (StrandPoint.posting i))).SlotsKept config := by
  have hslots := h.slots
  rw [hpoint] at hslots
  have hslots : w.server.limiter.currentInflight = w.sessions.countP owns + permit.ownsSlot.toNat :=
    hslots
  have hentries (j : Nat) : w.entries j = w.server.queuedSessions.count j :=
    entries_of_ne (by rw [hpoint]; nofun)
  have hpos : permit.ownsSlot = true → 0 < w.server.limiter.currentInflight := fun howns => by
    rw [hslots, howns]
    exact Nat.succ_pos _
  rcases release_eq permit hpos with ⟨howns, heq⟩ | ⟨howns, heq⟩ <;> rw [heq]
  · exact h.goTo hpoint rfl nofun howns.symm nofun
  · rw [h.callback]
    refine h.moveStrand i rfl (fun j _ => ⟨rfl, (hentries j).symm, ?_⟩) ?_ ?_
      ((Nat.sub_le _ _).trans h.capped) rfl rfl
        fun i task heq => (StrandPoint.posting.inj heq).2.symm
    · rw [hpoint]
      exact id
    · refine (h.settled i).less (Nat.le_refl _) ?_ fun hgone => ?_
      · rw [hentries]
        exact Nat.le_refl _
      · have hhand := ((h.settled i).gone hgone).2.1
        rw [hpoint] at hhand
        exact hhand
    · rw [hpoint]
      show w.server.limiter.currentInflight - 1 + permit.ownsSlot.toNat = _ + 0
      have hfree := hpos howns
      rw [howns]
      show _ - 1 + 1 = _ + 0
      omega

/-- A task begins that enqueues no session, and the queue gets no new entry. -/
theorem settled_begin (h : w.SlotsKept config) {task : Task} {strand : List Task}
    (hpoint : w.point = .free) (hstrand : w.server.strand = task :: strand)
    (htask : ∀ j, task ≠ .enqueue j) (hsessions : w'.sessions = w.sessions)
    (hrest : w'.server.strand = strand)
    (hqueue : ∀ j, w'.server.queuedSessions.count j ≤ w.server.queuedSessions.count j)
    (hplace : w'.point.taken = none ∧ w'.point.inHand = none) (j : Nat) :
    w'.Settled j (w'.session j) := by
  have htasks : w'.tasks j = w.tasks j := by
    rw [tasks, tasks, hrest, hstrand]
    exact (List.count_cons_of_ne (htask j)).symm
  have hentries : w'.entries j ≤ w.entries j := by
    rw [entries_of_ne (by rw [hplace.1]; nofun), entries_of_ne (by rw [hpoint]; nofun)]
    exact hqueue j
  rw [session, hsessions]
  refine (h.settled j).less (Nat.le_of_eq htasks) (by omega) fun _ => ?_
  rw [hplace.2]
  nofun

/-- A task of the strand begins. -/
theorem begin (h : w.SlotsKept config) {task : Task} {strand : List Task} (hpoint : w.point = .free)
    (hstrand : w.server.strand = task :: strand) :
    ((w.setStrand strand).begin task).SlotsKept config := by
  have hslots := h.slots
  rw [hpoint] at hslots
  cases task with
  | enqueue i => exact h.beginEnqueue hpoint hstrand
  | promote =>
      exact ⟨h.settled_begin hpoint hstrand nofun rfl rfl (fun _ => Nat.le_refl _) ⟨rfl, rfl⟩,
        hslots, h.capped, h.limit, h.callback, nofun⟩
  | stop =>
      have hplace : w.point.taken = none ∧ w.point.inHand = none := by
        rw [hpoint]
        exact ⟨rfl, rfl⟩
      exact ⟨h.settled_begin hpoint hstrand nofun rfl rfl (fun _ => Nat.zero_le _) hplace,
        h.slots, h.capped, h.limit, h.callback, h.calls⟩

theorem accept (h : w.SlotsKept config) (accepting : Bool) :
    ({ w with
      server := { w.server with accepting }
      sessions := w.sessions ++ [{}] } : ThreadedProxy).SlotsKept config := by
  refine ⟨fun j => ?_, ?_, h.capped, h.limit, h.callback, h.calls⟩
  · have hsettled := h.settled j
    rw [session_snoc]
    exact ⟨hsettled.1, hsettled.2, hsettled.3, hsettled.4, hsettled.5, hsettled.6⟩
  · show _ = (w.sessions ++ [({} : ThreadedSession)]).countP owns + _
    rw [countP_snoc, share_false (p := owns) rfl]
    exact h.slots

/-- `handle_request` gets a slot from the limiter. -/
theorem admitted (h : w.SlotsKept config) (hlock : w.lock i = some s) (hpoint : s.point = .reading)
    (hslot : w.server.limiter.currentInflight < w.server.limiter.maxInflight) :
    ((w.setLimiter { w.server.limiter with
      currentInflight := w.server.limiter.currentInflight + 1 }).put i
        { s with point := .admitted, permit := Permit.owning () }).SlotsKept config := by
  obtain ⟨hs, hexists⟩ := lock_eq_some.mp hlock
  have hsettled := h.settled_of_get hs
  have hopening := hsettled.opening (by rw [hpoint]; rfl)
  have hfree : s.owns = false := by
    refine Bool.eq_false_iff.mpr fun hown => ?_
    rcases hsettled.owner hown with hbegun | hadmitted
    · exact Bool.false_ne_true (hopening.2.1.symm.trans hbegun)
    · cases hpoint.symm.trans hadmitted
  refine h.moveOne hs rfl (fun j _ => ⟨rfl, rfl, id⟩) ?_ ?_ (h.limit ▸ hslot) rfl rfl h.calls
  · exact ⟨hsettled.once, fun _ => hopening, hsettled.unstarted, fun _ => .inr rfl,
      fun hgone => absurd (hexists.symm.trans hgone) Bool.false_ne_true, nofun⟩
  · rw [share_false hfree]
    rfl

/-- `start_proxy_request` is called with the permit of the answer. -/
theorem begun (h : w.SlotsKept config) (hs : w.sessions[i]? = some s)
    (hpoint : s.point = .admitted) :
    (w.put i { s with point := .idle, started := true }).SlotsKept config := by
  have hsettled := h.settled_of_get hs
  obtain ⟨hnone, -, hexists⟩ := hsettled.opening (by rw [hpoint]; rfl)
  exact h.put hs ⟨hsettled.once, nofun, fun hleft => absurd hnone hleft, fun _ => .inl rfl,
    fun hgone => absurd (hexists.symm.trans hgone) Bool.false_ne_true, nofun⟩ rfl

/-- `enqueue_session` posts its task. -/
theorem enqueue (h : w.SlotsKept config) (hs : w.sessions[i]? = some s) (hpoint : s.point = .told) :
    ((w.post (.enqueue i)).put i { s with point := .idle }).SlotsKept config := by
  have hsettled := h.settled_of_get hs
  obtain ⟨hnone, hunstarted, hexists⟩ := hsettled.opening (by rw [hpoint]; rfl)
  have htasks (j : Nat) : (w.server.strand ++ [Task.enqueue i]).count (.enqueue j) =
      w.tasks j + if j = i then 1 else 0 := by
    rw [List.count_append, tasks]
    by_cases hj : j = i
    · rw [if_pos hj, hj, List.count_cons_self]
      rfl
    · rw [if_neg hj, List.count_cons_of_ne fun heq => hj (Task.enqueue.inj heq).symm]
      rfl
  refine h.moveOne hs rfl (fun j hj => ⟨(htasks j).trans (by rw [if_neg hj]; rfl), rfl, id⟩) ?_ rfl
    h.capped rfl rfl h.calls
  have htask : ((w.post (.enqueue i)).put i { s with point := .idle }).tasks i = w.tasks i + 1 :=
    (htasks i).trans (by rw [if_pos rfl])
  have hentries : ((w.post (.enqueue i)).put i { s with point := .idle }).entries i = w.entries i :=
    rfl
  refine ⟨by omega, nofun, fun _ => hunstarted, fun hown => ?_,
    fun hgone => absurd (hexists.symm.trans hgone) Bool.false_ne_true, nofun⟩
  refine .inl ((hsettled.owner hown).resolve_right ?_)
  rw [hpoint]
  nofun

/-- The last reference to the session goes away. -/
theorem destroy (h : w.SlotsKept config) (hs : w.sessions[i]? = some s) (hpoint : s.point = .idle)
    (htask : .enqueue i ∉ w.server.strand) (hhand : w.point.inHand ≠ some i) :
    (w.put i { s with
      destroyed := true
      point := if s.queued then .destroying else .releasing }).SlotsKept config := by
  have hsettled := h.settled_of_get hs
  have hnext {point : SessionPoint}
      (hfinal : point = if s.queued then .destroying else .releasing) :
      point = .destroying ∨ point = .releasing := by
    split at hfinal
    · exact .inl hfinal
    · exact .inr hfinal
  refine h.put hs ⟨hsettled.once, fun hopening => ?_, hsettled.unstarted, fun hown => ?_,
    fun _ => ⟨List.count_eq_zero.mpr htask, hhand, fun _ => hnext rfl⟩, fun task heq => ?_⟩ rfl
  · rcases hnext rfl with hfinal | hfinal <;> rw [hfinal] at hopening <;> cases hopening
  · refine .inl ((hsettled.owner hown).resolve_right ?_)
    rw [hpoint]
    nofun
  · rcases hnext rfl with hfinal | hfinal <;> cases heq.symm.trans hfinal

/-- `cancel_queued` concerns no slot. -/
theorem cancelFor (h : w.SlotsKept config) (hs : w.sessions[i]? = some s) {next : SessionPoint}
    (hbefore : s.point ≠ .admitted) (hpoint : next.opening = false)
    (hgone : s.point = .destroying ∨ s.point = .releasing → next = .releasing)
    (hcalls : ∀ task, next ≠ .posting task) : (w.cancelFor i s next).SlotsKept config := by
  have hlimiter : (w.setLimiter w.server.limiter.cancelQueued.2).SlotsKept config := by
    rcases w.server.limiter.cancelQueued_cases with ⟨-, heq⟩ | ⟨-, heq⟩ <;> rw [heq]
    · exact h
    · exact h.setLimiter rfl rfl rfl
  have hget : (w.setLimiter w.server.limiter.cancelQueued.2).sessions[i]? = some s := hs
  exact hlimiter.put hget ((hlimiter.settled_of_get hget).calmly hbefore hpoint rfl rfl rfl hgone
    fun task heq => absurd heq (hcalls task)) rfl

theorem step (h : w.SlotsKept config) (hstep : w.step e = some w') : w'.SlotsKept config := by
  have hmove := step_move hstep
  cases hmove with
  | accept => exact h.accept _
  | dismiss hlock hpoint =>
      obtain ⟨hs, -⟩ := lock_eq_some.mp hlock
      refine h.put hs ((h.settled_of_get hs).calmly ?_ rfl rfl rfl rfl ?_ nofun) rfl <;>
        rw [hpoint] <;> nofun
  | admitted hlock hpoint hslot => exact h.admitted hlock hpoint hslot
  -- the answer Queue: `queued_` is not stored yet, and there is no permit
  | told hlock hpoint =>
      obtain ⟨hs, -⟩ := lock_eq_some.mp hlock
      have hsettled := h.settled_of_get hs
      have hopening := hsettled.opening (by rw [hpoint]; rfl)
      refine SlotsKept.put (h.setLimiter rfl rfl rfl) hs ⟨hsettled.once, fun _ => hopening,
        hsettled.unstarted, fun hown => ?_, fun hgone => ?_, nofun⟩ rfl
      · -- no task of the strand has the session in its hands yet
        refine .inl ((hsettled.owner hown).resolve_right ?_)
        rw [hpoint]
        nofun
      · exact absurd (hopening.2.2.symm.trans hgone) Bool.false_ne_true
  -- the answer Reject or Closed settles the session, and so do the endings below
  | turnedAway hlock hpoint =>
      obtain ⟨hs, -⟩ := lock_eq_some.mp hlock
      exact h.settle hs (by rw [hpoint]; nofun) (by rw [hpoint]; exact ⟨nofun, nofun⟩)
  | timerIgnored hlock =>
      obtain ⟨hs, -⟩ := lock_eq_some.mp hlock
      exact h.put hs ((h.settled_of_get hs).same rfl rfl rfl rfl) rfl
  | timerChecked hlock hpoint =>
      obtain ⟨hs, -⟩ := lock_eq_some.mp hlock
      refine h.put hs ((h.settled_of_get hs).calmly ?_ rfl rfl rfl rfl ?_ nofun) rfl <;>
        rw [hpoint] <;> nofun
  | endRequest hlock hpoint =>
      obtain ⟨hs, -⟩ := lock_eq_some.mp hlock
      exact h.settle hs (by rw [hpoint]; nofun) (by rw [hpoint]; exact ⟨nofun, nofun⟩)
  | destroySession hlock hpoint _ _ htask hhand =>
      exact h.destroy (lock_eq_some.mp hlock).1 hpoint htask hhand
  | began hs hpoint => exact h.begun hs hpoint
  | posted hs hpoint => exact h.enqueue hs hpoint
  | cancelled hs hpoint =>
      refine h.cancelFor hs ?_ rfl ?_ nofun <;> rw [hpoint] <;> nofun
  | timerCleared hs hpoint =>
      refine h.put hs ((h.settled_of_get hs).calmly ?_ rfl rfl rfl rfl ?_ nofun) rfl <;>
        rw [hpoint] <;> nofun
  | timedOut hs hpoint =>
      have hsettled := (h.settled_of_get hs).settle (by rw [hpoint]; nofun)
        (by rw [hpoint]; exact ⟨nofun, nofun⟩)
      exact h.put hs (hsettled.same rfl rfl rfl rfl) (settle_owns _)
  | destroyed hs hpoint =>
      exact h.cancelFor hs (by rw [hpoint]; nofun) rfl (fun _ => rfl) nofun
  | released hs => exact h.release hs
  -- the callback of `release` posts a promotion
  | calledBack hs hpoint =>
      obtain rfl := (h.settled_of_get hs).calls _ hpoint
      have hposted := h.post (t := .promote) nofun
      refine hposted.put hs ((hposted.settled_of_get hs).calmly ?_ rfl rfl rfl rfl ?_ nofun) rfl <;>
        rw [hpoint] <;> nofun
  | begin hpoint hstrand => exact h.begin hpoint hstrand
  -- the strand is in the middle of a session, and one field of it is written
  | stored hs hpoint | cleared hs hpoint | starting hs hpoint =>
      refine SlotsKept.goTo ?_ hpoint rfl (fun _ => id) rfl nofun
      exact h.put hs ((h.settled_of_get hs).same rfl rfl rfl rfl) rfl
  | armed hs hpoint =>
      refine SlotsKept.goTo ?_ hpoint rfl nofun rfl nofun
      exact h.put hs ((h.settled_of_get hs).same rfl rfl rfl rfl) rfl
  | ranDry hpoint => exact h.goTo hpoint rfl nofun rfl nofun
  -- the session at the front is gone
  | skipped hpoint hqueue =>
      have hstays := h.take hpoint hqueue (.inr rfl) (.inr rfl)
      rw [← hpoint] at hstays
      exact hstays
  | popped hpoint hqueue hlock =>
      obtain ⟨hs, hexists⟩ := lock_eq_some.mp hlock
      exact h.take hpoint hqueue (.inl (session_of_get hs ▸ hexists)) (.inl rfl)
  | stillQueued _ hpoint | refused hpoint | readQueued _ hpoint | willStart _ hpoint =>
      exact h.goTo hpoint rfl (fun _ => id) rfl nofun
  -- the strand lets the session go, which has no slot
  | notQueued _ hpoint | dropped hpoint =>
      exact h.letGo hpoint rfl (.inl rfl) rfl nofun rfl nofun
  | putBack hpoint => exact h.letGo hpoint rfl (.inr rfl) rfl nofun rfl nofun
  | tooLate _ hpoint =>
      rcases hpoint with ⟨hpoint, -⟩ | ⟨hpoint, -⟩ <;>
        exact h.letGo hpoint rfl (.inl rfl) rfl (fun _ => id) rfl nofun
  -- the slot is taken now, and the session owns it when it is started
  | granted hs hpoint _ hslot => exact h.grant hs hpoint rfl hslot rfl rfl rfl rfl rfl rfl
  | started hs hpoint => exact h.start hs hpoint rfl rfl rfl rfl
  | gaveBack hpoint => exact h.giveBack hpoint
  | posting hpoint =>
      obtain rfl := h.calls _ _ hpoint
      exact (h.post (t := .promote) nofun).goTo hpoint rfl nofun rfl nofun
  | stop => exact h.post nofun

theorem init (hcreate : ProxyServer.create config = .ok server) :
    (ThreadedProxy.init server).SlotsKept config := by
  have hstarted := World.create_started hcreate
  have hnone (i : Nat) : (ThreadedProxy.init server).tasks i = 0 ∧
      (ThreadedProxy.init server).entries i = 0 := by
    refine ⟨?_, ?_⟩
    · show server.strand.count _ = 0
      rw [hstarted.strand]
      rfl
    · show server.queuedSessions.count i + 0 = 0
      rw [hstarted.queuedSessions]
      rfl
  refine ⟨fun i => ?_, hstarted.currentInflight, ?_, hstarted.maxInflight,
    hstarted.onRelease, nofun⟩
  · obtain ⟨htasks, hentries⟩ := hnone i
    exact ⟨by omega, fun _ => ⟨by omega, rfl, rfl⟩, fun _ => rfl, nofun, nofun, nofun⟩
  · show server.limiter.currentInflight ≤ _
    rw [hstarted.currentInflight]
    exact Nat.zero_le _

/-- When every session and its destructor is through, and no promotion is half-way, no slot is
taken. -/
theorem drained (h : w.SlotsKept config) (hpoint : w.point = .free)
    (hgone : ∀ s ∈ w.sessions, s.destroyed = true ∧ s.point = .idle) :
    w.server.limiter.currentInflight = 0 := by
  have hslots := h.slots
  rw [hpoint] at hslots
  rw [hslots]
  refine congrArg (· + 0) (List.countP_eq_zero.mpr fun s hmem hown => ?_)
  obtain ⟨i, hs⟩ := List.getElem?_of_mem hmem
  obtain ⟨hdestroyed, hidle⟩ := hgone s hmem
  rcases ((h.settled_of_get hs).gone hdestroyed).2.2 hown with hleft | hleft <;>
    cases hidle.symm.trans hleft

end SlotsKept

/-- In every interleaving, also while the server stops, a slot that is taken belongs to one session
or is in the hands of the strand, there are no more of them than `max_inflight`, and none is left
when the sessions are gone. -/
theorem slots_conserved {events : List ThreadEvent}
    (hcreate : ProxyServer.create config = .ok server) :
    Always step (fun w =>
      w.server.limiter.currentInflight =
        w.sessions.countP owns + w.point.permit.ownsSlot.toNat ∧
      w.server.limiter.currentInflight ≤ config.maxInflight ∧
      (w.point = .free → (∀ s ∈ w.sessions, s.destroyed = true ∧ s.point = .idle) →
        w.server.limiter.currentInflight = 0)) (init server) events := by
  have hevery : Meets step (fun _ _ => True) (init server) events :=
    meets_of_forall fun _ _ _ => trivial
  refine (always_of_meets hevery (SlotsKept.init hcreate) ?_).mono fun w h =>
    ⟨h.slots, h.capped, h.drained⟩
  exact fun _ _ _ h _ hstep => h.step hstep

/-- The server stops while a promotion and a queue timer meet. -/
theorem slots_conserved_timesOutInLoop :
    Always step (fun w =>
      w.server.limiter.currentInflight =
        w.sessions.countP owns + w.point.permit.ownsSlot.toNat ∧
      w.server.limiter.currentInflight ≤ World.oneSlotConfig.maxInflight ∧
      (w.point = .free → (∀ s ∈ w.sessions, s.destroyed = true ∧ s.point = .idle) →
        w.server.limiter.currentInflight = 0))
      (init World.oneSlotServer) (timesOutInLoop ++ [.stop, .strand]) :=
  slots_conserved World.oneSlotServer_create

end ThreadedProxy

end VllmSloProxy
