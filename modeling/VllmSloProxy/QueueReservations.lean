import VllmSloProxy.QueueThreads

/-!
# Queue reservations under several worker threads

The limiter counts reservations without saying whose they are.  `promote_queued_sessions` and the
handler of the queue timer both look at `queued_` before they take one back, and the count is right
as long as no session gets from both what it reserved once.
-/

namespace VllmSloProxy

open Transition Population

namespace SessionPoint

/-- The handler of the queue timer has begun and not ended. -/
def timing : SessionPoint → Bool
  | timerChecked | timerCancelled | timerCleared => true
  | _ => false

/-- No handler that has to do with the queue is half-way. -/
def calm : SessionPoint → Bool
  | reading | idle | admitted | releasing | posting _ => true
  | _ => false

end SessionPoint

/-- What the strand is doing with one session. -/
inductive Hold where
  | none
  | entering
  | stored
  | examined
  | granted
  | leaving
  deriving DecidableEq, Repr

namespace StrandPoint

def holdOf : StrandPoint → Hold
  | free | looping | returning _ _ | posting _ _ => .none
  | pushed _ => .entering
  | stored _ => .stored
  | popped _ | willPromote _ | refused _ => .examined
  | granted _ _ | readQueued _ _ | willStart _ _ => .granted
  | cleared _ _ | starting _ _ => .leaving

def hold (point : StrandPoint) (j : Nat) : Hold :=
  if point.inHand = some j then point.holdOf else .none

end StrandPoint

namespace ThreadedSession

/-- Told to wait, and neither promoted nor timed out. -/
def awaits (s : ThreadedSession) : Bool := s.told && !s.promoted && !s.timedOut

/-- Told to wait, with its reservation not taken back. -/
def reserves (s : ThreadedSession) : Bool := s.told && s.taken = 0

end ThreadedSession

namespace ThreadedProxy

open ThreadedSession

/-- No promotion and no timer handler is half-way. -/
def atRest (w : ThreadedProxy) : Prop :=
  w.point.outside = true ∧ ∀ s ∈ w.sessions, s.point.timing = false

/-- Every reservation is given back once. -/
structure ReservationsKept (w : ThreadedProxy) : Prop where
  counted : w.atRest → w.server.limiter.queuedRequests = w.sessions.countP awaits
  once : ∀ s ∈ w.sessions, s.taken ≤ 1
  kept : w.point.outside = true → ∀ i s, w.sessions[i]? = some s → s.queued = true →
    s.point.timing = false → i ∈ w.server.queuedSessions

/-- The limiter is open, and has a reservation to take back and a free slot. -/
def canPromote (w : ThreadedProxy) : Bool :=
  !w.server.limiter.closed && w.server.limiter.queuedRequests ≠ 0 &&
    decide (w.server.limiter.currentInflight < w.server.limiter.maxInflight)

/-- A promotion and the queue timer of one session meet: the limiter can grant a slot to a session
whose timer handler has begun, or that handler begins while a granted session still looks queued. -/
def timerMeetsPromotion (w : ThreadedProxy) : ThreadEvent → Bool
  | .strand =>
      match w.point with
      | .willPromote i =>
          w.canPromote && (w.sessions[i]?).any fun s => !s.queued || s.point.timing
      | _ => false
  | .queueTimer i false =>
      w.point.hold i = .granted && (w.sessions[i]?).any fun s => s.queued
  | _ => false

/-- How often a session is in the tasks of the strand and in the queue, and what the strand is
doing with it. -/
def place (w : ThreadedProxy) (i : Nat) : Nat × Nat × Hold :=
  (w.server.strand.count (.enqueue i), w.server.queuedSessions.count i, w.point.hold i)

/-- The session at a position; a position not yet taken looks like a session that reads. -/
def session (w : ThreadedProxy) (i : Nat) : ThreadedSession := w.sessions.getD i {}

/-- Told to wait and with no answer yet. -/
structure Live (s : ThreadedSession) : Prop where
  told : s.told = true
  finished : s.finished = false
  started : s.started = false
  destroyed : s.destroyed = false
  promoted : s.promoted = false
  timedOut : s.timedOut = false

/-- Its entry is in the queue, in the hands of the strand, or gone. -/
def EntryLeft (p : Nat × Nat × Hold) : Prop :=
  p = (0, 1, .none) ∨ p = (0, 0, .examined) ∨ p = (0, 0, .none)

/-- Nothing that concerns the queue has changed. -/
structure SameStory (s s' : ThreadedSession) : Prop where
  told : s'.told = s.told
  promoted : s'.promoted = s.promoted
  timedOut : s'.timedOut = s.timedOut
  taken : s'.taken = s.taken
  queued : s'.queued = s.queued

/-- The way of a session through the queue. -/
inductive Stage (p : Nat × Nat × Hold) (s : ThreadedSession) : Prop
  -- not told to wait: it reads, was dismissed, turned away or admitted
  | untold (told : s.told = false) (point : s.point.calm = true)
      (reading : s.point = .reading → s.finished = false ∧ s.started = false)
      (queued : s.queued = false) (timer : s.queueTimer = none) (promoted : s.promoted = false)
      (timedOut : s.timedOut = false) (taken : s.taken = 0) (place : p = (0, 0, .none))
  -- told to wait, its task posted, its entry pushed, `queued_` set and the timer armed
  | asked (live : Live s) (point : s.point = .told) (queued : s.queued = false)
      (timer : s.queueTimer = none) (taken : s.taken = 0) (place : p = (0, 0, .none))
  | posted (live : Live s) (point : s.point = .idle) (queued : s.queued = false)
      (timer : s.queueTimer = none) (taken : s.taken = 0) (place : p = (1, 0, .none))
  | entering (live : Live s) (point : s.point = .idle) (queued : s.queued = false)
      (timer : s.queueTimer = none) (taken : s.taken = 0) (place : p = (0, 1, .entering))
  | stored (live : Live s) (point : s.point = .idle) (queued : s.queued = true)
      (timer : s.queueTimer = none) (taken : s.taken = 0) (place : p = (0, 1, .stored))
  | waiting (live : Live s) (point : s.point = .idle) (queued : s.queued = true)
      (timer : s.queueTimer = some false) (taken : s.taken = 0)
      (place : p = (0, 1, .none) ∨ p = (0, 0, .examined))
  -- the handler of its timer, which takes its reservation back in the second step
  | checked (live : Live s) (point : s.point = .timerChecked) (timer : s.queueTimer = none)
      (queued : s.queued = true) (taken : s.taken = 0)
      (place : p = (0, 1, .none) ∨ p = (0, 0, .examined))
  | cancelled (live : Live s) (point : s.point = .timerCancelled) (timer : s.queueTimer = none)
      (taken : s.taken = 1) (place : EntryLeft p)
  | cleared (live : Live s) (point : s.point = .timerCleared) (timer : s.queueTimer = none)
      (queued : s.queued = false) (taken : s.taken = 1) (place : EntryLeft p)
  -- answered; its entry may still be in the queue
  | timedOut (told : s.told = true) (timedOut : s.timedOut = true) (promoted : s.promoted = false)
      (point : s.point.calm = true) (reading : s.point ≠ .reading) (timer : s.queueTimer = none)
      (queued : s.queued = false) (taken : s.taken = 1) (place : EntryLeft p)
  -- granted a slot, which takes its reservation back, then no longer queued, then started
  | granted (live : Live s) (point : s.point = .idle) (queued : s.queued = true)
      (taken : s.taken = 1) (place : p = (0, 0, .granted))
  | leaving (live : Live s) (point : s.point = .idle) (queued : s.queued = false)
      (taken : s.taken = 1) (place : p = (0, 0, .leaving))
  | promoted (told : s.told = true) (promoted : s.promoted = true) (timedOut : s.timedOut = false)
      (point : s.point.calm = true) (reading : s.point ≠ .reading) (queued : s.queued = false)
      (taken : s.taken = 1) (place : p = (0, 0, .none))

/-- Every session is on its way, and the limiter counts the reservations that are held. -/
structure Reserved (w : ThreadedProxy) : Prop where
  running : w.Running
  stage : ∀ i, Stage (w.place i) (w.session i)
  counted : w.server.limiter.queuedRequests = w.sessions.countP reserves

variable {w w' : ThreadedProxy} {e : ThreadEvent} {i : Nat} {s s' : ThreadedSession}
  {p : Nat × Nat × Hold}

theorem SameStory.reserves (h : SameStory s s') : s'.reserves = s.reserves := by
  rw [ThreadedSession.reserves, ThreadedSession.reserves, h.told, h.taken]

theorem settle_sameStory (s : ThreadedSession) : SameStory s s.settle := by
  unfold ThreadedSession.settle
  split <;> exact ⟨rfl, rfl, rfl, rfl, rfl⟩

theorem EntryLeft.of_entry (h : EntryLeft p)
    (hentry : 0 < p.2.1 ∧ p.2.2 = .none ∨ p.2.2 = .examined) :
    p = (0, 1, .none) ∨ p = (0, 0, .examined) := by
  rcases h with rfl | rfl | rfl
  · exact .inl rfl
  · exact .inr rfl
  · exact absurd hentry (by decide)

namespace Stage

theorem taken_le (h : Stage p s) : s.taken ≤ 1 := by
  cases h <;> omega

/-- With no promotion and no timer handler half-way, a session holds its reservation as long as it
has no answer. -/
theorem reserves_eq_awaits (h : Stage p s) (hpoint : s.point.timing = false)
    (hgranted : p.2.2 ≠ .granted) (hleaving : p.2.2 ≠ .leaving) : s.reserves = s.awaits := by
  unfold reserves awaits
  cases h with
  | untold told => rw [told]; rfl
  | asked live _ _ _ taken | posted live _ _ _ taken | entering live _ _ _ taken
  | stored live _ _ _ taken | waiting live _ _ _ taken =>
      rw [live.told, live.promoted, live.timedOut, taken]
      rfl
  | checked _ point | cancelled _ point | cleared _ point => rw [point] at hpoint; cases hpoint
  | timedOut told timedOut promoted _ _ _ _ taken => rw [told, timedOut, promoted, taken]; rfl
  | promoted told promoted timedOut _ _ _ taken => rw [told, timedOut, promoted, taken]; rfl
  | granted _ _ _ _ place => exact absurd (congrArg (·.2.2) place) hgranted
  | leaving _ _ _ _ place => exact absurd (congrArg (·.2.2) place) hleaving

/-- A session that looks queued, with no handler on it, has its entry. -/
theorem entry_of_queued (h : Stage p s) (hqueued : s.queued = true)
    (hpoint : s.point.timing = false) (hexamined : p.2.2 ≠ .examined)
    (hgranted : p.2.2 ≠ .granted) : p.2.1 = 1 := by
  cases h with
  | stored _ _ _ _ _ place => rw [place]
  | waiting _ _ _ _ _ place =>
      rcases place with rfl | rfl
      · rfl
      · exact absurd rfl hexamined
  | granted _ _ _ _ place => exact absurd (congrArg (·.2.2) place) hgranted
  | checked _ point | cancelled _ point => rw [point] at hpoint; cases hpoint
  | _ => simp_all

theorem of_reading (h : Stage p s) (hpoint : s.point = .reading) :
    s.told = false ∧ s.finished = false ∧ s.started = false ∧ s.queued = false ∧
      s.queueTimer = none ∧ s.promoted = false ∧ s.timedOut = false ∧ s.taken = 0 ∧
      p = (0, 0, .none) := by
  cases h with
  | untold told _ reading queued timer promoted timedOut taken place =>
      obtain ⟨finished, started⟩ := reading hpoint
      exact ⟨told, finished, started, queued, timer, promoted, timedOut, taken, place⟩
  | _ => simp_all

/-- A session with nothing to wait for goes on. -/
theorem calmly (h : Stage p s) (hlive : ¬ Live s) (hsame : SameStory s s')
    (htimer : s.queueTimer = none → s'.queueTimer = none) (hpoint : s'.point.calm = true)
    (hreading : s'.point ≠ .reading) : Stage p s' := by
  obtain ⟨htold, hpromoted, htimedOut, htaken, hqueued⟩ := hsame
  cases h with
  | untold told _ _ queued timer promoted timedOut taken place =>
      exact .untold (htold.trans told) hpoint (fun hread => absurd hread hreading)
        (hqueued.trans queued) (htimer timer) (hpromoted.trans promoted)
        (htimedOut.trans timedOut) (htaken.trans taken) place
  | timedOut told timedOut promoted _ _ timer queued taken place =>
      exact .timedOut (htold.trans told) (htimedOut.trans timedOut) (hpromoted.trans promoted)
        hpoint hreading (htimer timer) (hqueued.trans queued) (htaken.trans taken) place
  | promoted told promoted timedOut _ _ queued taken place =>
      exact .promoted (htold.trans told) (hpromoted.trans promoted) (htimedOut.trans timedOut)
        hpoint hreading (hqueued.trans queued) (htaken.trans taken) place
  | _ live => exact absurd live hlive

/-- Only a session with nothing to wait for releases its permit or calls back. -/
theorem not_live (h : Stage p s) (hpoint : s.point.calm = true) (hidle : s.point ≠ .idle) :
    ¬ Live s := by
  rintro ⟨told, -, -, -, promoted, timedOut⟩
  cases h <;> simp_all [SessionPoint.calm]

theorem not_live_of_reading (h : Stage p s) (hpoint : s.point = .reading) : ¬ Live s :=
  fun live => absurd ((h.of_reading hpoint).1.symm.trans live.told) Bool.false_ne_true

theorem queued_of_not_live (h : Stage p s) (hlive : ¬ Live s) : s.queued = false := by
  cases h with
  | untold _ _ _ queued | timedOut _ _ _ _ _ _ queued | promoted _ _ _ _ _ queued => exact queued
  | _ live => exact absurd live hlive

/-- Whoever waits for an answer is held by its timer, by its task or by the strand. -/
theorem not_live_of_free (h : Stage p s) (hpoint : s.point = .idle) (htimer : s.queueTimer = none)
    (htask : p.1 = 0) (hhold : p.2.2 = .none) : ¬ Live s := by
  intro live
  cases h with
  | untold told => exact absurd (told.symm.trans live.told) Bool.false_ne_true
  | timedOut _ timedOut => exact absurd (live.timedOut.symm.trans timedOut) Bool.false_ne_true
  | promoted _ promoted => exact absurd (live.promoted.symm.trans promoted) Bool.false_ne_true
  | waiting _ _ _ timer => cases htimer.symm.trans timer
  | asked _ point | checked _ point | cancelled _ point | cleared _ point =>
      cases hpoint.symm.trans point
  | posted _ _ _ _ _ place => exact absurd ((congrArg (·.1) place).symm.trans htask) Nat.one_ne_zero
  | entering _ _ _ _ _ place | stored _ _ _ _ _ place | granted _ _ _ _ place
  | leaving _ _ _ _ place => cases hhold.symm.trans (congrArg (·.2.2) place)

theorem not_destroying (h : Stage p s) : s.point ≠ .destroying := by
  intro hpoint
  cases h <;> simp_all [SessionPoint.calm]

theorem settle (h : Stage p s) (hlive : ¬ Live s) : Stage p s.settle := by
  refine h.calmly hlive (settle_sameStory s) ?_ ?_ ?_ <;> unfold ThreadedSession.settle
  · intro htimer
    split
    · exact htimer
    · rw [htimer]
      rfl
  · split <;> rfl
  · split <;> nofun

theorem admitted (h : Stage p s) (hpoint : s.point = .reading) (permit : ServerPermit) :
    Stage p { s with point := .admitted, permit } := by
  obtain ⟨told, -, -, queued, timer, promoted, timedOut, taken, place⟩ := h.of_reading hpoint
  exact .untold told rfl (by nofun) queued timer promoted timedOut taken place

theorem began (h : Stage p s) (hpoint : s.point = .admitted) :
    Stage p { s with point := .idle, started := true } := by
  have hlive : ¬ Live s := h.not_live (by rw [hpoint]; rfl) (by rw [hpoint]; nofun)
  exact h.calmly hlive ⟨rfl, rfl, rfl, rfl, rfl⟩ id rfl (by nofun)

theorem ask (h : Stage p s) (hpoint : s.point = .reading) (hdestroyed : s.destroyed = false) :
    Stage p { s with point := .told, told := true } := by
  obtain ⟨-, finished, started, queued, timer, promoted, timedOut, taken, place⟩ :=
    h.of_reading hpoint
  exact .asked ⟨rfl, finished, started, hdestroyed, promoted, timedOut⟩ rfl queued timer taken place

theorem ignoreTimer (h : Stage p s) {ec : Bool} (htimer : s.queueTimer ≠ none)
    (hcancelled : ec = true → s.queueTimer = some true)
    (hignore : ec = true ∨ s.queued = false) : Stage p { s with queueTimer := none } := by
  cases h with
  | waiting _ _ queued timer =>
      -- a timer that was not cancelled finds the session queued
      rcases hignore with hec | hqueued
      · rw [timer] at hcancelled
        cases hcancelled hec
      · rw [queued] at hqueued
        cases hqueued
  | granted live point queued taken place => exact .granted { live with } point queued taken place
  | leaving live point queued taken place => exact .leaving { live with } point queued taken place
  | promoted told promoted timedOut point reading queued taken place =>
      exact .promoted told promoted timedOut point reading queued taken place
  | _ => contradiction

theorem checkTimer (h : Stage p s) (hpoint : s.point = .idle) (htimer : s.queueTimer ≠ none)
    (hqueued : s.queued = true) (hgranted : p.2.2 ≠ .granted) :
    Stage p { s with queueTimer := none, point := .timerChecked } := by
  cases h with
  | waiting live _ queued _ taken place => exact .checked { live with } rfl rfl queued taken place
  | granted _ _ _ _ place => exact absurd (congrArg (·.2.2) place) hgranted
  | _ => simp_all

theorem post (h : Stage p s) (hpoint : s.point = .told) :
    p = (0, 0, .none) ∧ Stage (1, 0, .none) { s with point := .idle } := by
  cases h with
  | asked live _ queued timer taken place =>
      exact ⟨place, .posted { live with } rfl queued timer taken rfl⟩
  | _ => simp_all [SessionPoint.calm]

theorem cancel (h : Stage p s) (hpoint : s.point = .timerChecked) :
    s.reserves = true ∧ Stage p { s with point := .timerCancelled, taken := s.taken + 1 } := by
  cases h with
  | checked live _ timer _ taken place =>
      have htaken : s.taken + 1 = 1 := by rw [taken]
      refine ⟨by rw [reserves, live.told, taken]; rfl, ?_⟩
      exact .cancelled { live with } rfl timer htaken (place.imp_right .inl)
  | _ => simp_all [SessionPoint.calm]

theorem clearTimer (h : Stage p s) (hpoint : s.point = .timerCancelled) :
    Stage p { s with point := .timerCleared, queued := false } := by
  cases h with
  | cancelled live _ timer taken place => exact .cleared { live with } rfl timer rfl taken place
  | _ => simp_all [SessionPoint.calm]

theorem timeOut (h : Stage p s) (hpoint : s.point = .timerCleared) :
    Stage p { s.settle with timedOut := true } := by
  cases h with
  | cleared live _ timer queued taken place =>
      simp only [ThreadedSession.settle, live.finished, Bool.false_eq_true, ↓reduceIte, timer]
      exact .timedOut live.told rfl live.promoted rfl (by nofun) rfl queued taken place
  | _ => simp_all [SessionPoint.calm]

theorem enter {tasks entries : Nat} (h : Stage (tasks, entries, .none) s) (htasks : 0 < tasks) :
    tasks = 1 ∧ entries = 0 ∧ Stage (0, 1, .entering) s := by
  cases h with
  | posted live point queued timer taken place =>
      obtain ⟨rfl, rfl⟩ : tasks = 1 ∧ entries = 0 := by simpa using place
      exact ⟨rfl, rfl, .entering live point queued timer taken rfl⟩
  | _ => grind [EntryLeft]

theorem store (h : Stage p s) (hhold : p.2.2 = .entering) :
    p = (0, 1, .entering) ∧ Stage (0, 1, .stored) { s with queued := true } := by
  cases h with
  | entering live point _ timer taken place =>
      exact ⟨place, .stored { live with } point rfl timer taken rfl⟩
  | _ => grind [EntryLeft]

theorem arm (h : Stage p s) (hhold : p.2.2 = .stored) :
    p = (0, 1, .stored) ∧ Stage (0, 1, .none) { s with queueTimer := some false } := by
  cases h with
  | stored live point queued _ taken place =>
      exact ⟨place, .waiting { live with } point queued rfl taken (.inl rfl)⟩
  | _ => grind [EntryLeft]

/-- A session with an entry in the queue or in the hands of the strand.  The entry may move between
the two, and it may go when nothing waits for it. -/
theorem entry (h : Stage p s) (hentry : 0 < p.2.1 ∧ p.2.2 = .none ∨ p.2.2 = .examined) :
    (p = (0, 1, .none) ∨ p = (0, 0, .examined)) ∧ Stage (0, 1, .none) s ∧
      Stage (0, 0, .examined) s ∧
      (s.queued = false ∨ s.reserves = false ∨ s.destroyed = true → Stage (0, 0, .none) s) := by
  cases h with
  | waiting live point queued timer taken place =>
      refine ⟨place, .waiting live point queued timer taken (.inl rfl),
        .waiting live point queued timer taken (.inr rfl), fun hgone => ?_⟩
      rw [queued, reserves, live.told, taken, live.destroyed] at hgone
      simp at hgone
  | checked live point timer queued taken place =>
      refine ⟨place, .checked live point timer queued taken (.inl rfl),
        .checked live point timer queued taken (.inr rfl), fun hgone => ?_⟩
      rw [queued, reserves, live.told, taken, live.destroyed] at hgone
      simp at hgone
  | cancelled live point timer taken place =>
      have hstage {q} (hq : EntryLeft q) : Stage q s := .cancelled live point timer taken hq
      exact ⟨place.of_entry hentry, hstage (.inl rfl), hstage (.inr (.inl rfl)),
        fun _ => hstage (.inr (.inr rfl))⟩
  | cleared live point timer queued taken place =>
      have hstage {q} (hq : EntryLeft q) : Stage q s := .cleared live point timer queued taken hq
      exact ⟨place.of_entry hentry, hstage (.inl rfl), hstage (.inr (.inl rfl)),
        fun _ => hstage (.inr (.inr rfl))⟩
  | timedOut told timedOut promoted point reading timer queued taken place =>
      have hstage {q} (hq : EntryLeft q) : Stage q s :=
        .timedOut told timedOut promoted point reading timer queued taken hq
      exact ⟨place.of_entry hentry, hstage (.inl rfl), hstage (.inr (.inl rfl)),
        fun _ => hstage (.inr (.inr rfl))⟩
  | _ => grind

theorem grant (h : Stage p s) (hhold : p.2.2 = .examined) (hqueued : s.queued = true)
    (hpoint : s.point.timing = false) :
    p = (0, 0, .examined) ∧ s.reserves = true ∧
      Stage (0, 0, .granted) { s with taken := s.taken + 1 } := by
  cases h with
  | waiting live point queued _ taken place =>
      have htaken : s.taken + 1 = 1 := by rw [taken]
      refine ⟨by grind, by rw [reserves, live.told, taken]; rfl, ?_⟩
      exact .granted { live with } point queued htaken rfl
  | checked _ point | cancelled _ point => rw [point] at hpoint; cases hpoint
  | _ => grind

theorem of_granted (h : Stage p s) (hhold : p.2.2 = .granted) :
    p = (0, 0, .granted) ∧ s.queued = true ∧ s.finished = false ∧
      Stage (0, 0, .leaving) { s with queued := false } := by
  cases h with
  | granted live point queued taken place =>
      exact ⟨place, queued, live.finished, .leaving { live with } point rfl taken rfl⟩
  | _ => grind [EntryLeft]

theorem cancelTimer (h : Stage p s) (hhold : p.2.2 = .leaving) :
    p = (0, 0, .leaving) ∧
      Stage (0, 0, .leaving) { s with queueTimer := s.queueTimer.map fun _ => true } := by
  cases h with
  | leaving live point queued taken place =>
      exact ⟨place, .leaving { live with } point queued taken rfl⟩
  | _ => grind [EntryLeft]

theorem start (h : Stage p s) (hhold : p.2.2 = .leaving) (permit : ServerPermit) :
    p = (0, 0, .leaving) ∧
      Stage (0, 0, .none) { s with permit, started := true, promoted := true } := by
  cases h with
  | leaving live point queued taken place =>
      refine ⟨place, .promoted live.told rfl live.timedOut ?_ ?_ queued taken rfl⟩
      · rw [point]
        rfl
      · rw [point]
        nofun
  | _ => grind [EntryLeft]

end Stage

theorem session_of_get (hs : w.sessions[i]? = some s) : w.session i = s := by
  rw [session, List.getD_eq_getElem?_getD, hs]
  rfl

theorem session_of_none (hs : w.sessions[i]? = none) : w.session i = {} := by
  rw [session, List.getD_eq_getElem?_getD, hs]
  rfl

theorem session_put (hs : w.sessions[i]? = some s) : (w.put i s').session i = s' := by
  obtain ⟨hlt, -⟩ := List.getElem?_eq_some_iff.mp hs
  exact session_of_get (List.getElem?_set_self hlt)

theorem session_put_ne {j : Nat} (hj : j ≠ i) : (w.put i s').session j = w.session j := by
  rw [session, session, List.getD_eq_getElem?_getD, List.getD_eq_getElem?_getD]
  exact congrArg (Option.getD · ({} : ThreadedSession)) (List.getElem?_set_ne (Ne.symm hj))

theorem hold_self {point : StrandPoint} (hhand : point.inHand = some i) :
    point.hold i = point.holdOf := if_pos hhand

theorem hold_of_idle {point : StrandPoint} (h : point.holdOf = .none) (j : Nat) :
    point.hold j = .none := by
  unfold StrandPoint.hold
  split
  · exact h
  · rfl

/-- What the strand is doing with the session at its point. -/
theorem hold_at {point : StrandPoint} (hpoint : w.point = point) (hhand : point.inHand = some i) :
    w.point.hold i = point.holdOf := by
  rw [hpoint]
  exact hold_self hhand

theorem hold_of_outside {point : StrandPoint} (h : point.outside = true) (j : Nat) :
    point.hold j ≠ .examined ∧ point.hold j ≠ .granted ∧ point.hold j ≠ .leaving := by
  unfold StrandPoint.hold
  split
  · cases point <;> simp_all [StrandPoint.outside, StrandPoint.holdOf]
  · exact ⟨nofun, nofun, nofun⟩

theorem hold_of_ne {point : StrandPoint} {j : Nat}
    (hhand : point.inHand = none ∨ point.inHand = some i) (hj : j ≠ i) :
    point.hold j = .none := by
  refine if_neg fun heq => ?_
  rcases hhand with hhand | hhand <;> rw [hhand] at heq
  · cases heq
  · exact hj (Option.some.inj heq).symm

namespace Reserved

/-- A step that leaves every other session in its place. -/
theorem moveOne (h : w.Reserved) (hrun : w'.Running) (hs : w.sessions[i]? = some s)
    (hsessions : w'.sessions = w.sessions.set i s')
    (hplace : ∀ j, j ≠ i → w'.place j = w.place j) (hstage : Stage (w'.place i) s')
    (hcount : w'.server.limiter.queuedRequests + share reserves s =
      w.server.limiter.queuedRequests + share reserves s') : w'.Reserved := by
  have hput (j : Nat) : w'.session j = (w.put i s').session j := by
    rw [session, session, hsessions]
    rfl
  refine ⟨hrun, fun j => ?_, ?_⟩
  · by_cases hj : j = i
    · rw [hput, hj, session_put hs]
      exact hstage
    · rw [hput, session_put_ne hj, hplace j hj]
      exact h.stage j
  · have hset : (w.sessions.set i s').countP reserves + share reserves s =
        w.sessions.countP reserves + share reserves s' := countP_set hs
    have hcounted := h.counted
    rw [hsessions]
    omega

/-- A step of the strand that moves the entry or the task of one session. -/
theorem moveEntry (h : w.Reserved) (hrun : w'.Running) (hsessions : w'.sessions = w.sessions)
    (hplace : ∀ j, j ≠ i → w'.place j = w.place j) (hstage : Stage (w'.place i) (w.session i))
    (hcount : w'.server.limiter.queuedRequests = w.server.limiter.queuedRequests) :
    w'.Reserved := by
  refine ⟨hrun, fun j => ?_, by rw [hcount, hsessions, h.counted]⟩
  rw [show w'.session j = w.session j by rw [session, session, hsessions]]
  by_cases hj : j = i
  · rw [hj]
    exact hstage
  · rw [hplace j hj]
    exact h.stage j

/-- A step that leaves the sessions and their places as they are. -/
theorem same (h : w.Reserved) (hrun : w'.Running) (hsessions : w'.sessions = w.sessions)
    (hplace : ∀ j, w'.place j = w.place j)
    (hcount : w'.server.limiter.queuedRequests = w.server.limiter.queuedRequests) :
    w'.Reserved := by
  refine h.moveEntry (i := 0) hrun hsessions (fun j _ => hplace j) ?_ hcount
  rw [hplace]
  exact h.stage 0

/-- A step of the strand on the session that it has in hand. -/
theorem moveHeld (h : w.Reserved) (limiter : InflightLimiter Task) {point : StrandPoint}
    {tasks entries : Nat} {hold hold' : Hold}
    (hrun : (((w.setLimiter limiter).put i s').goTo point).Running)
    (hs : w.sessions[i]? = some s) (hhand : w.point.inHand = some i)
    (hhand' : point.inHand = none ∨ point.inHand = some i)
    (hplace : w.place i = (tasks, entries, hold)) (hhold : point.hold i = hold')
    (hstage : Stage (tasks, entries, hold') s')
    (hcount : limiter.queuedRequests + share reserves s =
      w.server.limiter.queuedRequests + share reserves s') :
    (((w.setLimiter limiter).put i s').goTo point).Reserved := by
  refine h.moveOne hrun hs rfl (fun j hj => ?_) ?_ hcount
  · refine Prod.ext rfl (Prod.ext rfl ?_)
    exact (hold_of_ne hhand' hj).trans (hold_of_ne (.inr hhand) hj).symm
  · have htasks : w.server.strand.count (.enqueue i) = tasks := congrArg Prod.fst hplace
    have hentries : w.server.queuedSessions.count i = entries := congrArg (·.2.1) hplace
    rw [← htasks, ← hentries, ← hhold] at hstage
    exact hstage

theorem stage_of_get (h : w.Reserved) (hs : w.sessions[i]? = some s) : Stage (w.place i) s := by
  have hstage := h.stage i
  rwa [session_of_get hs] at hstage

/-- A handler of a session takes a step that has nothing to do with its reservation. -/
theorem put (h : w.Reserved) (hrun : (w.put i s').Running) (hs : w.sessions[i]? = some s)
    (hstage : Stage (w.place i) s') (hreserves : s'.reserves = s.reserves) :
    (w.put i s').Reserved :=
  h.moveOne hrun hs rfl (fun _ _ => rfl) hstage (by rw [share, share, hreserves]; rfl)

/-- The step of the strand that begins a task. -/
theorem begin (h : w.Reserved) {task : Task} {strand : List Task} (hpoint : w.point = .free)
    (hstrand : w.server.strand = task :: strand)
    (hrun : ((w.setStrand strand).begin task).Running) :
    ((w.setStrand strand).begin task).Reserved := by
  cases task with
  | stop => exact absurd (by rw [hstrand]; exact List.mem_cons_self) h.running.unstopped
  | promote =>
      refine h.same hrun rfl (fun j => ?_) rfl
      simp only [place, hpoint, hstrand]
      rfl
  | enqueue i =>
      rw [begin_enqueue (w := w.setStrand strand) h.running.accepts] at hrun ⊢
      have hplace : w.place i =
          (strand.count (.enqueue i) + 1, w.server.queuedSessions.count i, .none) := by
        rw [place, hstrand, List.count_cons_self, hpoint]
        rfl
      have hstage := h.stage i
      rw [hplace] at hstage
      obtain ⟨htasks, hentries, hentering⟩ := hstage.enter (Nat.succ_pos _)
      refine h.moveEntry (i := i) hrun rfl (fun j hj => ?_) ?_ rfl
      · refine Prod.ext ?_ (Prod.ext ?_ ?_)
        · show strand.count (.enqueue j) = w.server.strand.count (.enqueue j)
          rw [hstrand, List.count_cons_of_ne fun heq => hj (Task.enqueue.inj heq).symm]
        · show (w.server.queuedSessions ++ [i]).count j = w.server.queuedSessions.count j
          rw [List.count_append, List.count_cons_of_ne (Ne.symm hj)]
          rfl
        · have hfree : w.point.hold j = .none := by rw [hpoint]; exact hold_of_idle rfl j
          exact (hold_of_ne (.inr rfl) hj).trans hfree.symm
      · show Stage (strand.count (.enqueue i), (w.server.queuedSessions ++ [i]).count i,
          StrandPoint.hold (.pushed i) i) _
        rw [List.count_append, List.count_cons_self, hentries, hold_self rfl,
          Nat.succ.inj htasks]
        exact hentering

theorem settle (h : w.Reserved) (hrun : (w.put i s.settle).Running)
    (hs : w.sessions[i]? = some s) (hlive : ¬ Live s) : (w.put i s.settle).Reserved :=
  h.put hrun hs ((h.stage_of_get hs).settle hlive) (settle_sameStory s).reserves

/-- The limiter has a reservation to take back for the session. -/
theorem cancel (h : w.Reserved) (hs : w.sessions[i]? = some s) (hpoint : s.point = .timerChecked)
    (hrun : (w.cancelFor i s .timerCancelled).Running) :
    (w.cancelFor i s .timerCancelled).Reserved := by
  obtain ⟨hreserves, hstage⟩ := (h.stage_of_get hs).cancel hpoint
  have hshare : share reserves s = 1 := share_true hreserves
  have hsome : 0 < w.server.limiter.queuedRequests := by
    have hle : share reserves s ≤ w.sessions.countP reserves := share_le_countP hs
    rw [h.counted]
    omega
  have hcancel : w.server.limiter.cancelQueued = (true, { w.server.limiter with
      queuedRequests := w.server.limiter.queuedRequests - 1 }) :=
    if_neg (Nat.ne_of_gt hsome)
  unfold cancelFor at hrun ⊢
  rw [hcancel] at hrun ⊢
  refine h.moveOne hrun hs rfl (fun _ _ => rfl) hstage ?_
  have hgone : share reserves
      { s with point := .timerCancelled, taken := s.taken + true.toNat } = 0 :=
    share_false (by simp [reserves])
  show w.server.limiter.queuedRequests - 1 + share reserves s =
    w.server.limiter.queuedRequests + share reserves
      { s with point := .timerCancelled, taken := s.taken + true.toNat }
  omega

theorem release (h : w.Reserved) (hs : w.sessions[i]? = some s) (hpoint : s.point = .releasing)
    (hrun : (w.releaseFor i s).Running) : (w.releaseFor i s).Reserved := by
  unfold releaseFor at hrun ⊢
  have hstage := h.stage_of_get hs
  have hlive : ¬ Live s := hstage.not_live (by rw [hpoint]; rfl) (by rw [hpoint]; nofun)
  rcases w.release_cases s.permit with heq | heq
  · rw [heq] at hrun ⊢
    exact h.put hrun hs (hstage.calmly hlive ⟨rfl, rfl, rfl, rfl, rfl⟩ id rfl (by nofun)) rfl
  · rw [heq, h.running.callback] at hrun ⊢
    exact h.moveOne hrun hs rfl (fun _ _ => rfl)
      (hstage.calmly hlive ⟨rfl, rfl, rfl, rfl, rfl⟩ id rfl (by nofun)) rfl

theorem post (h : w.Reserved) (hs : w.sessions[i]? = some s) (hpoint : s.point = .told)
    (hrun : ((w.post (.enqueue i)).put i { s with point := .idle }).Running) :
    ((w.post (.enqueue i)).put i { s with point := .idle }).Reserved := by
  obtain ⟨hplace, hstage⟩ := (h.stage_of_get hs).post hpoint
  have hplaces (j : Nat) : (w.post (.enqueue i)).place j =
      ((w.place j).1 + [Task.enqueue i].count (.enqueue j), (w.place j).2) :=
    Prod.ext List.count_append rfl
  refine h.moveOne hrun hs rfl (fun j hj => ?_) ?_ rfl
  · show (w.post (.enqueue i)).place j = _
    have hne : Task.enqueue i ≠ .enqueue j := fun heq => hj (Task.enqueue.inj heq).symm
    rw [hplaces, List.count_cons_of_ne hne]
    rfl
  · show Stage ((w.post (.enqueue i)).place i) _
    rw [hplaces, hplace, List.count_cons_self]
    exact hstage

theorem accept (h : w.Reserved) {server : ProxyServer}
    (hrun : ({ w with server, sessions := w.sessions ++ [{}] } : ThreadedProxy).Running)
    (hlimiter : server.limiter = w.server.limiter)
    (hqueue : server.queuedSessions = w.server.queuedSessions)
    (hstrand : server.strand = w.server.strand) :
    ({ w with server, sessions := w.sessions ++ [{}] } : ThreadedProxy).Reserved := by
  refine ⟨hrun, fun j => ?_, ?_⟩
  · have hplace : ({ w with server, sessions := w.sessions ++ [{}] } : ThreadedProxy).place j =
        w.place j := by
      simp only [place, hqueue, hstrand]
    -- a session that is not there yet looks like the new one
    have hsession : ({ w with server, sessions := w.sessions ++ [{}] } : ThreadedProxy).session j =
        w.session j := by
      rw [session, session, List.getD_eq_getElem?_getD, List.getD_eq_getElem?_getD,
        List.getElem?_append]
      split
      · rfl
      · have hnone : w.sessions[j]? = none := List.getElem?_eq_none (by omega)
        rw [hnone]
        cases j - w.sessions.length <;> rfl
    rw [hplace, hsession]
    exact h.stage j
  · show server.limiter.queuedRequests = (w.sessions ++ [({} : ThreadedSession)]).countP reserves
    rw [hlimiter, h.counted, countP_snoc]
    rfl

theorem goTo (h : w.Reserved) {point : StrandPoint} (hrun : (w.goTo point).Running)
    (hhold : ∀ j, point.hold j = w.point.hold j) : (w.goTo point).Reserved :=
  h.same hrun rfl (fun j => Prod.ext rfl (Prod.ext rfl (hhold j))) rfl

/-- The loop takes the first entry off the queue; it is the only one of its session. -/
theorem take (h : w.Reserved) {queue : List Nat} (hpoint : w.point = .looping)
    (hqueue : w.server.queuedSessions = i :: queue) {point : StrandPoint}
    (hrun : ((w.setQueue queue).goTo point).Running)
    (hhand : point.inHand = none ∨ point.inHand = some i)
    (hstage : Stage (0, 0, .examined) (w.session i) →
      ((w.session i).queued = false ∨ (w.session i).reserves = false ∨
        (w.session i).destroyed = true → Stage (0, 0, .none) (w.session i)) →
      Stage (0, 0, point.hold i) (w.session i)) :
    ((w.setQueue queue).goTo point).Reserved := by
  have hplace : w.place i = (w.server.strand.count (.enqueue i), queue.count i + 1, .none) := by
    rw [place, hqueue, List.count_cons_self, hpoint]
    rfl
  obtain ⟨hentry, -, hexamined, hgone⟩ :=
    (h.stage i).entry (.inl (by rw [hplace]; exact ⟨Nat.succ_pos _, rfl⟩))
  rw [hplace] at hentry
  obtain ⟨htasks, hentries⟩ : w.server.strand.count (.enqueue i) = 0 ∧ queue.count i = 0 := by
    simpa using hentry
  refine h.moveEntry (i := i) hrun rfl (fun j hj => Prod.ext rfl (Prod.ext ?_ ?_)) ?_ rfl
  · show queue.count j = w.server.queuedSessions.count j
    rw [hqueue, List.count_cons_of_ne (Ne.symm hj)]
  · exact (hold_of_ne hhand hj).trans (by rw [place, hpoint]; rfl)
  · show Stage (w.server.strand.count (.enqueue i), queue.count i, point.hold i) _
    rw [htasks, hentries]
    exact hstage hexamined hgone

/-- The strand lets go of the session that it has examined, or puts it back. -/
theorem letGo (h : w.Reserved) (hhand : w.point.inHand = some i)
    (hhold : w.point.holdOf = .examined) {queue : List Nat} {point : StrandPoint}
    (hrun : ((w.setQueue queue).goTo point).Running) (hpoint : point.inHand = none)
    (hqueue : queue = i :: w.server.queuedSessions ∨ queue = w.server.queuedSessions ∧
      ((w.session i).queued = false ∨ (w.session i).reserves = false)) :
    ((w.setQueue queue).goTo point).Reserved := by
  have hexamined : w.point.hold i = .examined := (hold_self hhand).trans hhold
  obtain ⟨hentry, hback, -, hgone⟩ := (h.stage i).entry (.inr hexamined)
  obtain ⟨htasks, hentries⟩ : w.server.strand.count (.enqueue i) = 0 ∧
      w.server.queuedSessions.count i = 0 := by
    simpa [place, hexamined] using hentry
  refine h.moveEntry (i := i) hrun rfl (fun j hj => Prod.ext rfl (Prod.ext ?_ ?_)) ?_ rfl
  · show queue.count j = w.server.queuedSessions.count j
    rcases hqueue with rfl | ⟨rfl, -⟩
    · rw [List.count_cons_of_ne (Ne.symm hj)]
    · rfl
  · exact (hold_of_ne (.inl hpoint) hj).trans (hold_of_ne (.inr hhand) hj).symm
  · have hfree : point.hold i = .none := if_neg (by rw [hpoint]; nofun)
    show Stage (w.server.strand.count (.enqueue i), queue.count i, point.hold i) _
    rcases hqueue with rfl | ⟨rfl, hdone⟩
    · rw [htasks, List.count_cons_self, hentries, hfree]
      exact hback
    · rw [htasks, hentries, hfree]
      exact hgone (hdone.imp_right .inl)

theorem session_of_lock (hlock : w.lock i = none) :
    (w.session i).queued = false ∨ (w.session i).destroyed = true := by
  cases hs : w.sessions[i]? with
  | none =>
      rw [session_of_none hs]
      exact .inl rfl
  | some s =>
      rw [session_of_get hs]
      cases hgone : s.destroyed with
      | true => exact .inr rfl
      | false =>
          rw [lock_eq_some.mpr ⟨hs, hgone⟩] at hlock
          cases hlock

/-- When the limiter counts no reservation, no session holds one. -/
theorem reserves_of_none (h : w.Reserved) (hnone : w.server.limiter.queuedRequests = 0) :
    (w.session i).reserves = false := by
  cases hs : w.sessions[i]? with
  | none =>
      rw [session_of_none hs]
      rfl
  | some s =>
      rw [session_of_get hs]
      have hzero : w.sessions.countP reserves = 0 := h.counted.symm.trans hnone
      exact Bool.eq_false_iff.mpr (List.countP_eq_zero.mp hzero s (List.mem_of_getElem? hs))

/-- The limiter grants a slot to a session that is queued and whose timer handler is not running. -/
theorem grant (h : w.Reserved) (hs : w.sessions[i]? = some s) (hpoint : w.point = .willPromote i)
    (hcan : w.canPromote = true) (hok : w.timerMeetsPromotion .strand = false)
    {limiter : InflightLimiter Task} {permit : ServerPermit}
    (hlimiter : limiter.queuedRequests + 1 = w.server.limiter.queuedRequests)
    (hrun : (((w.setLimiter limiter).put i { s with taken := s.taken + 1 }).goTo
      (.granted i permit)).Running) :
    (((w.setLimiter limiter).put i { s with taken := s.taken + 1 }).goTo
      (.granted i permit)).Reserved := by
  obtain ⟨hqueued, htiming⟩ : s.queued = true ∧ s.point.timing = false := by
    simpa [timerMeetsPromotion, hpoint, hs, hcan] using hok
  have hhold : w.point.hold i = .examined := hold_at hpoint rfl
  obtain ⟨hplace, hreserves, hstage⟩ := (h.stage_of_get hs).grant hhold hqueued htiming
  refine h.moveHeld _ hrun hs (by rw [hpoint]; rfl) (.inr rfl) hplace (hold_self rfl) hstage ?_
  have hgone : share reserves { s with taken := s.taken + 1 } = 0 :=
    share_false (by simp [reserves])
  rw [hgone, share_true hreserves]
  exact hlimiter

theorem move (h : w.Reserved) (hmove : Move w e w') (hstop : e ≠ .stop)
    (hok : w.timerMeetsPromotion e = false) : w'.Reserved := by
  have hrun : w'.Running := h.running.move hmove hstop
  cases hmove with
  | stop => exact absurd rfl hstop
  | accept => exact h.accept hrun rfl rfl rfl
  | dismiss hlock hpoint =>
      obtain ⟨hs, -⟩ := lock_eq_some.mp hlock
      have hstage := h.stage_of_get hs
      exact h.put hrun hs (hstage.calmly (hstage.not_live_of_reading hpoint)
        ⟨rfl, rfl, rfl, rfl, rfl⟩ id rfl (by nofun)) rfl
  | admitted hlock hpoint =>
      obtain ⟨hs, -⟩ := lock_eq_some.mp hlock
      exact h.moveOne hrun hs rfl (fun _ _ => rfl) ((h.stage_of_get hs).admitted hpoint _) rfl
  | told hlock hpoint =>
      obtain ⟨hs, hdestroyed⟩ := lock_eq_some.mp hlock
      have hstage := h.stage_of_get hs
      refine h.moveOne hrun hs rfl (fun _ _ => rfl) (hstage.ask hpoint hdestroyed) ?_
      obtain ⟨htold, -, -, -, -, -, -, htaken, -⟩ := hstage.of_reading hpoint
      rw [share_false (by rw [reserves, htold]; rfl), share_true (by rw [reserves, htaken]; rfl)]
      rfl
  | turnedAway hlock hpoint =>
      obtain ⟨hs, -⟩ := lock_eq_some.mp hlock
      exact h.settle hrun hs ((h.stage_of_get hs).not_live_of_reading hpoint)
  | endRequest hlock _ hstarted =>
      obtain ⟨hs, -⟩ := lock_eq_some.mp hlock
      exact h.settle hrun hs fun live =>
        absurd (live.started.symm.trans hstarted) Bool.false_ne_true
  | timerIgnored hlock _ htimer hcancelled hignore =>
      obtain ⟨hs, -⟩ := lock_eq_some.mp hlock
      exact h.put hrun hs ((h.stage_of_get hs).ignoreTimer htimer hcancelled hignore) rfl
  | @timerChecked i s hlock hpoint htimer hqueued =>
      obtain ⟨hs, -⟩ := lock_eq_some.mp hlock
      -- the condition keeps the handler from beginning between the grant and the start
      have hgranted : w.point.hold i ≠ .granted := by
        simpa [timerMeetsPromotion, hs, hqueued] using hok
      exact h.put hrun hs ((h.stage_of_get hs).checkTimer hpoint htimer hqueued hgranted) rfl
  | destroySession hlock hpoint _ htimer htask hhand =>
      obtain ⟨hs, -⟩ := lock_eq_some.mp hlock
      have hstage := h.stage_of_get hs
      have hlive : ¬ Live _ := hstage.not_live_of_free hpoint htimer
        (List.count_eq_zero.mpr htask) (if_neg hhand)
      -- so the destructor finds nothing to cancel
      have hqueued := hstage.queued_of_not_live hlive
      refine h.put hrun hs (hstage.calmly hlive ⟨rfl, rfl, rfl, rfl, rfl⟩ id ?_ ?_) rfl
      · rw [hqueued]
        rfl
      · rw [hqueued]
        nofun
  | began hs hpoint => exact h.put hrun hs ((h.stage_of_get hs).began hpoint) rfl
  | posted hs hpoint => exact h.post hs hpoint hrun
  -- the timer's handler takes the reservation of its own session
  | cancelled hs hpoint => exact h.cancel hs hpoint hrun
  | timerCleared hs hpoint => exact h.put hrun hs ((h.stage_of_get hs).clearTimer hpoint) rfl
  | timedOut hs hpoint =>
      exact h.put hrun hs ((h.stage_of_get hs).timeOut hpoint) (settle_sameStory _).reserves
  | destroyed hs hpoint => exact absurd hpoint (h.stage_of_get hs).not_destroying
  | released hs hpoint => exact h.release hs hpoint hrun
  | calledBack hs hpoint =>
      have hstage := h.stage_of_get hs
      have hlive : ¬ Live _ := hstage.not_live (by rw [hpoint]; rfl) (by rw [hpoint]; nofun)
      rw [h.running.calls _ (List.mem_of_getElem? hs) _ hpoint] at hrun ⊢
      have hplace (j : Nat) : (w.post .promote).place j = w.place j :=
        Prod.ext (List.count_append.trans rfl) rfl
      refine h.moveOne hrun hs rfl (fun j _ => hplace j) ?_ rfl
      show Stage ((w.post .promote).place _) _
      rw [hplace]
      exact hstage.calmly hlive ⟨rfl, rfl, rfl, rfl, rfl⟩ id rfl (by nofun)
  | begin hpoint hstrand => exact h.begin hpoint hstrand hrun
  | @stored i s hs hpoint =>
      have hhold : w.point.hold i = .entering := hold_at hpoint rfl
      obtain ⟨hplace, hstage⟩ := (h.stage_of_get hs).store hhold
      exact h.moveHeld w.server.limiter hrun hs (by rw [hpoint]; rfl) (.inr rfl) hplace
        (hold_self rfl) hstage rfl
  | @armed i s hs hpoint =>
      have hhold : w.point.hold i = .stored := hold_at hpoint rfl
      obtain ⟨hplace, hstage⟩ := (h.stage_of_get hs).arm hhold
      exact h.moveHeld w.server.limiter hrun hs (by rw [hpoint]; rfl) (.inl rfl) hplace rfl
        hstage rfl
  | ranDry hpoint | stillQueued _ hpoint | refused hpoint | readQueued _ hpoint
  | willStart _ hpoint =>
      exact h.goTo hrun fun j => by rw [hpoint]; rfl
  | @skipped i queue hpoint hqueue hlock =>
      have hloop : w.setQueue queue = (w.setQueue queue).goTo .looping := by rw [← hpoint]; rfl
      rw [hloop] at hrun ⊢
      exact h.take hpoint hqueue hrun (.inl rfl) fun _ hgone =>
        hgone ((session_of_lock hlock).imp_right .inr)
  | popped hpoint hqueue =>
      refine h.take hpoint hqueue hrun (.inr rfl) fun hexamined _ => ?_
      rw [hold_self rfl]
      exact hexamined
  | notQueued hs hpoint hqueued =>
      refine h.letGo (by rw [hpoint]; rfl) (by rw [hpoint]; rfl) hrun rfl (.inr ⟨rfl, .inl ?_⟩)
      rw [session_of_get hs]
      exact hqueued
  -- nobody holds a reservation, so this session has given its own back
  | dropped hpoint hnone =>
      exact h.letGo (by rw [hpoint]; rfl) (by rw [hpoint]; rfl) hrun rfl
        (.inr ⟨rfl, .inr (h.reserves_of_none hnone)⟩)
  | putBack hpoint =>
      exact h.letGo (by rw [hpoint]; rfl) (by rw [hpoint]; rfl) hrun rfl (.inl rfl)
  | granted hs hpoint hwaiting hslot =>
      have hcan : w.canPromote = true := by
        simp [canPromote, h.running.opened, hslot, Nat.ne_of_gt hwaiting]
      exact h.grant hs hpoint hcan hok (Nat.succ_pred_eq_of_pos hwaiting) hrun
  -- a session that was granted a slot is still queued and not finished
  | tooLate hs hpoint =>
      have hstage := h.stage_of_get hs
      rcases hpoint with ⟨hpoint, hqueued⟩ | ⟨hpoint, hfinished⟩
      · have hhold : w.point.hold _ = .granted := hold_at hpoint rfl
        exact absurd (hqueued.symm.trans (hstage.of_granted hhold).2.1) Bool.false_ne_true
      · have hhold : w.point.hold _ = .granted := hold_at hpoint rfl
        exact absurd ((hstage.of_granted hhold).2.2.1.symm.trans hfinished) Bool.false_ne_true
  | cleared hs hpoint =>
      have hhold : w.point.hold _ = .granted := hold_at hpoint rfl
      obtain ⟨hplace, -, -, hstage⟩ := (h.stage_of_get hs).of_granted hhold
      exact h.moveHeld w.server.limiter hrun hs (by rw [hpoint]; rfl) (.inr rfl) hplace
        (hold_self rfl) hstage rfl
  | starting hs hpoint =>
      have hhold : w.point.hold _ = .leaving := hold_at hpoint rfl
      obtain ⟨hplace, hstage⟩ := (h.stage_of_get hs).cancelTimer hhold
      exact h.moveHeld w.server.limiter hrun hs (by rw [hpoint]; rfl) (.inr rfl) hplace
        (hold_self rfl) hstage rfl
  | started hs hpoint =>
      have hhold : w.point.hold _ = .leaving := hold_at hpoint rfl
      obtain ⟨hplace, hstage⟩ := (h.stage_of_get hs).start hhold _
      exact h.moveHeld w.server.limiter hrun hs (by rw [hpoint]; rfl) (.inl rfl) hplace rfl
        hstage rfl
  | @gaveBack i permit hpoint =>
      have hnone (j : Nat) : w.point.hold j = .none := by rw [hpoint]; exact hold_of_idle rfl j
      rcases w.release_cases permit with heq | heq
      · rw [heq] at hrun ⊢
        exact h.goTo hrun fun j => (hnone j).symm
      · rw [heq, h.running.callback] at hrun ⊢
        refine h.same hrun rfl (fun j => Prod.ext rfl (Prod.ext rfl ?_)) rfl
        exact (hold_of_idle rfl j).trans (hnone j).symm
  | posting hpoint =>
      rw [h.running.strandCalls _ _ hpoint] at hrun ⊢
      refine h.same hrun rfl (fun j => Prod.ext ?_ (Prod.ext rfl ?_)) rfl
      · exact List.count_append.trans rfl
      · have hnone : w.point.hold j = .none := by rw [hpoint]; exact hold_of_idle rfl j
        exact hnone.symm

theorem init {config : ProxyConfig} {server : ProxyServer}
    (hcreate : ProxyServer.create config = .ok server) : (ThreadedProxy.init server).Reserved := by
  have hstarted := World.create_started hcreate
  refine ⟨init_running hcreate, fun i => ?_, hstarted.queuedRequests⟩
  refine .untold rfl rfl (fun _ => ⟨rfl, rfl⟩) rfl rfl rfl rfl rfl ?_
  show (server.strand.count (.enqueue i), server.queuedSessions.count i, _) = _
  rw [hstarted.strand, hstarted.queuedSessions]
  rfl

theorem kept (h : w.Reserved) : w.ReservationsKept where
  counted hrest := by
    rw [h.counted]
    refine List.countP_congr fun s hmem => ?_
    obtain ⟨i, hs⟩ := List.getElem?_of_mem hmem
    obtain ⟨-, hgranted, hleaving⟩ := hold_of_outside hrest.1 i
    rw [(h.stage_of_get hs).reserves_eq_awaits (hrest.2 s hmem) hgranted hleaving]
  once s hmem := by
    obtain ⟨i, hs⟩ := List.getElem?_of_mem hmem
    exact (h.stage_of_get hs).taken_le
  kept hout i s hs hqueued hpoint := by
    obtain ⟨hexamined, hgranted, -⟩ := hold_of_outside hout i
    have hcount : w.server.queuedSessions.count i = 1 :=
      (h.stage_of_get hs).entry_of_queued hqueued hpoint hexamined hgranted
    exact List.count_pos_iff.mp (by omega)

end Reserved

/-- Until `stop` is called every reservation is given back once, when no promotion meets the queue
timer of its session. -/
theorem always_reservationsKept {config : ProxyConfig} {server : ProxyServer}
    {events : List ThreadEvent} (hcreate : ProxyServer.create config = .ok server)
    (hstop : .stop ∉ events)
    (hmeets : Meets step (fun w e => w.timerMeetsPromotion e = false) (init server) events) :
    Always step ReservationsKept (init server) events := by
  have hrunning : Meets step (fun _ e => e ≠ .stop) (init server) events :=
    meets_of_forall fun _ _ hmem heq => hstop (heq ▸ hmem)
  refine (always_of_meets (meets_and hrunning hmeets) (Reserved.init hcreate) ?_).mono
    fun _ => Reserved.kept
  exact fun _ _ _ h hok hstep => h.move (step_move hstep) hok.1 hok.2

/-- Two requests wait in the queue for the only slot. -/
def twoWait : List ThreadEvent :=
  [.accept, .accept, .accept, .request 0, .session 0, .request 1, .request 2, .session 1,
    .session 2, .strand, .strand, .strand, .strand, .strand, .strand]

/-- The first of them times out, and the second one gets the slot that comes back. -/
def timesOutAlone : List ThreadEvent :=
  List.flatten [twoWait,
    [.queueTimer 1 false, .session 1, .session 1, .session 1, .session 1, .endRequest 0,
      .session 0, .session 0],
    List.replicate 12 .strand]

theorem always_reservationsKept_timesOutAlone :
    Always step ReservationsKept (init World.oneSlotServer) timesOutAlone :=
  always_reservationsKept World.oneSlotServer_create (by decide) (by decide +kernel)

/-- The timer handler of the first one has seen `queued_` and called `cancel_queued`, when the
promotion finds `queued_` still set. -/
def timesOutInLoop : List ThreadEvent :=
  List.flatten [twoWait,
    [.queueTimer 1 false, .session 1, .endRequest 0, .session 0, .session 0],
    List.replicate 4 .strand, [.session 1, .session 1, .session 1], List.replicate 10 .strand]

/-- The first one has two reservations taken back for it, and the second one is dropped. -/
theorem reservationStolen : .stop ∉ timesOutInLoop ∧
    ∃ w, run step (init World.oneSlotServer) timesOutInLoop = some w ∧
      w.sessions.map (fun s => s.taken) = [0, 2, 0] ∧ ¬ w.ReservationsKept := by
  have hend : (run step (init World.oneSlotServer) timesOutInLoop).any (fun w =>
      decide (w.sessions.map (fun s => s.taken) = [0, 2, 0] ∧ w.point.outside = true ∧
        w.server.queuedSessions = [] ∧ ∃ s ∈ w.sessions[2]?, s.queued ∧ ¬ s.point.timing)) =
      true := by
    decide +kernel
  obtain ⟨w, hrun, hw⟩ := Option.any_eq_true _ _ |>.mp hend
  obtain ⟨htaken, hout, hqueue, s, hs, hqueued, htiming⟩ := of_decide_eq_true hw
  refine ⟨by decide, w, hrun, htaken, fun hkept => ?_⟩
  have hdropped := hkept.kept hout 2 s hs hqueued (by simpa using htiming)
  rw [hqueue] at hdropped
  exact absurd hdropped List.not_mem_nil

end ThreadedProxy

end VllmSloProxy
