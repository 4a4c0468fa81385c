import VllmSloProxy.Lib.Line
import VllmSloProxy.PermitBooks

/-!
# The discipline of the queue

When every handler runs to its end and the strand runs its tasks in order, sessions start in the
order in which they were told to wait, without those that timed out, and nobody waits next to a free
slot for which no promotion is posted.
-/

namespace VllmSloProxy

open Context Transition Line

namespace QueueEvent

def askedId : QueueEvent → Option Nat
  | asked i => some i
  | _ => none

def startedId : QueueEvent → Option Nat
  | started i => some i
  | _ => none

def timedOutId : QueueEvent → Option Nat
  | timedOut i => some i
  | _ => none

end QueueEvent

def Task.enqueuedId : Task → Option Nat
  | enqueue i => some i
  | _ => none

namespace ProxyServer

/-- A slot that comes back posts a promotion. -/
def Wakes (server server' : ProxyServer) : Prop :=
  ∃ n, server'.strand = server.strand ++ List.replicate n .promote ∧
    (n = 0 → server.limiter.currentInflight ≤ server'.limiter.currentInflight)

variable {server server' server'' : ProxyServer}

theorem Wakes.of_strand (h : server'.strand = server.strand)
    (hcurrent : server.limiter.currentInflight ≤ server'.limiter.currentInflight) :
    Wakes server server' :=
  ⟨0, by simpa using h, fun _ => hcurrent⟩

theorem Wakes.trans (h : Wakes server server') (h' : Wakes server' server'') :
    Wakes server server'' := by
  obtain ⟨n, hstrand, hcurrent⟩ := h
  obtain ⟨m, hstrand', hcurrent'⟩ := h'
  refine ⟨n + m, ?_, fun hzero => ?_⟩
  · rw [hstrand', hstrand, List.append_assoc, List.replicate_append_replicate]
  · have hn : n = 0 := by omega
    have hm : m = 0 := by omega
    exact (hcurrent hn).trans (hcurrent' hm)

theorem Wakes.stop (h : Wakes server server') (hstop : .stop ∉ server.strand) :
    .stop ∉ server'.strand := by
  obtain ⟨n, hstrand, -⟩ := h
  rw [hstrand, List.mem_append]
  rintro (hmem | hmem)
  · exact hstop hmem
  · cases List.eq_of_mem_replicate hmem

theorem Wakes.toEnqueue (h : Wakes server server') :
    server'.strand.filterMap Task.enqueuedId = server.strand.filterMap Task.enqueuedId := by
  obtain ⟨n, hstrand, -⟩ := h
  rw [hstrand, List.filterMap_append, List.filterMap_replicate]
  exact List.append_nil _

theorem releasePermit_wakes (hcb : server.limiter.onRelease = some .promote)
    (permit : ServerPermit) : Wakes server (server.releasePermit permit) := by
  rcases releasePermit_cases permit server with ⟨h, -⟩ | ⟨-, -, h⟩
  · rw [h]
    exact .of_strand rfl (Nat.le_refl _)
  · rw [h]
    by_cases hzero : server.limiter.currentInflight = 0
    · refine .of_strand ?_ ?_
      · simp [InflightLimiter.giveBack, hzero]
      · rw [hzero]
        exact Nat.zero_le _
    · refine ⟨1, ?_, fun hone => (nomatch hone)⟩
      rw [InflightLimiter.giveBack_of_pos (Nat.pos_of_ne_zero hzero), hcb]
      rfl

end ProxyServer

namespace Context

variable {c c' c₁ : Context} {op next : Op} {r : Outcome} {ending : Ending}

/-- What a handler does to the queue when it neither asks for a slot nor times its session out. -/
structure KeepsQueue (c c' : Context) : Prop where
  journal : c'.journal = c.journal
  queued : c'.self.queued = c.self.queued
  counted : c.self.requestCounted = true → c'.self.requestCounted = true
  queuedRequests : c'.server.limiter.queuedRequests = c.server.limiter.queuedRequests
  wakes : c.server.Wakes c'.server

theorem KeepsQueue.trans (h : KeepsQueue c c₁) (h' : KeepsQueue c₁ c') : KeepsQueue c c' :=
  ⟨h'.journal.trans h.journal, h'.queued.trans h.queued, fun hc => h'.counted (h.counted hc),
    h'.queuedRequests.trans h.queuedRequests, h.wakes.trans h'.wakes⟩

/-- A change of the session alone. -/
theorem KeepsQueue.of_self (s : ProxySession) (hqueued : s.queued = c.self.queued)
    (hcounted : c.self.requestCounted = true → s.requestCounted = true) :
    KeepsQueue c (c.setSelf s) :=
  ⟨rfl, hqueued, hcounted, rfl, .of_strand rfl (Nat.le_refl _)⟩

theorem counted_keepsQueue : KeepsQueue c c.counted :=
  ⟨rfl, rfl, fun _ => rfl, rfl, .of_strand rfl (Nat.le_refl _)⟩

theorem settle_keepsQueue (hcb : c.server.limiter.onRelease = some .promote) (ending : Ending) :
    KeepsQueue c (c.settle ending) := by
  have hrecorded : c.server.Wakes (c.recordedServer ending) := by
    refine .of_strand ?_ (by rw [recordedServer_limiter])
    unfold recordedServer
    split <;> rfl
  rw [settle_eq]
  cases c.self.permit with
  | none => exact ⟨rfl, rfl, fun hc => hc, by simp, hrecorded⟩
  | some permit =>
      have hcb' : (c.recordedServer ending).limiter.onRelease = some .promote := by
        rw [recordedServer_limiter, hcb]
      refine ⟨rfl, rfl, fun hc => hc, ?_, hrecorded.trans
        (ProxyServer.releasePermit_wakes hcb' permit)⟩
      rw [Option.elim_some]
      rcases ProxyServer.releasePermit_cases permit (c.recordedServer ending) with
        ⟨h, -⟩ | ⟨-, -, h⟩ <;> rw [h] <;> simp

theorem Ends.keepsQueue (h : Ends ending c c')
    (hcb : c.server.limiter.onRelease = some .promote) : KeepsQueue c c' := by
  cases h with
  | already => exact .of_self c.self rfl fun hc => hc
  | quietly => exact (settle_keepsQueue hcb ending).trans (.of_self _ rfl fun hc => hc)
  | withError => exact (settle_keepsQueue hcb ending).trans (.of_self _ rfl fun hc => hc)

theorem Prepares.keepsQueue (h : Prepares c c₁) : KeepsQueue c c₁ := by
  refine ⟨h.journal, h.queued, fun hc => h.counted.trans hc, by rw [h.limiter], ?_⟩
  obtain ⟨metrics, -, -, -, hserver⟩ := h.server
  rw [hserver]
  exact .of_strand rfl (Nat.le_refl _)

/-- A session that is told to wait has found all slots taken and posts its enqueue task. -/
structure AsksToWait (c c' : Context) : Prop where
  journal : c'.journal = c.journal ++ [.asked c.id]
  queued : c'.self.queued = c.self.queued
  counted : c'.self.requestCounted = true
  queuedRequests : c'.server.limiter.queuedRequests = c.server.limiter.queuedRequests + 1
  strand : c'.server.strand = c.server.strand ++ [.enqueue c.id]
  full : c'.server.limiter.maxInflight ≤ c'.server.limiter.currentInflight

/-- What a handler can do to the queue. -/
inductive Queueing (op : Op) (c c' : Context) : Prop where
  | kept (hkeeps : KeepsQueue c c')
  | asked (hop : op = .readRequest) (hasks : AsksToWait c c')
  | timedOut (hqueued : c.self.queued = true) (hkeeps : KeepsQueue c.timeOut c')

/-- The queue timer gives one reservation back. -/
theorem timeOut_eq (halive : c.server.alive = true) : c.timeOut =
    ((c.setLimiter { c.server.limiter with
      queuedRequests := c.server.limiter.queuedRequests - 1 }).setSelf
        { c.self with queued := false }).enter (.timedOut c.id) := by
  unfold timeOut
  rw [if_pos halive]
  rcases c.server.limiter.cancelQueued_cases with ⟨hzero, h⟩ | ⟨-, h⟩
  · rw [h, hzero, Nat.zero_sub, ← hzero]
    rfl
  · rw [h]
    rfl

theorem startProxyRequest_keepsQueue (halive : c.server.alive = true)
    (hpermit : c.self.permit = none) (permit : ServerPermit) :
    KeepsQueue c (c.startProxyRequest permit) := by
  rw [startProxyRequest_eq permit halive hpermit]
  exact .of_self _ rfl fun hc => hc

theorem Requested.queueing (h : Requested c c') (hpermit : c.self.permit = none)
    (hcb : c.server.limiter.onRelease = some .promote) :
    KeepsQueue c c' ∨ AsksToWait c c' := by
  cases h with
  | unread => exact .inl (.of_self _ rfl fun hc => hc)
  | refused _ hends => exact .inl (hends.keepsQueue hcb)
  | health => exact .inl (.of_self _ rfl fun hc => hc)
  | admitted halive =>
      have htaken : KeepsQueue c (c.counted.setLimiter { c.server.limiter with
          currentInflight := c.server.limiter.currentInflight + 1 }) :=
        ⟨rfl, rfl, fun _ => rfl, rfl, .of_strand rfl (Nat.le_succ _)⟩
      exact .inl (htaken.trans
        (startProxyRequest_keepsQueue (c := c.counted.setLimiter _) halive hpermit _))
  | queued halive hclosed hfull => exact .inr ⟨rfl, rfl, rfl, rfl, rfl, hfull⟩
  | turnedAway _ _ hends => exact .inl (counted_keepsQueue.trans (hends.keepsQueue hcb))

theorem Handled.queueing (h : Handled op r c c') (hread : op = .readRequest → c.self.permit = none)
    (hcb : c.server.limiter.onRelease = some .promote) : Queueing op c c' := by
  cases h with
  | timer => exact .kept (.of_self c.self rfl fun hc => hc)
  | timedOut _ _ _ _ hqueued hends =>
      exact .timedOut hqueued (hends.keepsQueue (timeOut_frame.server.onRelease.trans hcb))
  | expired _ _ _ _ hends => exact .kept (hends.keepsQueue hcb)
  | read _ hop hrequested =>
      have hbefore : KeepsQueue c (c.setSelf { c.self with clientRequest := r.request }) :=
        .of_self _ rfl fun hc => hc
      rcases hrequested.queueing (hread hop) hcb with hkeeps | hasks
      · exact .kept (hbefore.trans hkeeps)
      · exact .asked hop ⟨hasks.1, hasks.2, hasks.3, hasks.4, hasks.5, hasks.6⟩
  | wroteText => exact .kept (.of_self _ rfl fun hc => hc)
  | wroteError => exact .kept (.of_self _ rfl fun hc => hc)
  | ended _ _ _ _ _ hobserves hends =>
      have hprep := hobserves.prepares
      exact .kept (hprep.keepsQueue.trans (hends.keepsQueue (by rw [hprep.limiter, hcb])))
  | relayed _ _ hrelay =>
      exact .kept (hrelay.prepares.keepsQueue.trans (.of_self _ rfl fun hc => hc))

end Context

namespace World

variable {config : ProxyConfig} {server : ProxyServer} {w w' : World} {i : Nat}

/-- The session `i` exists and its `queued_` is true. -/
def isQueued (w : World) (i : Nat) : Bool := (w.lock i).any fun s => s.queued

/-- The sessions that were told to wait and are not in the queue yet. -/
def toEnqueue (w : World) : List Nat := w.server.strand.filterMap Task.enqueuedId

/-- Who waits, in the order in which they will start. -/
def waiting (w : World) : List Nat := w.server.queuedSessions.filter w.isQueued ++ w.toEnqueue

def asked (w : World) : List Nat := w.journal.filterMap QueueEvent.askedId

def started (w : World) : List Nat := w.journal.filterMap QueueEvent.startedId

def timedOut (w : World) : List Nat := w.journal.filterMap QueueEvent.timedOutId

/-- What the queue promises. -/
structure QueueDiscipline (w : World) : Prop where
  once : ∀ i s, w.lock i = some s → s.queued = true → w.server.queuedSessions.count i = 1
  inOrder : w.started <+: w.asked.filter (· ∉ w.timedOut)
  startedOnce : w.started.Nodup
  either : ∀ i ∈ w.started, i ∉ w.timedOut
  full : .promote ∉ w.server.strand → ∀ i s, w.lock i = some s → s.queued = true →
    w.server.limiter.currentInflight = w.server.limiter.maxInflight

/-- The server has not been told to stop. -/
structure Serving (server : ProxyServer) : Prop where
  alive : server.alive = true
  accepting : server.accepting = true
  stopping : server.stopping = false
  closed : server.limiter.closed = false
  strand : .stop ∉ server.strand

/-- The line of waiting sessions, as the limiter, the queue and the strand know it. -/
structure Lined (w : World) : Prop where
  sound : w.Sound
  serving : Serving w.server
  line : InLine w.asked w.started w.timedOut w.waiting
  entries : (w.server.queuedSessions ++ w.toEnqueue).Sublist w.asked
  present : ∀ i, w.isQueued i = true → i ∈ w.server.queuedSessions
  reserved : w.server.limiter.queuedRequests = w.waiting.length
  capped : w.server.limiter.currentInflight ≤ w.server.limiter.maxInflight
  counted : ∀ i ∈ w.asked, ∃ s, w.sessions[i]? = some s ∧ s.requestCounted = true

/-- While somebody waits next to a free slot, a promotion is posted after the last enqueue task. -/
def Prompt (w : World) : Prop :=
  w.server.limiter.currentInflight < w.server.limiter.maxInflight → w.waiting ≠ [] →
    ∃ before after, w.server.strand = before ++ .promote :: after ∧
      after.filterMap Task.enqueuedId = []

theorem isQueued_eq_true : w.isQueued i = true ↔ ∃ s, w.lock i = some s ∧ s.queued = true := by
  unfold isQueued
  rw [Option.any_eq_true]

theorem Lined.entries_nodup (h : w.Lined) : (w.server.queuedSessions ++ w.toEnqueue).Nodup :=
  h.line.once.sublist h.entries

theorem Lined.mem_waiting (h : w.Lined) (hqueued : w.isQueued i = true) : i ∈ w.waiting :=
  List.mem_append_left _ (List.mem_filter.mpr ⟨h.present i hqueued, hqueued⟩)

theorem Lined.waiting_nil (h : w.Lined) (h' : w'.Lined)
    (hle : w'.server.limiter.queuedRequests ≤ w.server.limiter.queuedRequests)
    (hnil : w.waiting = []) : w'.waiting = [] := by
  have hreserved := h.reserved
  rw [hnil, List.length_nil] at hreserved
  have hreserved' := h'.reserved
  exact List.eq_nil_of_length_eq_zero (by omega)

theorem Lined.discipline (h : w.Lined) (hprompt : w.Prompt) : w.QueueDiscipline := by
  refine ⟨fun i s hlock hqueued => ?_, h.line.served_initial, h.line.served_nodup,
    fun i hi => h.line.not_left_of_served hi, fun hpromote i s hlock hqueued => ?_⟩
  · have hmem : i ∈ w.server.queuedSessions :=
      h.present i (isQueued_eq_true.mpr ⟨s, hlock, hqueued⟩)
    exact List.count_eq_one_of_mem (List.nodup_append.mp h.entries_nodup).1 hmem
  · have hwaits : w.waiting ≠ [] :=
      List.ne_nil_of_mem (h.mem_waiting (isQueued_eq_true.mpr ⟨s, hlock, hqueued⟩))
    by_contra hfree
    have hslot : w.server.limiter.currentInflight < w.server.limiter.maxInflight :=
      Nat.lt_of_le_of_ne h.capped hfree
    obtain ⟨before, after, hstrand, -⟩ := hprompt hslot hwaits
    apply hpromote
    rw [hstrand]
    simp

/-- A step that leaves the line as it is. -/
theorem Lined.keep (h : w.Lined) (hsound : w'.Sound) (hserving : Serving w'.server)
    (hqueued : ∀ j, w'.isQueued j = w.isQueued j) (hjournal : w'.journal = w.journal)
    (hentries : w'.server.queuedSessions = w.server.queuedSessions)
    (htasks : w'.toEnqueue = w.toEnqueue)
    (hreserved : w'.server.limiter.queuedRequests = w.server.limiter.queuedRequests)
    (hcapped : w'.server.limiter.currentInflight ≤ w'.server.limiter.maxInflight)
    (hcounted : ∀ (j : Nat) (s : ProxySession), w.sessions[j]? = some s → s.requestCounted = true →
      ∃ s', w'.sessions[j]? = some s' ∧ s'.requestCounted = true) : w'.Lined := by
  have hwaiting : w'.waiting = w.waiting := by
    unfold waiting
    rw [hentries, htasks, funext hqueued]
  have hasked : w'.asked = w.asked := by
    unfold asked
    rw [hjournal]
  refine ⟨hsound, hserving, ?_, ?_, fun j hj => ?_, ?_, hcapped, fun j hj => ?_⟩
  · unfold asked started timedOut
    rw [hwaiting, hjournal]
    exact h.line
  · rw [hentries, htasks, hasked]
    exact h.entries
  · rw [hentries]
    exact h.present j (hqueued j ▸ hj)
  · rw [hreserved, hwaiting]
    exact h.reserved
  · obtain ⟨s, hs, hc⟩ := h.counted j (hasked ▸ hj)
    exact hcounted j s hs hc

theorem isQueued_put {c : Context} {s : ProxySession}
    (hget : w.sessions[c.id]? = some s) (j : Nat) :
    (w.put c).isQueued j =
      if c.id = j then !c.self.destroyed && c.self.queued else w.isQueued j := by
  unfold isQueued lock
  rw [put_getElem? hget]
  split
  · rw [Option.filter_some]
    cases c.self.destroyed <;> rfl
  · rfl

theorem isQueued_eq {s : ProxySession} (hlock : w.lock i = some s) : w.isQueued i = s.queued := by
  unfold isQueued
  rw [hlock]
  rfl

theorem counted_put {c : Context} {s : ProxySession} (hget : w.sessions[c.id]? = some s)
    (hcounted : s.requestCounted = true → c.self.requestCounted = true) (j : Nat)
    (s' : ProxySession) (hj : w.sessions[j]? = some s') (hc : s'.requestCounted = true) :
    ∃ s'', (w.put c).sessions[j]? = some s'' ∧ s''.requestCounted = true := by
  rw [put_getElem? hget]
  split
  · rename_i hid
    rw [← hid, hget] at hj
    exact ⟨c.self, rfl, hcounted (Option.some.inj hj ▸ hc)⟩
  · exact ⟨s', hj, hc⟩

theorem Prompt.wakes (h : w.Prompt) (hwakes : w.server.Wakes w'.server)
    (hmax : w'.server.limiter.maxInflight = w.server.limiter.maxInflight)
    (hwaiting : w.waiting = [] → w'.waiting = []) : w'.Prompt := by
  intro hslot hwaits
  obtain ⟨n, hstrand, hcurrent⟩ := hwakes
  cases n with
  | zero =>
      have hbefore : w.server.limiter.currentInflight < w.server.limiter.maxInflight := by
        have := hcurrent rfl
        omega
      obtain ⟨before, after, heq, hafter⟩ := h hbefore fun hnil => hwaits (hwaiting hnil)
      exact ⟨before, after, by rw [hstrand, heq]; simp, hafter⟩
  | succ n =>
      refine ⟨w.server.strand ++ List.replicate n .promote, [], ?_, rfl⟩
      rw [hstrand, List.replicate_succ', List.append_assoc]

/-- The session `c.id` is put back, whatever has become of its place in the line. -/
structure Returns (w : World) (s : ProxySession) (c : Context) : Prop where
  lock : w.lock c.id = some s
  sound : (w.put c).Sound
  serving : Serving c.server
  destroyed : c.self.destroyed = false
  capped : c.server.limiter.currentInflight ≤ c.server.limiter.maxInflight
  counted : s.requestCounted = true → c.self.requestCounted = true

variable {s : ProxySession} {c : Context}

theorem Returns.get (h : w.Returns s c) : w.sessions[c.id]? = some s := (lock_eq_some.mp h.lock).1

theorem Returns.isQueued (h : w.Returns s c) (j : Nat) :
    (w.put c).isQueued j = if c.id = j then c.self.queued else w.isQueued j := by
  rw [isQueued_put h.get, h.destroyed]
  rfl

theorem Returns.isQueued_self (h : w.Returns s c) : w.isQueued c.id = s.queued :=
  isQueued_eq h.lock

theorem Returns.counted_of_asked (h : w.Returns s c) (hlined : w.Lined) (hi : i ∈ w.asked) :
    ∃ s', (w.put c).sessions[i]? = some s' ∧ s'.requestCounted = true := by
  obtain ⟨s', hs, hc⟩ := hlined.counted i hi
  exact counted_put h.get h.counted i s' hs hc

/-- The histories after one more event. -/
theorem histories {e : QueueEvent} (hjournal : c.journal = w.journal ++ [e]) :
    (w.put c).asked = w.asked ++ e.askedId.toList ∧
      (w.put c).started = w.started ++ e.startedId.toList ∧
      (w.put c).timedOut = w.timedOut ++ e.timedOutId.toList := by
  have happend (f : QueueEvent → Option Nat) :
      (w.put c).journal.filterMap f = w.journal.filterMap f ++ (f e).toList := by
    show c.journal.filterMap f = _
    rw [hjournal, List.filterMap_append]
    cases h : f e <;> simp [h]
  exact ⟨happend _, happend _, happend _⟩

theorem Lined.stay (h : w.Lined) (hback : w.Returns s c) (hqueued : c.self.queued = s.queued)
    (hjournal : c.journal = w.journal)
    (hentries : c.server.queuedSessions = w.server.queuedSessions)
    (htasks : c.server.strand.filterMap Task.enqueuedId = w.toEnqueue)
    (hreserved : c.server.limiter.queuedRequests = w.server.limiter.queuedRequests) :
    (w.put c).Lined := by
  refine h.keep hback.sound hback.serving (fun j => ?_) hjournal hentries htasks hreserved
    hback.capped fun j s' hj hc => counted_put hback.get hback.counted j s' hj hc
  rw [hback.isQueued]
  split
  · rename_i hid
    rw [← hid, hback.isQueued_self, hqueued]
  · rfl

/-- A session is told to wait. -/
theorem Lined.join (h : w.Lined) (hback : w.Returns s c) (hqueued : c.self.queued = s.queued)
    (hnew : s.requestCounted = false) (hcounted : c.self.requestCounted = true)
    (hjournal : c.journal = w.journal ++ [.asked c.id])
    (hentries : c.server.queuedSessions = w.server.queuedSessions)
    (htasks : c.server.strand = w.server.strand ++ [.enqueue c.id])
    (hreserved : c.server.limiter.queuedRequests = w.server.limiter.queuedRequests + 1) :
    (w.put c).Lined := by
  -- who was told to wait was counted then
  have hfresh : c.id ∉ w.asked := by
    intro hmem
    obtain ⟨s', hs, hc⟩ := h.counted c.id hmem
    rw [hback.get] at hs
    rw [← Option.some.inj hs, hnew] at hc
    cases hc
  have hsame (j : Nat) : (w.put c).isQueued j = w.isQueued j := by
    rw [hback.isQueued]
    split
    · rename_i hid
      rw [← hid, hback.isQueued_self, hqueued]
    · rfl
  have htoEnqueue : (w.put c).toEnqueue = w.toEnqueue ++ [c.id] := by
    show c.server.strand.filterMap _ = _
    rw [htasks, List.filterMap_append]
    rfl
  have hwaiting : (w.put c).waiting = w.waiting ++ [c.id] := by
    show c.server.queuedSessions.filter _ ++ (w.put c).toEnqueue = _
    rw [htoEnqueue, hentries, funext hsame, ← List.append_assoc]
    rfl
  have ⟨hasked, hstarted, htimedOut⟩ : (w.put c).asked = w.asked ++ [c.id] ∧
      (w.put c).started = w.started ∧ (w.put c).timedOut = w.timedOut := by
    simpa [QueueEvent.askedId, QueueEvent.startedId, QueueEvent.timedOutId] using
      histories hjournal
  refine ⟨hback.sound, hback.serving, ?_, ?_, fun j hj => ?_, ?_, hback.capped, fun j hj => ?_⟩
  · rw [hasked, hstarted, htimedOut, hwaiting]
    exact h.line.join hfresh
  · show (c.server.queuedSessions ++ (w.put c).toEnqueue).Sublist _
    rw [htoEnqueue, hasked, hentries, ← List.append_assoc]
    exact h.entries.append (List.Sublist.refl _)
  · show j ∈ c.server.queuedSessions
    rw [hentries]
    exact h.present j (hsame j ▸ hj)
  · rw [hwaiting, List.length_append]
    show c.server.limiter.queuedRequests = _
    rw [hreserved, h.reserved]
    rfl
  · rw [hasked] at hj
    rcases List.mem_append.mp hj with hj | hj
    · exact hback.counted_of_asked h hj
    · rw [List.mem_singleton.mp hj]
      exact ⟨c.self, by rw [put_getElem? hback.get, if_pos rfl], hcounted⟩

/-- The queue timer of a session in the queue fires. -/
theorem Lined.leave (h : w.Lined) (hback : w.Returns s c) (hwas : s.queued = true)
    (hqueued : c.self.queued = false) (hjournal : c.journal = w.journal ++ [.timedOut c.id])
    (hentries : c.server.queuedSessions = w.server.queuedSessions)
    (htasks : c.server.strand.filterMap Task.enqueuedId = w.toEnqueue)
    (hreserved : c.server.limiter.queuedRequests = w.server.limiter.queuedRequests - 1) :
    (w.put c).Lined := by
  have hin : w.isQueued c.id = true := hback.isQueued_self.trans hwas
  have hmem : c.id ∈ w.waiting := h.mem_waiting hin
  -- an entry of the queue has no task on the strand any more
  have hnot : c.id ∉ w.toEnqueue := fun htask =>
    List.disjoint_of_nodup_append h.entries_nodup (h.present _ hin) htask
  have hwaiting : (w.put c).waiting = w.waiting.filter (· ≠ c.id) := by
    show c.server.queuedSessions.filter _ ++ c.server.strand.filterMap _ = _
    rw [hentries, htasks, waiting, List.filter_append, List.filter_filter]
    congr 1
    · apply List.filter_congr
      intro j _
      rw [hback.isQueued, hqueued]
      by_cases hj : c.id = j
      · simp [hj]
      · simp [hj, Ne.symm hj]
    · symm
      apply List.filter_eq_self.mpr
      intro j hj
      have hne : j ≠ c.id := fun heq => hnot (heq ▸ hj)
      exact decide_eq_true hne
  have ⟨hasked, hstarted, htimedOut⟩ : (w.put c).asked = w.asked ∧
      (w.put c).started = w.started ∧ (w.put c).timedOut = w.timedOut ++ [c.id] := by
    simpa [QueueEvent.askedId, QueueEvent.startedId, QueueEvent.timedOutId] using
      histories hjournal
  refine ⟨hback.sound, hback.serving, ?_, ?_, fun j hj => ?_, ?_, hback.capped, fun j hj => ?_⟩
  · rw [hasked, hstarted, htimedOut, hwaiting]
    exact h.line.leave hmem
  · show (c.server.queuedSessions ++ c.server.strand.filterMap _).Sublist _
    rw [hentries, htasks, hasked]
    exact h.entries
  · show j ∈ c.server.queuedSessions
    rw [hentries]
    rw [hback.isQueued] at hj
    split at hj
    · rw [hqueued] at hj
      cases hj
    · exact h.present j hj
  · have hlength := h.line.length_leave hmem
    have hcount := h.reserved
    show c.server.limiter.queuedRequests = _
    rw [hreserved, hwaiting]
    omega
  · exact hback.counted_of_asked h (hasked ▸ hj)

/-- The session's enqueue task runs. -/
theorem Lined.enter {strand : List Task} (h : w.Lined) (hback : w.Returns s c)
    (hqueued : c.self.queued = true) (hjournal : c.journal = w.journal)
    (hstrand : w.server.strand = .enqueue c.id :: strand)
    (hentries : c.server.queuedSessions = w.server.queuedSessions ++ [c.id])
    (htasks : c.server.strand = strand)
    (hreserved : c.server.limiter.queuedRequests = w.server.limiter.queuedRequests) :
    (w.put c).Lined := by
  have hfirst : w.toEnqueue = c.id :: strand.filterMap Task.enqueuedId := by
    unfold toEnqueue
    rw [hstrand]
    rfl
  -- who is on the way into the queue has no entry in it yet
  have hnot : c.id ∉ w.server.queuedSessions := fun hmem =>
    List.disjoint_of_nodup_append h.entries_nodup hmem (hfirst ▸ List.mem_cons_self)
  have hwaiting : (w.put c).waiting = w.waiting := by
    show c.server.queuedSessions.filter _ ++ c.server.strand.filterMap _ = _
    rw [hentries, htasks, waiting, hfirst, List.filter_append, List.append_assoc]
    congr 1
    · apply List.filter_congr
      intro j hj
      have hne : c.id ≠ j := fun heq => hnot (heq ▸ hj)
      rw [hback.isQueued, if_neg hne]
    · rw [List.filter_singleton, hback.isQueued, if_pos rfl, hqueued]
      rfl
  have hasked : (w.put c).asked = w.asked := congrArg (List.filterMap _) hjournal
  refine ⟨hback.sound, hback.serving, ?_, ?_, fun j hj => ?_, ?_, hback.capped, fun j hj => ?_⟩
  · rw [hwaiting]
    unfold asked started timedOut
    rw [show (w.put c).journal = w.journal from hjournal]
    exact h.line
  · show (c.server.queuedSessions ++ c.server.strand.filterMap _).Sublist _
    rw [hentries, htasks, hasked, List.append_assoc]
    have hentries' := h.entries
    rw [hfirst] at hentries'
    exact hentries'
  · show j ∈ c.server.queuedSessions
    rw [hentries]
    rw [hback.isQueued] at hj
    split at hj
    · rename_i hid
      exact hid ▸ List.mem_append_right _ (List.mem_singleton.mpr rfl)
    · exact List.mem_append_left _ (h.present j hj)
  · show c.server.limiter.queuedRequests = _
    rw [hreserved, hwaiting]
    exact h.reserved
  · exact hback.counted_of_asked h (hasked ▸ hj)

/-- The first in the queue is started. -/
theorem Lined.serve {queue : List Nat} (h : w.Lined) (hback : w.Returns s c)
    (hwas : s.queued = true) (hqueued : c.self.queued = false)
    (hjournal : c.journal = w.journal ++ [.started c.id])
    (hqueue : w.server.queuedSessions = c.id :: queue)
    (hentries : c.server.queuedSessions = queue)
    (htasks : c.server.strand.filterMap Task.enqueuedId = w.toEnqueue)
    (hreserved : c.server.limiter.queuedRequests = w.server.limiter.queuedRequests - 1) :
    (w.put c).Lined := by
  have hin : w.isQueued c.id = true := hback.isQueued_self.trans hwas
  have hnodup := h.entries_nodup
  rw [hqueue] at hnodup
  -- it has no second entry behind the first
  have hnot : c.id ∉ queue := fun hmem =>
    (List.nodup_cons.mp hnodup).1 (List.mem_append_left _ hmem)
  have hfirst : w.waiting = c.id :: (w.put c).waiting := by
    show _ = c.id :: (c.server.queuedSessions.filter _ ++ c.server.strand.filterMap _)
    rw [waiting, hqueue, hentries, htasks, List.filter_cons, if_pos hin, List.cons_append]
    congr 2
    apply List.filter_congr
    intro j hj
    have hne : c.id ≠ j := fun heq => hnot (heq ▸ hj)
    rw [hback.isQueued, if_neg hne]
  have ⟨hasked, hstarted, htimedOut⟩ : (w.put c).asked = w.asked ∧
      (w.put c).started = w.started ++ [c.id] ∧ (w.put c).timedOut = w.timedOut := by
    simpa [QueueEvent.askedId, QueueEvent.startedId, QueueEvent.timedOutId] using
      histories hjournal
  have hline := h.line
  have hentries' := h.entries
  have hcount := h.reserved
  rw [hfirst] at hline hcount
  rw [hqueue] at hentries'
  refine ⟨hback.sound, hback.serving, ?_, ?_, fun j hj => ?_, ?_, hback.capped, fun j hj => ?_⟩
  · rw [hasked, hstarted, htimedOut]
    exact hline.serve
  · show (c.server.queuedSessions ++ c.server.strand.filterMap _).Sublist _
    rw [hentries, htasks, hasked]
    exact (List.sublist_cons_self _ _).trans hentries'
  · show j ∈ c.server.queuedSessions
    rw [hentries]
    rw [hback.isQueued] at hj
    split at hj
    · rw [hqueued] at hj
      cases hj
    · rename_i hne
      have hmem := h.present j hj
      rw [hqueue] at hmem
      exact (List.mem_cons.mp hmem).resolve_left (Ne.symm hne)
  · show c.server.limiter.queuedRequests = _
    rw [hreserved, hcount]
    rfl
  · exact hback.counted_of_asked h (hasked ▸ hj)

/-- An entry of a session that waits no longer leaves the queue. -/
theorem Lined.drop {queue : List Nat} (h : (w.setQueue (i :: queue)).Lined)
    (hqueued : w.isQueued i = false) : (w.setQueue queue).Lined := by
  have hwaiting : (w.setQueue queue).waiting = (w.setQueue (i :: queue)).waiting := by
    show queue.filter w.isQueued ++ _ = (i :: queue).filter w.isQueued ++ _
    rw [List.filter_cons, if_neg (Bool.eq_false_iff.mp hqueued)]
    rfl
  refine ⟨h.sound.quiet (.books _ (setQueue_sameBooks _ queue)),
    ⟨h.serving.1, h.serving.2, h.serving.3, h.serving.4, h.serving.5⟩, ?_, ?_, fun j hj => ?_, ?_,
    h.capped, h.counted⟩
  · rw [hwaiting]
    exact h.line
  · exact (List.sublist_cons_self _ _).trans h.entries
  · have hmem : j ∈ i :: queue := h.present j hj
    refine (List.mem_cons.mp hmem).resolve_left fun heq => ?_
    rw [heq, show (w.setQueue queue).isQueued i = w.isQueued i from rfl, hqueued] at hj
    cases hj
  · rw [hwaiting]
    exact h.reserved

theorem setQueue_self {queue : List Nat} (h : w.server.queuedSessions = queue) :
    w.setQueue queue = w := by
  subst h
  rfl

/-- What a promotion leaves behind: it stops early only when all slots are taken. -/
structure Promoted (w w' : World) : Prop where
  lined : w'.Lined
  strand : w'.server.strand = w.server.strand
  currentInflight : w.server.limiter.currentInflight ≤ w'.server.limiter.currentInflight
  maxInflight : w'.server.limiter.maxInflight = w.server.limiter.maxInflight
  waiting : w.waiting = [] → w'.waiting = []
  exhausted : w'.server.limiter.currentInflight < w'.server.limiter.maxInflight →
    w'.server.queuedSessions = []

theorem Promoted.after {v : World} (h : v.Promoted w') (hstrand : v.server.strand = w.server.strand)
    (hcurrent : w.server.limiter.currentInflight ≤ v.server.limiter.currentInflight)
    (hmax : v.server.limiter.maxInflight = w.server.limiter.maxInflight)
    (hwaiting : w.waiting = [] → v.waiting = []) : w.Promoted w' :=
  ⟨h.lined, h.strand.trans hstrand, hcurrent.trans h.currentInflight, h.maxInflight.trans hmax,
    fun hnil => h.waiting (hwaiting hnil), h.exhausted⟩

/-- One round of the loop that starts the first session of the queue. -/
theorem Lined.promote {queue : List Nat} (h : (w.setQueue (i :: queue)).Lined)
    (hlock : w.lock i = some s) (hqueued : s.queued = true)
    (hwaiting : 0 < w.server.limiter.queuedRequests)
    (hslot : w.server.limiter.currentInflight < w.server.limiter.maxInflight) :
    ∃ c,
      (((w.setQueue queue).takePromoted.context i s).tryStartFromQueue (Permit.owning ())).2 = c ∧
      c.server = (w.setQueue queue).takePromoted.server ∧ (w.put c).Lined := by
  obtain ⟨hget, hs⟩ := lock_eq_some.mp hlock
  have halive : w.server.alive = true := h.serving.alive
  have hclosed : w.server.limiter.closed = false := h.serving.closed
  obtain ⟨idle, -, -, -⟩ := (h.sound.phase i s hget).waiting_of_queued hqueued
  have hpopped : (w.setQueue queue).Sound := h.sound.quiet (.books _ (setQueue_sameBooks _ queue))
  have hsound := hpopped.quiet (.promoted i s halive hlock hqueued hclosed hwaiting hslot)
  have heq := tryStartFromQueue_of_queued (c := (w.setQueue queue).takePromoted.context i s)
    (Permit.owning ()) hqueued idle.finished
  rw [startProxyRequest_eq _ halive idle.permit] at heq
  rw [heq] at hsound ⊢
  refine ⟨_, rfl, rfl, ?_⟩
  refine h.serve (w := w.setQueue (i :: queue)) (s := s) ?_ hqueued rfl rfl rfl rfl rfl rfl
  exact ⟨hlock, hsound, ⟨halive, h.serving.2, h.serving.3, hclosed, h.serving.5⟩, hs, hslot,
    fun hc => hc⟩

theorem promoteLoop_promoted (queue : List Nat) (h : (w.setQueue queue).Lined) :
    (w.setQueue queue).Promoted (w.promoteLoop queue) := by
  induction queue generalizing w with
  | nil => exact ⟨h, rfl, Nat.le_refl _, rfl, fun hnil => hnil, fun _ => rfl⟩
  | cons i queue ih =>
      have hskip (hqueued : w.isQueued i = false) :
          (w.setQueue (i :: queue)).Promoted ((w.setQueue queue).promoteLoop queue) := by
        have hdropped : (w.setQueue queue).Lined := h.drop hqueued
        exact (ih (w := w.setQueue queue) hdropped).after rfl (Nat.le_refl _) rfl
          (h.waiting_nil hdropped (Nat.le_refl _))
      rw [promoteLoop]
      cases hlock : w.lock i with
      | none => exact hskip (by unfold isQueued; rw [hlock]; rfl)
      | some s =>
          dsimp only
          cases hqueued : s.queued with
          | false => exact hskip ((isQueued_eq hlock).trans hqueued)
          | true =>
              have hin : w.isQueued i = true := (isQueued_eq hlock).trans hqueued
              have hwaits : 0 < w.server.limiter.queuedRequests := by
                have hreserved : w.server.limiter.queuedRequests = _ := h.reserved
                rw [hreserved]
                exact List.length_pos_of_mem (h.mem_waiting hin)
              have hclosed : w.server.limiter.closed = false := h.serving.closed
              rw [Bool.not_true, if_neg Bool.false_ne_true]
              rcases w.server.limiter.tryPromoteQueued_cases () with
                ⟨hrefused, heq⟩ | ⟨-, -, hslot, heq⟩
              · -- the reservation of `i` is there, so it is refused for want of a slot
                have hfull : w.server.limiter.maxInflight ≤ w.server.limiter.currentInflight := by
                  rcases hrefused with hc | hzero | hfull
                  · rw [hclosed] at hc
                    cases hc
                  · omega
                  · exact hfull
                rw [heq]
                have hsnapshot : w.server.limiter.snapshot.queuedRequests ≠ 0 := Nat.ne_of_gt hwaits
                simp only [Permit.valid_empty, Bool.not_false, if_true, if_neg hsnapshot]
                exact ⟨h, rfl, Nat.le_refl _, rfl, fun hnil => hnil,
                  fun hfree => absurd hfull (Nat.not_le.mpr hfree)⟩
              · obtain ⟨c, hc, hserver, hlined⟩ := h.promote hlock hqueued hwaits hslot
                have hpopped : (w.put c).setQueue queue = w.put c := by
                  apply setQueue_self
                  show c.server.queuedSessions = queue
                  rw [hserver]
                  rfl
                have hnext := ih (w := w.put c) (by rw [hpopped]; exact hlined)
                rw [hpopped] at hnext
                rw [heq]
                simp only [Permit.valid_owning, Bool.not_true, Bool.false_eq_true, if_false]
                show (w.setQueue (i :: queue)).Promoted ((w.put
                  (((w.setQueue queue).takePromoted.context i s).tryStartFromQueue
                    (Permit.owning ())).2).promoteLoop queue)
                rw [hc]
                refine hnext.after ?_ ?_ ?_ fun hnil => ?_
                · show c.server.strand = _
                  rw [hserver]
                  rfl
                · show w.server.limiter.currentInflight ≤ c.server.limiter.currentInflight
                  rw [hserver]
                  exact Nat.le_succ _
                · show c.server.limiter.maxInflight = _
                  rw [hserver]
                  rfl
                · exact absurd hnil (List.ne_nil_of_mem (h.mem_waiting hin))

theorem Serving.of_frame {server' : ProxyServer} (h : Serving server)
    (hframe : server.Frame server') (hstrand : .stop ∉ server'.strand) : Serving server' :=
  ⟨hframe.alive.trans h.alive, hframe.accepting.trans h.accepting,
    hframe.stopping.trans h.stopping, hframe.closed.trans h.closed, hstrand⟩

/-- The line is in order, and the next promotion is never too early. -/
structure Ordered (w : World) : Prop where
  lined : w.Lined
  prompt : w.Prompt

theorem Ordered.of_wakes (h : w.Ordered) (hlined : w'.Lined) (hwakes : w.server.Wakes w'.server)
    (hmax : w'.server.limiter.maxInflight = w.server.limiter.maxInflight)
    (hle : w'.server.limiter.queuedRequests ≤ w.server.limiter.queuedRequests) : w'.Ordered :=
  ⟨hlined, h.prompt.wakes hwakes hmax (h.lined.waiting_nil hlined hle)⟩

theorem Ordered.of_same (h : w.Ordered) (hlined : w'.Lined)
    (hstrand : w'.server.strand = w.server.strand)
    (hlimiter : w'.server.limiter = w.server.limiter) : w'.Ordered :=
  h.of_wakes hlined (.of_strand hstrand (by rw [hlimiter])) (by rw [hlimiter]) (by rw [hlimiter])

theorem Ordered.complete {op : Op} {r : Outcome} (h : w.Ordered) (hlock : w.lock i = some s)
    (hmem : op ∈ s.pending) (hdeliverable : deliverable s op r = true) :
    (w.put ((w.context i (deliver s op r)).handle op r)).Ordered := by
  have hlined := h.lined
  obtain ⟨hget, hs⟩ := lock_eq_some.mp hlock
  have hphase : s.Phase (w.server.posted i) := hlined.sound.phase i s hget
  have hhandled := handle_handled op r (w.context i (deliver s op r))
  have hframe := hhandled.frame
  have hsound := hlined.sound.complete hlock hmem hdeliverable
  have hread : op = .readRequest → (w.context i (deliver s op r)).self.permit = none := by
    intro hop
    show (deliver s op r).permit = none
    rw [deliver_permit]
    exact (hphase.of_opening hmem (by rw [hop]; rfl)).1.permit
  have hcapped := (hhandled.balanced hread).capped hlined.capped
  have hqueueing := hhandled.queueing hread hlined.sound.onRelease
  generalize (w.context i (deliver s op r)).handle op r = c at *
  obtain rfl : c.id = i := hframe.id
  have hback (hstop : .stop ∉ c.server.strand)
      (hcounted : s.requestCounted = true → c.self.requestCounted = true) : w.Returns s c :=
    ⟨hlock, hsound, hlined.serving.of_frame hframe.server hstop,
      hframe.destroyed.trans ((deliver_destroyed s op r).trans hs), hcapped, hcounted⟩
  -- whatever the handler does to the queue, the bound stays
  have hmax : c.server.limiter.maxInflight = w.server.limiter.maxInflight :=
    hframe.server.maxInflight
  cases hqueueing with
  | kept hkeeps =>
      have hreturns := hback (hkeeps.wakes.stop hlined.serving.strand) fun hc =>
        hkeeps.counted ((deliver_requestCounted s op r).trans hc)
      have hlined' := hlined.stay hreturns (hkeeps.queued.trans (deliver_queued s op r))
        hkeeps.journal hframe.server.queuedSessions hkeeps.wakes.toEnqueue hkeeps.queuedRequests
      exact h.of_wakes hlined' hkeeps.wakes hmax (Nat.le_of_eq hkeeps.queuedRequests)
  | asked hop hasks =>
      have hstop : .stop ∉ c.server.strand := by
        rw [hasks.strand, List.mem_append]
        rintro (hmem | hmem)
        · exact hlined.serving.strand hmem
        · cases List.mem_singleton.mp hmem
      have hnew : s.requestCounted = false := (hphase.of_opening hmem (by rw [hop]; rfl)).2.1
      refine ⟨hlined.join (hback hstop fun _ => hasks.counted)
        (hasks.queued.trans (deliver_queued s op r)) hnew hasks.counted ?_
        hframe.server.queuedSessions ?_ hasks.queuedRequests, fun hslot => ?_⟩
      · exact hasks.journal.trans (by rw [hframe.id]; rfl)
      · exact hasks.strand.trans (by rw [hframe.id]; rfl)
      · exact absurd hasks.full (Nat.not_le.mpr hslot)
  | timedOut hqueued hkeeps =>
      rw [timeOut_eq hlined.serving.alive] at hkeeps
      have hreturns := hback (hkeeps.wakes.stop hlined.serving.strand) fun hc =>
        hkeeps.counted ((deliver_requestCounted s op r).trans hc)
      have hlined' := hlined.leave hreturns ((deliver_queued s op r).symm.trans hqueued)
        hkeeps.queued hkeeps.journal hframe.server.queuedSessions hkeeps.wakes.toEnqueue
        hkeeps.queuedRequests
      exact h.of_wakes hlined' hkeeps.wakes hmax (hkeeps.queuedRequests.trans_le (Nat.sub_le _ 1))

theorem Ordered.enqueue {strand : List Task} (h : w.Ordered)
    (hstrand : w.server.strand = .enqueue i :: strand) :
    ((w.setStrand strand).enqueued i).Ordered := by
  have hlined := h.lined
  have halive : w.server.alive = true := hlined.serving.alive
  obtain ⟨s, hlock⟩ := hlined.sound.lock_of_head hstrand
  have hsound := hlined.sound.quiet (.enqueued i s strand hstrand hlock)
  have heq : (w.setStrand strand).enqueued i =
      w.put ((w.takeEnqueue i strand).context i s).startQueueTimer := by
    have hstopping : ¬ (w.setStrand strand).server.stopping = true :=
      Bool.eq_false_iff.mp hlined.serving.stopping
    unfold enqueued
    rw [if_neg hstopping]
    exact onSession_of_lock (w := w.takeEnqueue i strand) hlock _
  have hstop : .stop ∉ strand := fun hmem =>
    hlined.serving.strand (hstrand ▸ List.mem_cons_of_mem _ hmem)
  rw [heq]
  rw [startQueueTimer_eq halive] at hsound ⊢
  have hlined' := hlined.enter (s := s)
    ⟨hlock, hsound, ⟨halive, hlined.serving.2, hlined.serving.3, hlined.serving.4, hstop⟩,
      (lock_eq_some.mp hlock).2, hlined.capped, fun hc => hc⟩ rfl rfl hstrand rfl rfl rfl
  refine ⟨hlined', fun hslot hwaits => ?_⟩
  obtain ⟨before, after, hsplit, hafter⟩ :=
    h.prompt hslot fun hnil => hwaits (hlined.waiting_nil hlined' (Nat.le_refl _) hnil)
  -- the promotion is posted behind the task that has just run
  rw [hstrand] at hsplit
  cases before with
  | nil => cases (List.cons.inj hsplit).1
  | cons task before => exact ⟨before, after, (List.cons.inj hsplit).2, hafter⟩

theorem Ordered.promote {strand : List Task} (h : w.Ordered)
    (hstrand : w.server.strand = .promote :: strand) :
    ((w.setStrand strand).promoteQueuedSessions).Ordered := by
  have hlined := h.lined
  have hstop : .stop ∉ strand := fun hmem =>
    hlined.serving.strand (hstrand ▸ List.mem_cons_of_mem _ hmem)
  have htasks : (w.setStrand strand).toEnqueue = w.toEnqueue := by
    unfold toEnqueue
    rw [hstrand]
    rfl
  have hpopped : (w.setStrand strand).Lined := by
    refine hlined.keep (hlined.sound.quiet (.books _ (setStrand_sameBooks hstrand ?_)))
      ⟨hlined.serving.1, hlined.serving.2, hlined.serving.3, hlined.serving.4, hstop⟩
      (fun _ => rfl) rfl rfl htasks rfl hlined.capped fun j s hj hc => ⟨s, hj, hc⟩
    exact fun _ heq => nomatch heq
  have hpromoted : (w.setStrand strand).Promoted (w.setStrand strand).promoteQueuedSessions :=
    promoteLoop_promoted (w := w.setStrand strand) w.server.queuedSessions hpopped
  generalize (w.setStrand strand).promoteQueuedSessions = w' at *
  refine ⟨hpromoted.lined, fun hslot hwaits => ?_⟩
  have hstrand' : w'.server.strand = strand := hpromoted.strand
  have hbefore : w.server.limiter.currentInflight < w.server.limiter.maxInflight := by
    have hle : w.server.limiter.currentInflight ≤ _ := hpromoted.currentInflight
    have hmax : _ = w.server.limiter.maxInflight := hpromoted.maxInflight
    omega
  have hwaited : w.waiting ≠ [] := fun hnil =>
    hwaits (hpromoted.waiting (hlined.waiting_nil hpopped (Nat.le_refl _) hnil))
  obtain ⟨before, after, hsplit, hafter⟩ := h.prompt hbefore hwaited
  rw [hstrand] at hsplit
  cases before with
  | nil =>
      -- the queue is exhausted and nobody is on the way into it
      have hrest : strand = after := (List.cons.inj hsplit).2
      have hnil : w'.waiting = [] := by
        unfold waiting toEnqueue
        rw [hpromoted.exhausted hslot, hstrand', hrest, hafter]
        rfl
      exact absurd hnil hwaits
  | cons task before =>
      exact ⟨before, after, by rw [hstrand', (List.cons.inj hsplit).2]; rfl, hafter⟩

theorem isQueued_arrived (session : ProxySession) (hsession : session.queued = false)
    (server : ProxyServer) (j : Nat) :
    ({ w with server, sessions := w.sessions ++ [session] } : World).isQueued j = w.isQueued j := by
  unfold isQueued lock
  by_cases hlt : j < w.sessions.length
  · rw [List.getElem?_append_left hlt]
  · rw [List.getElem?_append_right (by omega), List.getElem?_singleton,
      List.getElem?_eq_none (by omega)]
    split
    · rw [Option.filter_some]
      split <;> simp [hsession]
    · rfl

theorem Ordered.step {e : Event} (h : w.Ordered) (he : e ≠ .stop) (hstep : step w e = some w') :
    w'.Ordered := by
  have hlined := h.lined
  have hsound : w'.Sound := hlined.sound.step hstep
  cases e with
  | stop => exact absurd rfl he
  -- who arrives is in no line yet
  | accept =>
      simp only [World.step, hlined.serving.accepting, if_true] at hstep
      unfold accepted at hstep
      split at hstep
      · cases hstep
      · rename_i sseParser _
        obtain rfl := Option.some.inj hstep
        refine h.of_same (hlined.keep hsound ?_ (isQueued_arrived _ rfl _) rfl rfl rfl rfl
          hlined.capped fun j s hj hc => ⟨s, ?_, hc⟩) rfl rfl
        · refine ⟨hlined.serving.1, ?_, hlined.serving.3, hlined.serving.4, hlined.serving.5⟩
          show (!w.server.stopping) = true
          rw [hlined.serving.stopping]
          rfl
        · have hlt : j < w.sessions.length := (List.getElem?_eq_some_iff.mp hj).1
          exact (List.getElem?_append_left hlt).trans hj
  | acceptFailed =>
      simp only [World.step, hlined.serving.accepting, if_true] at hstep
      obtain rfl := Option.some.inj hstep
      refine h.of_same (hlined.keep hsound ?_ (fun _ => rfl) rfl rfl rfl rfl hlined.capped
        fun j s hj hc => ⟨s, hj, hc⟩) rfl rfl
      refine ⟨hlined.serving.1, ?_, hlined.serving.3, hlined.serving.4, hlined.serving.5⟩
      show (!w.server.stopping) = true
      rw [hlined.serving.stopping]
      rfl
  | complete i op r =>
      obtain ⟨s, hlock, hmem, hdeliverable, rfl⟩ := complete_eq_some hstep
      exact h.complete hlock hmem hdeliverable
  | runTask =>
      simp only [World.step] at hstep
      split at hstep
      · cases hstep
      · rename_i task strand hstrand
        obtain rfl := Option.some.inj hstep
        cases task with
        | enqueue i => exact h.enqueue hstrand
        | promote => exact h.promote hstrand
        | stop => exact absurd (hstrand ▸ List.mem_cons_self) hlined.serving.strand
  -- a session with nothing pending is not queued, so nobody leaves the line
  | destroySession i =>
      simp only [World.step, Option.bind_eq_bind, Option.bind_eq_some_iff,
        Option.guard_eq_some'] at hstep
      obtain ⟨s, hlock, -, ⟨hpending, -⟩, hput⟩ := hstep
      obtain rfl := Option.some.inj hput
      obtain ⟨hget, -⟩ := lock_eq_some.mp hlock
      obtain ⟨-, hqueued⟩ := (hlined.sound.phase i s hget).of_pending_nil hpending
      rw [hlined.sound.destruct_eq hlock hpending] at hsound ⊢
      refine h.of_same (hlined.keep hsound ⟨hlined.serving.1, hlined.serving.2, hlined.serving.3,
        hlined.serving.4, hlined.serving.5⟩ (fun j => ?_) rfl rfl rfl rfl hlined.capped
        fun j s' hj hc => ?_) rfl rfl
      rotate_left
      · exact counted_put (c := (w.context i s).setSelf { s with destroyed := true }) hget
          (fun hc => hc) j s' hj hc
      rw [isQueued_put (c := (w.context i s).setSelf _) hget]
      split
      · rename_i hid
        obtain rfl : i = j := hid
        exact ((isQueued_eq hlock).trans hqueued).symm
      · rfl
  -- the server is not destroyed while it accepts
  | destroyServer =>
      simp [World.step, hlined.serving.accepting] at hstep
  | tick n =>
      obtain rfl := Option.some.inj hstep
      exact h.of_same (hlined.keep hsound hlined.serving (fun _ => rfl) rfl rfl rfl rfl
        hlined.capped fun j s hj hc => ⟨s, hj, hc⟩) rfl rfl

theorem Ordered.init (hcreate : ProxyServer.create config = .ok server) :
    (World.init server).Ordered := by
  have hstarted := create_started hcreate
  have hnone (j : Nat) : (World.init server).isQueued j = false := rfl
  have htasks : (World.init server).toEnqueue = [] := by
    show server.strand.filterMap _ = []
    rw [hstarted.strand]
    rfl
  have hwaiting : (World.init server).waiting = [] := by
    unfold waiting
    rw [htasks]
    show server.queuedSessions.filter _ ++ [] = []
    rw [hstarted.queuedSessions]
    rfl
  refine ⟨⟨Sound.init hcreate, ?_, ?_, ?_, fun j hj => ?_, ?_, ?_, fun j hj => (nomatch hj)⟩,
    fun _ hwaits => absurd hwaiting hwaits⟩
  · exact ⟨hstarted.alive, hstarted.accepting, hstarted.stopping, hstarted.closed,
      by rw [World.init, hstarted.strand]; exact List.not_mem_nil⟩
  · rw [hwaiting]
    exact ⟨List.nodup_nil, List.nil_subset _, rfl⟩
  · rw [htasks]
    show (server.queuedSessions ++ []).Sublist []
    rw [hstarted.queuedSessions]
    exact List.Sublist.refl _
  · rw [hnone] at hj
    cases hj
  · rw [hwaiting]
    exact hstarted.queuedRequests
  · show server.limiter.currentInflight ≤ _
    rw [hstarted.currentInflight]
    exact Nat.zero_le _

theorem ordered_of_run {events : List Event} (hcreate : ProxyServer.create config = .ok server)
    (hrun : run step (World.init server) events = some w) (hstop : .stop ∉ events) :
    w.Ordered := by
  have hmeets : Meets step (fun _ e => e ≠ .stop) (World.init server) events :=
    meets_of_forall fun _ e hmem heq => hstop (heq ▸ hmem)
  exact meets_induct hrun hmeets (Ordered.init hcreate) fun _ _ _ h he hstep => h.step he hstep

/-- Until `stop` is called, the queue keeps its discipline in every reachable state. -/
theorem queueDiscipline {events : List Event} (hcreate : ProxyServer.create config = .ok server)
    (hrun : run step (World.init server) events = some w) (hstop : .stop ∉ events) :
    w.QueueDiscipline := by
  have hordered := ordered_of_run hcreate hrun hstop
  exact hordered.lined.discipline hordered.prompt

/-- Two requests wait for the slot; the first one times out before it is free. -/
def secondStarts : List Event :=
  [.accept, .complete 0 .readRequest { request := chatRequest },
    .accept, .complete 1 .readRequest { request := chatRequest },
    .accept, .complete 2 .readRequest { request := chatRequest }, .runTask, .runTask,
    .complete 1 (.queueTimer false) {}, .complete 0 (.requestTimer false) {}, .runTask]

theorem queueDiscipline_secondStarts :
    ∃ w, run step (World.init oneSlotServer) secondStarts = some w ∧ w.asked = [1, 2] ∧
      w.timedOut = [1] ∧ w.started = [2] ∧ w.QueueDiscipline :=
  ⟨(run step (World.init oneSlotServer) secondStarts).get (by decide),
    (Option.some_get (by decide)).symm, by decide, by decide, by decide,
    queueDiscipline oneSlotServer_create (Option.some_get (by decide)).symm (by decide)⟩

/-- Who may get a slot.  A free slot goes to whoever asks first, also while others wait for the
promotion that has been posted for it. -/
structure SlotOrder (w : World) : Prop where
  admits_iff : (w.server.limiter.tryAcquireOrQueue ()).1.decision = .admitted ↔
    w.server.limiter.currentInflight < w.server.limiter.maxInflight
  window : (w.server.limiter.tryAcquireOrQueue ()).1.decision = .admitted →
    w.server.limiter.queuedRequests ≠ 0 →
    ∃ before after, w.server.strand = before ++ .promote :: after ∧
      after.filterMap Task.enqueuedId = []
  inOrder : w.started <+: w.asked.filter (· ∉ w.timedOut)

theorem Lined.admits_iff (h : w.Lined) :
    (w.server.limiter.tryAcquireOrQueue ()).1.decision = .admitted ↔
      w.server.limiter.currentInflight < w.server.limiter.maxInflight := by
  rcases w.server.limiter.tryAcquireOrQueue_cases () with
    ⟨hclosed, -⟩ | ⟨-, hslot, heq⟩ | ⟨-, hfull, -, heq⟩ | ⟨-, hfull, -, heq⟩
  · rw [h.serving.closed] at hclosed
    cases hclosed
  · rw [heq]
    exact ⟨fun _ => hslot, fun _ => rfl⟩
  · rw [heq]
    exact ⟨fun hadmitted => (nomatch hadmitted), fun hslot => absurd hslot (Nat.not_lt.mpr hfull)⟩
  · rw [heq]
    exact ⟨fun hadmitted => (nomatch hadmitted), fun hslot => absurd hslot (Nat.not_lt.mpr hfull)⟩

/-- Until `stop` is called, a request overtakes the queue only in the window between a release and
the promotion that it has posted, and those who wait start in order. -/
theorem slotOrder {events : List Event} (hcreate : ProxyServer.create config = .ok server)
    (hrun : run step (World.init server) events = some w) (hstop : .stop ∉ events) :
    w.SlotOrder := by
  have hordered := ordered_of_run hcreate hrun hstop
  have hlined := hordered.lined
  refine ⟨hlined.admits_iff, fun hadmitted hreserved => ?_, hlined.line.served_initial⟩
  have hwaits : w.waiting ≠ [] := by
    rw [hlined.reserved] at hreserved
    exact fun hnil => hreserved (by rw [hnil]; rfl)
  exact hordered.prompt (hlined.admits_iff.mp hadmitted) hwaits

/-- One request runs, one waits, and the slot comes back. -/
def slotBack : List Event :=
  [.accept, .complete 0 .readRequest { request := chatRequest },
    .accept, .complete 1 .readRequest { request := chatRequest }, .runTask,
    .complete 0 (.requestTimer false) {}]

theorem slotOrder_slotBack :
    ∃ w, run step (World.init oneSlotServer) slotBack = some w ∧ w.SlotOrder :=
  ⟨(run step (World.init oneSlotServer) slotBack).get (by decide),
    (Option.some_get (by decide)).symm,
    slotOrder oneSlotServer_create (Option.some_get (by decide)).symm (by decide)⟩

/-- Before the promotion runs, whoever asks gets the slot that the waiting request was to have. -/
theorem slotBack_admits : ¬ ∀ (config : ProxyConfig) (server : ProxyServer) (events : List Event)
    (w : World), ProxyServer.create config = .ok server →
    run step (World.init server) events = some w → .stop ∉ events →
    (w.server.limiter.tryAcquireOrQueue ()).1.decision = .admitted →
    w.server.limiter.queuedRequests = 0 := by
  intro h
  have hzero := h oneSlotConfig oneSlotServer slotBack
    ((run step (World.init oneSlotServer) slotBack).get (by decide)) oneSlotServer_create
    (Option.some_get (by decide)).symm (by decide) (by decide)
  exact absurd hzero (by decide)

end World

end VllmSloProxy
