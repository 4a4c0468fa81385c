import VllmSloProxy.Lib.Run
import VllmSloProxy.PercentileRank
import VllmSloProxy.ProxyMetrics

/-!
# The metrics under several threads

Each section of `proxy_metrics.cpp` under a mutex is one step.  `record_ttft` has two, the counters
under `mutex_` and then the window under its own mutex; `snapshot` holds `mutex_` and reads the
counters, and then the window.  A snapshot should be the state after some whole calls in sequence.
-/

namespace VllmSloProxy

open Transition SlidingWindow Rank

/-- A call of `record_ttft` that does not throw. -/
structure TtftCall where
  requestStart : Nat
  firstDataEvent : Nat
  start_le : requestStart ≤ firstDataEvent
  deriving DecidableEq

def TtftCall.ttftMs (call : TtftCall) : ℚ :=
  (call.firstDataEvent - call.requestStart : Nat) / 1000000

inductive RecordCall where
  | started
  | completed
  | failed
  | ttft (call : TtftCall)
  deriving DecidableEq

def RecordCall.ttft? : RecordCall → Option TtftCall
  | .ttft call => some call
  | _ => none

namespace ProxyMetrics

/-- The section of `record_ttft` under `mutex_`. -/
def countTtft (ttftMs : ℚ) (m : ProxyMetrics) : ProxyMetrics :=
  { m with firstTokenEvents := m.firstTokenEvents + 1, lastTtftMs := some ttftMs }

/-- The section of `record_ttft` in `add_sample`. -/
def addTtft (ttftMs : ℚ) (m : ProxyMetrics) : ProxyMetrics :=
  { m with ttftWindow := m.ttftWindow.add (some ttftMs) }

/-- What `snapshot` reads before the window. -/
def counters (m : ProxyMetrics) : ProxyMetricsSnapshot where
  totalRequests := m.totalRequests
  completedRequests := m.completedRequests
  failedRequests := m.failedRequests
  firstTokenEvents := m.firstTokenEvents
  lastTtftMs := m.lastTtftMs

theorem snapshot_eq (m : ProxyMetrics) :
    m.snapshot = { m.counters with p95TtftMs := m.ttftWindow.p95 } := rfl

/-- The two sections one after the other are the whole call. -/
theorem recordTtft_eq (call : TtftCall) (m : ProxyMetrics) :
    m.recordTtft call.requestStart call.firstDataEvent =
      .ok ((m.countTtft call.ttftMs).addTtft call.ttftMs) := by
  unfold recordTtft
  rw [if_neg (Nat.not_lt.mpr call.start_le)]
  rfl

/-- A whole call. -/
def record (m : ProxyMetrics) : RecordCall → ProxyMetrics
  | .started => m.recordRequestStarted
  | .completed => m.recordRequestCompleted
  | .failed => m.recordRequestFailed
  | .ttft call =>
      match m.recordTtft call.requestStart call.firstDataEvent with
      | .ok m => m
      | .error _ => m

theorem record_ttft (m : ProxyMetrics) (call : TtftCall) :
    m.record (.ttft call) = (m.countTtft call.ttftMs).addTtft call.ttftMs := by
  show (match m.recordTtft call.requestStart call.firstDataEvent with
    | .ok m => m
    | .error _ => m) = _
  rw [recordTtft_eq]

def recordAll (m : ProxyMetrics) (calls : List RecordCall) : ProxyMetrics := calls.foldl record m

end ProxyMetrics

structure MetricsThreads where
  metrics : ProxyMetrics
  -- the threads that are between the two sections of `record_ttft`
  halfway : List (Nat × TtftCall) := []
  -- the thread that holds `mutex_` in `snapshot`, with what it has read
  reader : Option (Nat × ProxyMetricsSnapshot) := none
  -- history: the calls that have passed `mutex_`, the samples added, and the snapshots returned,
  -- each
  -- with the calls that had passed `mutex_` when it was read
  calls : List RecordCall := []
  added : List TtftCall := []
  snapshots : List (List RecordCall × ProxyMetricsSnapshot) := []

inductive MetricsEvent where
  | requestStarted (thread : Nat)
  | requestCompleted (thread : Nat)
  | requestFailed (thread : Nat)
  -- `record_ttft`, up to the end of its section under `mutex_`
  | recordTtft (thread requestStart firstDataEvent : Nat)
  | addSample (thread : Nat)
  -- `snapshot`, up to the read of the window
  | snapshot (thread : Nat)
  | readWindow (thread : Nat)
  deriving DecidableEq, Repr

namespace MetricsThreads

/-- The thread is in the middle of a call. -/
def busy (w : MetricsThreads) (thread : Nat) : Bool :=
  w.halfway.any (fun entry => entry.1 = thread) || w.reader.any (fun entry => entry.1 = thread)

/-- A section under `mutex_` that only counts. -/
def count (w : MetricsThreads) (thread : Nat) (call : RecordCall) : Option MetricsThreads :=
  if w.busy thread || w.reader.isSome then none
  else some { w with metrics := w.metrics.record call, calls := w.calls ++ [call] }

def step (w : MetricsThreads) : MetricsEvent → Option MetricsThreads
  | .requestStarted thread => w.count thread .started
  | .requestCompleted thread => w.count thread .completed
  | .requestFailed thread => w.count thread .failed
  | .recordTtft thread requestStart firstDataEvent =>
      if w.busy thread then none
      else if h : requestStart ≤ firstDataEvent then
        if w.reader.isSome then none
        else
          let call : TtftCall := ⟨requestStart, firstDataEvent, h⟩
          some { w with
            metrics := w.metrics.countTtft call.ttftMs
            halfway := w.halfway ++ [(thread, call)]
            calls := w.calls ++ [.ttft call] }
      else
        -- it throws before it takes the mutex
        some w
  | .addSample thread =>
      match w.halfway.find? (fun entry => entry.1 = thread) with
      | none => none
      | some entry => some { w with
          metrics := w.metrics.addTtft entry.2.ttftMs
          halfway := w.halfway.erase entry
          added := w.added ++ [entry.2] }
  | .snapshot thread =>
      if w.busy thread || w.reader.isSome then none
      else some { w with reader := some (thread, w.metrics.counters) }
  | .readWindow thread =>
      match w.reader with
      | none => none
      | some (holder, seen) =>
          if holder = thread then
            some { w with
              reader := none
              snapshots := w.snapshots ++
                [(w.calls, { seen with p95TtftMs := w.metrics.ttftWindow.p95 })] }
          else none

end MetricsThreads

/-- The calls of `record_ttft` among some calls. -/
def ttftCalls (calls : List RecordCall) : List TtftCall := calls.filterMap RecordCall.ttft?

/-- The samples of some calls, in their order. -/
def samplesOf (calls : List TtftCall) : List ℚ := calls.map TtftCall.ttftMs

/-- The snapshot is the one after the calls, each of them whole, in some order. -/
structure ConsistentCut (initial : ProxyMetrics) (calls : List RecordCall)
    (s : ProxyMetricsSnapshot) : Prop where
  sequential : ∃ order : List RecordCall, order.Perm calls ∧
    s = (initial.recordAll order).snapshot ∧
    ∀ v, s.p95TtftMs = some v →
      IsRank ((samplesOf (ttftCalls order)).rtake initial.ttftWindow.capacity)
        (nearestRank 95 (min s.firstTokenEvents initial.ttftWindow.capacity)) v
  absent : s.firstTokenEvents = 0 → s.lastTtftMs = none ∧ s.p95TtftMs = none
  present : s.firstTokenEvents ≠ 0 → s.lastTtftMs.isSome = true ∧ s.p95TtftMs.isSome = true

/-- The calls that had passed `mutex_` are the first ones, and the snapshot is the one after them.
-/
def CutOf (initial : ProxyMetrics) (calls : List RecordCall)
    (entry : List RecordCall × ProxyMetricsSnapshot) : Prop :=
  entry.1 <+: calls ∧ ConsistentCut initial entry.1 entry.2

/-- A snapshot reads the window while it is full or no `record_ttft` is between its sections, and
while it has the sample of the latest one. -/
def WindowCurrent (w : MetricsThreads) : MetricsEvent → Prop
  | .readWindow _ =>
      (w.halfway = [] ∨ w.metrics.ttftWindow.samples.length = w.metrics.ttftWindow.capacity) ∧
        ∀ value ∈ w.metrics.lastTtftMs, value ∈ w.metrics.ttftWindow.samples
  | _ => True

instance (w : MetricsThreads) (e : MetricsEvent) : Decidable (WindowCurrent w e) := by
  unfold WindowCurrent
  split <;> infer_instance

variable {initial m : ProxyMetrics} {calls order : List RecordCall} {call : RecordCall}
  {w w' : MetricsThreads} {capacity : Nat} {added : List TtftCall}

-- 1. Whole calls in sequence.

/-- The counters after some calls. -/
def countersOf (calls : List RecordCall) : ProxyMetricsSnapshot where
  totalRequests := calls.count .started
  completedRequests := calls.count .completed
  failedRequests := calls.count .failed
  firstTokenEvents := (ttftCalls calls).length
  lastTtftMs := (samplesOf (ttftCalls calls)).getLast?

/-- What a call does to the counters, in its section under `mutex_`. -/
def counted (s : ProxyMetricsSnapshot) : RecordCall → ProxyMetricsSnapshot
  | .started => { s with totalRequests := s.totalRequests + 1 }
  | .completed => { s with completedRequests := s.completedRequests + 1 }
  | .failed => { s with failedRequests := s.failedRequests + 1 }
  | .ttft call => { s with
      firstTokenEvents := s.firstTokenEvents + 1
      lastTtftMs := some call.ttftMs }

theorem countersOf_snoc (calls : List RecordCall) (call : RecordCall) :
    countersOf (calls ++ [call]) = counted (countersOf calls) call := by
  cases call <;> simp [countersOf, counted, ttftCalls, samplesOf, RecordCall.ttft?]

theorem record_counters (m : ProxyMetrics) (call : RecordCall) :
    (m.record call).counters = counted m.counters call := by
  cases call with
  | started => rfl
  | completed => rfl
  | failed => rfl
  | ttft call =>
      rw [ProxyMetrics.record_ttft]
      rfl

theorem holds_record (h : Holds capacity m.ttftWindow (samplesOf (ttftCalls calls)))
    (call : RecordCall) : Holds capacity (m.record call).ttftWindow
      (samplesOf (ttftCalls (calls ++ [call]))) := by
  have hcalls : samplesOf (ttftCalls (calls ++ [call])) =
      samplesOf (ttftCalls calls) ++ samplesOf call.ttft?.toList := by
    cases call <;> simp [ttftCalls, samplesOf, RecordCall.ttft?]
  rw [hcalls]
  cases call with
  | ttft call =>
      rw [ProxyMetrics.record_ttft]
      exact h.add (some call.ttftMs)
  -- the other calls leave the window alone
  | _ => exact h.add none

/-- Nothing has been recorded. -/
structure Unused (m : ProxyMetrics) : Prop where
  counters : m.counters = {}
  samples : m.ttftWindow.samples = []

theorem unused_create (h : ProxyMetrics.create capacity = .ok m) :
    Unused m ∧ m.ttftWindow.capacity = capacity := by
  unfold ProxyMetrics.create SlidingWindow.create at h
  split at h
  · cases h
  · cases h
    exact ⟨⟨rfl, rfl⟩, rfl⟩

theorem Unused.holds (h : Unused m) : Holds m.ttftWindow.capacity m.ttftWindow [] :=
  ⟨rfl, by rw [h.samples, List.rtake_nil]⟩

theorem recordAll_spec (h : Unused initial) (order : List RecordCall) :
    (initial.recordAll order).counters = countersOf order ∧
      Holds initial.ttftWindow.capacity (initial.recordAll order).ttftWindow
        (samplesOf (ttftCalls order)) := by
  induction order using List.reverseRecOn with
  | nil => exact ⟨h.counters, h.holds⟩
  | append_singleton order call ih =>
      have hsnoc : initial.recordAll (order ++ [call]) = (initial.recordAll order).record call :=
        List.foldl_concat ..
      rw [hsnoc]
      exact ⟨by rw [record_counters, ih.1, countersOf_snoc], holds_record ih.2 call⟩

theorem p95_eq_none_iff (w : SlidingWindow ℚ) : w.p95 = none ↔ w.samples = [] := by
  unfold p95
  by_cases hempty : w.samples = []
  · rw [percentile_nil (by norm_num) hempty]
    exact ⟨fun _ => hempty, fun _ => rfl⟩
  · obtain ⟨v, hv, -⟩ := percentile_spec (p := 95) (by norm_num) hempty
    rw [hv]
    exact ⟨fun hnone => (nomatch hnone), fun hnil => absurd hnil hempty⟩

theorem p95_eq_some {w : SlidingWindow ℚ} {v : ℚ} (h : w.p95 = some v) :
    IsRank w.samples (nearestRank 95 w.samples.length) v := by
  have hsome : w.samples ≠ [] := fun hempty => by
    rw [(p95_eq_none_iff w).mpr hempty] at h
    cases h
  obtain ⟨u, hu, hrank⟩ := percentile_spec (p := 95) (by norm_num) hsome
  unfold p95 at h
  rw [hu] at h
  obtain rfl := Option.some.inj h
  exact hrank

/-- The percentile does not depend on the order of the samples. -/
theorem p95_congr {w w' : SlidingWindow ℚ} (h : w.samples.Perm w'.samples) : w.p95 = w'.p95 := by
  cases hp : w.p95 with
  | none =>
      have hempty := (p95_eq_none_iff w).mp hp
      rw [hempty] at h
      exact ((p95_eq_none_iff w').mpr h.nil_eq.symm).symm
  | some v =>
      have hv := (p95_eq_some hp).perm h
      rw [h.length_eq] at hv
      cases hp' : w'.p95 with
      | none =>
          have hempty := (p95_eq_none_iff w').mp hp'
          rw [hempty] at hv
          exact absurd hv.mem List.not_mem_nil
      | some v' =>
          have hv' := p95_eq_some hp'
          exact congrArg some (le_antisymm (hv.mono hv' le_rfl) (hv'.mono hv le_rfl))

/-- The state after whole calls is a consistent cut. -/
theorem consistentCut_recordAll (h : Unused initial) (hperm : order.Perm calls) :
    ConsistentCut initial calls (initial.recordAll order).snapshot := by
  obtain ⟨hcounters, hholds⟩ := recordAll_spec h order
  have hevents : (initial.recordAll order).snapshot.firstTokenEvents = (ttftCalls order).length :=
    congrArg ProxyMetricsSnapshot.firstTokenEvents hcounters
  have hlast : (initial.recordAll order).snapshot.lastTtftMs =
      (samplesOf (ttftCalls order)).getLast? := congrArg ProxyMetricsSnapshot.lastTtftMs hcounters
  have hlength : (samplesOf (ttftCalls order)).length = (ttftCalls order).length :=
    List.length_map ..
  have hpos : 0 < initial.ttftWindow.capacity := initial.ttftWindow.capacity_pos
  have hwindow : (initial.recordAll order).ttftWindow.samples.length =
      min (ttftCalls order).length initial.ttftWindow.capacity := by
    rw [hholds.samples_eq, List.rtake, List.length_drop, hlength]
    omega
  refine ⟨⟨order, hperm, rfl, fun v hv => ?_⟩, fun hnone => ?_, fun hsome => ?_⟩
  · have hrank := p95_eq_some (w := (initial.recordAll order).ttftWindow) hv
    rw [hwindow, hholds.samples_eq] at hrank
    rw [hevents]
    exact hrank
  · rw [hevents] at hnone
    rw [hnone, Nat.zero_min] at hwindow
    have hempty : samplesOf (ttftCalls order) = [] :=
      List.eq_nil_of_length_eq_zero (hlength.trans hnone)
    refine ⟨by rw [hlast, hempty]; rfl, ?_⟩
    exact (p95_eq_none_iff _).mpr (List.eq_nil_of_length_eq_zero hwindow)
  · rw [hevents] at hsome
    have hcalls : samplesOf (ttftCalls order) ≠ [] := fun hempty => by
      rw [hempty] at hlength
      exact hsome hlength.symm
    rw [hlast, Option.isSome_iff_ne_none, Option.isSome_iff_ne_none]
    refine ⟨mt List.getLast?_eq_none_iff.mp hcalls, fun hnone => ?_⟩
    have hempty := (p95_eq_none_iff (initial.recordAll order).ttftWindow).mp hnone
    rw [hempty, List.length_nil] at hwindow
    omega

theorem CutOf.append {entry : List RecordCall × ProxyMetricsSnapshot}
    (h : CutOf initial calls entry) (more : List RecordCall) :
    CutOf initial (calls ++ more) entry :=
  ⟨h.1.trans (List.prefix_append calls more), h.2⟩

-- 2. An order of the calls with the samples of a window.

theorem perm_ttftCalls (calls : List RecordCall) :
    calls.Perm (calls.filter (fun call => call.ttft?.isNone) ++ (ttftCalls calls).map .ttft) := by
  induction calls with
  | nil => exact .refl []
  | cons call calls ih =>
      cases call with
      | ttft call =>
          have hmiddle := (ih.cons (RecordCall.ttft call)).trans List.perm_middle.symm
          simpa [ttftCalls, RecordCall.ttft?] using hmiddle
      | started => exact ih.cons RecordCall.started
      | completed => exact ih.cons RecordCall.completed
      | failed => exact ih.cons RecordCall.failed

/-- The calls of `record_ttft` can be put in any order. -/
theorem exists_order {ttfts : List TtftCall} (h : ttfts.Perm (ttftCalls calls)) :
    ∃ order, order.Perm calls ∧ ttftCalls order = ttfts := by
  refine ⟨calls.filter (fun call => call.ttft?.isNone) ++ ttfts.map .ttft, ?_, ?_⟩
  · exact ((h.map RecordCall.ttft).append_left _).trans (perm_ttftCalls calls).symm
  · have hothers : ttftCalls (calls.filter fun call => call.ttft?.isNone) = [] := by
      refine List.filterMap_eq_nil_iff.mpr fun call hcall => ?_
      have hnone := (List.mem_filter.mp hcall).2
      exact Option.isNone_iff_eq_none.mp hnone
    have hall : ttftCalls (ttfts.map .ttft) = ttfts := by
      unfold ttftCalls
      rw [List.filterMap_map]
      exact List.filterMap_some
    unfold ttftCalls at hothers hall ⊢
    rw [List.filterMap_append, hothers, hall, List.nil_append]

/-- A call whose sample is in the window can be moved to the end: the window keeps its samples. -/
theorem exists_last {v : ℚ} (hv : v ∈ (samplesOf added).rtake capacity) :
    ∃ moved : List TtftCall, moved.Perm added ∧ (samplesOf moved).getLast? = some v ∧
      ((samplesOf moved).rtake capacity).Perm ((samplesOf added).rtake capacity) := by
  have hrtake : (samplesOf added).rtake capacity =
      samplesOf (added.drop (added.length - capacity)) := by
    unfold samplesOf List.rtake
    rw [List.length_map, List.map_drop]
  rw [hrtake] at hv ⊢
  obtain ⟨call, hcall, rfl⟩ := List.mem_map.mp hv
  generalize hold : added.take (added.length - capacity) = old
  generalize hrecent : added.drop (added.length - capacity) = recent at hcall ⊢
  have hmoved : (recent.erase call ++ [call]).Perm recent :=
    (List.perm_append_singleton call _).trans (List.perm_cons_erase hcall).symm
  have hsplit : old ++ recent = added := by
    rw [← hold, ← hrecent, List.take_append_drop]
  refine ⟨old ++ (recent.erase call ++ [call]), ?_, ?_, ?_⟩
  · exact hsplit ▸ hmoved.append_left old
  · unfold samplesOf
    rw [List.map_append, List.map_append, ← List.append_assoc]
    exact List.getLast?_concat ..
  · have hlength : (samplesOf (old ++ (recent.erase call ++ [call]))).length = added.length := by
      unfold samplesOf
      rw [List.length_map, (hmoved.append_left old).length_eq, hsplit]
    have hfront : (samplesOf old).length = added.length - capacity := by
      unfold samplesOf
      rw [List.length_map, ← hold, List.length_take]
      omega
    have hdrop : (samplesOf (old ++ (recent.erase call ++ [call]))).rtake capacity =
        samplesOf (recent.erase call ++ [call]) := by
      unfold List.rtake
      rw [hlength, ← hfront]
      unfold samplesOf
      rw [List.map_append]
      exact List.drop_left
    rw [hdrop]
    exact hmoved.map TtftCall.ttftMs

/-- Calls before the last ones that fill the window. -/
theorem rtake_samplesOf {waiting : List TtftCall} (h : waiting = [] ∨ capacity ≤ added.length) :
    (samplesOf (waiting ++ added)).rtake capacity = (samplesOf added).rtake capacity := by
  cases h with
  | inl hnone => rw [hnone, List.nil_append]
  | inr hfull =>
      have hdrop : (samplesOf waiting ++ samplesOf added).length - capacity =
          (samplesOf waiting).length + ((samplesOf added).length - capacity) := by
        have hlength : (samplesOf added).length = added.length := List.length_map ..
        rw [List.length_append]
        omega
      have happend : samplesOf (waiting ++ added) = samplesOf waiting ++ samplesOf added :=
        List.map_append
      unfold List.rtake
      rw [happend, hdrop, List.drop_length_add_append]

/-- An order of the calls of `record_ttft` that ends with the latest one and leaves the window as it
is: the calls that wait for the window come first. -/
theorem exists_ttftOrder {waiting : List TtftCall} {last : Option ℚ}
    (hfull : waiting = [] ∨ capacity ≤ added.length)
    (hlast : ∀ v ∈ last, v ∈ (samplesOf added).rtake capacity)
    (hnone : last = none → waiting = [] ∧ added = []) :
    ∃ ttfts : List TtftCall, ttfts.Perm (added ++ waiting) ∧ (samplesOf ttfts).getLast? = last ∧
      ((samplesOf ttfts).rtake capacity).Perm ((samplesOf added).rtake capacity) := by
  cases last with
  | none =>
      obtain ⟨rfl, rfl⟩ := hnone rfl
      exact ⟨[], .refl [], rfl, .refl _⟩
  | some v =>
      obtain ⟨moved, hmoved, hend, hwindow⟩ := exists_last (hlast v rfl)
      refine ⟨waiting ++ moved, ?_, ?_, ?_⟩
      · exact List.perm_append_comm.trans (hmoved.append_right waiting)
      · unfold samplesOf at hend ⊢
        rw [List.map_append, List.getLast?_append, hend, Option.some_or]
      · rw [rtake_samplesOf (hmoved.length_eq ▸ hfull)]
        exact hwindow

-- 3. What the threads keep.

/-- The counters are those of the calls that have passed `mutex_`, and the window has the samples of
those that have passed both mutexes. -/
structure MetricsBooks (initial : ProxyMetrics) (w : MetricsThreads) : Prop where
  counters : w.metrics.counters = countersOf w.calls
  window : Holds initial.ttftWindow.capacity w.metrics.ttftWindow (samplesOf w.added)
  sections : (ttftCalls w.calls).Perm (w.added ++ w.halfway.map Prod.snd)
  reading : ∀ thread seen, w.reader = some (thread, seen) → seen = w.metrics.counters
  snapshots : ∀ entry ∈ w.snapshots, CutOf initial w.calls entry

namespace MetricsBooks

theorem lastTtftMs_eq (h : MetricsBooks initial w) :
    w.metrics.lastTtftMs = (samplesOf (ttftCalls w.calls)).getLast? :=
  congrArg ProxyMetricsSnapshot.lastTtftMs h.counters

/-- A full window has the samples of `capacity` calls. -/
theorem capacity_le_added (h : MetricsBooks initial w)
    (hfull : w.metrics.ttftWindow.samples.length = w.metrics.ttftWindow.capacity) :
    initial.ttftWindow.capacity ≤ w.added.length := by
  have hlength : (samplesOf w.added).length = w.added.length := List.length_map ..
  rw [h.window.samples_eq, h.window.capacity_eq, List.rtake, List.length_drop, hlength] at hfull
  have hpos : 0 < initial.ttftWindow.capacity := initial.ttftWindow.capacity_pos
  omega

/-- The snapshot that is about to be returned. -/
theorem consistentCut (h : MetricsBooks initial w) (hunused : Unused initial) {thread : Nat}
    (hcurrent : WindowCurrent w (.readWindow thread)) :
    ConsistentCut initial w.calls w.metrics.snapshot := by
  obtain ⟨hfull, hlast⟩ := hcurrent
  obtain ⟨ttfts, hperm, hend, hwindow⟩ : ∃ ttfts : List TtftCall,
      ttfts.Perm (w.added ++ w.halfway.map Prod.snd) ∧
      (samplesOf ttfts).getLast? = w.metrics.lastTtftMs ∧
      ((samplesOf ttfts).rtake initial.ttftWindow.capacity).Perm
        ((samplesOf w.added).rtake initial.ttftWindow.capacity) := by
    apply exists_ttftOrder
    · refine hfull.imp (fun hnone => ?_) h.capacity_le_added
      rw [hnone, List.map_nil]
    · rw [← h.window.samples_eq]
      exact hlast
    · intro hnone
      rw [h.lastTtftMs_eq, List.getLast?_eq_none_iff] at hnone
      have hsections := h.sections
      rw [List.map_eq_nil_iff.mp hnone] at hsections
      exact (List.append_eq_nil_iff.mp hsections.nil_eq.symm).symm
  obtain ⟨order, horder, httfts⟩ := exists_order (hperm.trans h.sections.symm)
  obtain ⟨hcounters, hholds⟩ := recordAll_spec hunused order
  have hsnapshot : w.metrics.snapshot = (initial.recordAll order).snapshot := by
    have hsame : (initial.recordAll order).counters = w.metrics.counters := by
      rw [hcounters, h.counters]
      unfold countersOf
      rw [httfts, hend, h.lastTtftMs_eq, horder.count_eq, horder.count_eq, horder.count_eq,
        (hperm.trans h.sections.symm).length_eq]
    have hp95 : (initial.recordAll order).ttftWindow.p95 = w.metrics.ttftWindow.p95 := by
      apply p95_congr
      rw [hholds.samples_eq, h.window.samples_eq, httfts]
      exact hwindow
    rw [ProxyMetrics.snapshot_eq, ProxyMetrics.snapshot_eq, hsame, hp95]
  rw [hsnapshot]
  exact consistentCut_recordAll hunused horder

theorem init (hunused : Unused initial) : MetricsBooks initial { metrics := initial } where
  counters := hunused.counters
  window := hunused.holds
  sections := .refl []
  reading := fun _ _ hnone => (nomatch hnone)
  snapshots := fun _ hnone => (nomatch hnone)

/-- A section under `mutex_` that only counts. -/
theorem count {thread : Nat} (h : MetricsBooks initial w) (hcall : call.ttft? = none)
    (hcount : w.count thread call = some w') : MetricsBooks initial w' := by
  unfold MetricsThreads.count at hcount
  split at hcount
  · cases hcount
  · rename_i hfree
    cases hcount
    have hreader : w.reader = none := by
      rw [Bool.or_eq_true, not_or] at hfree
      exact Option.not_isSome_iff_eq_none.mp hfree.2
    have hwindow : (w.metrics.record call).ttftWindow = w.metrics.ttftWindow := by
      cases call with
      | ttft call => cases hcall
      | _ => rfl
    have httfts : ttftCalls (w.calls ++ [call]) = ttftCalls w.calls := by
      unfold ttftCalls
      rw [List.filterMap_append, List.filterMap_cons, hcall, List.filterMap_nil, List.append_nil]
    exact
      { counters := by
          show (w.metrics.record call).counters = countersOf (w.calls ++ [call])
          rw [record_counters, countersOf_snoc, h.counters]
        window := by
          show Holds _ (w.metrics.record call).ttftWindow _
          rw [hwindow]
          exact h.window
        sections := by
          show (ttftCalls (w.calls ++ [call])).Perm _
          rw [httfts]
          exact h.sections
        reading := fun _ seen hseen => absurd (hseen.symm.trans hreader) (Option.some_ne_none _)
        snapshots := fun s hs => (h.snapshots s hs).append [call] }

/-- `record_ttft` at the end of its section under `mutex_`. -/
theorem countTtft (h : MetricsBooks initial w) (hreader : w.reader = none) (thread : Nat)
    (call : TtftCall) : MetricsBooks initial { w with
      metrics := w.metrics.countTtft call.ttftMs
      halfway := w.halfway ++ [(thread, call)]
      calls := w.calls ++ [.ttft call] } where
  counters := by
    show counted w.metrics.counters (.ttft call) = countersOf (w.calls ++ [.ttft call])
    rw [countersOf_snoc, h.counters]
  window := h.window
  sections := by
    have httfts : ttftCalls (w.calls ++ [.ttft call]) = ttftCalls w.calls ++ [call] :=
      List.filterMap_append
    show (ttftCalls (w.calls ++ [.ttft call])).Perm _
    rw [httfts, List.map_append, ← List.append_assoc]
    exact h.sections.append_right [call]
  reading := fun _ seen hseen => absurd (hseen.symm.trans hreader) (Option.some_ne_none _)
  snapshots := fun s hs => (h.snapshots s hs).append [.ttft call]

/-- `record_ttft` at the end of its section in `add_sample`. -/
theorem addTtft {entry : Nat × TtftCall} (h : MetricsBooks initial w) (hentry : entry ∈ w.halfway) :
    MetricsBooks initial { w with
      metrics := w.metrics.addTtft entry.2.ttftMs
      halfway := w.halfway.erase entry
      added := w.added ++ [entry.2] } where
  counters := h.counters
  window := by
    have hadded : samplesOf (w.added ++ [entry.2]) = samplesOf w.added ++ [entry.2.ttftMs] :=
      List.map_append
    show Holds _ (w.metrics.ttftWindow.add (some entry.2.ttftMs)) (samplesOf (w.added ++ [entry.2]))
    rw [hadded]
    exact h.window.add (some entry.2.ttftMs)
  sections := by
    have hmoved : (w.halfway.map Prod.snd).Perm (entry.2 :: (w.halfway.erase entry).map Prod.snd) :=
      (List.perm_cons_erase hentry).map Prod.snd
    show (ttftCalls w.calls).Perm (w.added ++ [entry.2] ++ (w.halfway.erase entry).map Prod.snd)
    rw [List.append_assoc]
    exact h.sections.trans (hmoved.append_left w.added)
  reading := h.reading
  snapshots := h.snapshots

theorem step {e : MetricsEvent} (h : MetricsBooks initial w) (hunused : Unused initial)
    (hcurrent : WindowCurrent w e) (hstep : w.step e = some w') : MetricsBooks initial w' := by
  cases e with
  | requestStarted thread => exact h.count rfl hstep
  | requestCompleted thread => exact h.count rfl hstep
  | requestFailed thread => exact h.count rfl hstep
  | recordTtft thread requestStart firstDataEvent =>
      simp only [MetricsThreads.step] at hstep
      by_cases hbusy : w.busy thread
      · rw [if_pos hbusy] at hstep
        cases hstep
      rw [if_neg hbusy] at hstep
      by_cases hle : requestStart ≤ firstDataEvent
      · rw [dif_pos hle] at hstep
        by_cases hreader : w.reader.isSome
        · rw [if_pos hreader] at hstep
          cases hstep
        rw [if_neg hreader] at hstep
        cases hstep
        exact h.countTtft (Option.not_isSome_iff_eq_none.mp hreader) thread _
      -- the call throws and changes nothing
      · rw [dif_neg hle] at hstep
        cases hstep
        exact h
  | addSample thread =>
      simp only [MetricsThreads.step] at hstep
      split at hstep
      · cases hstep
      · rename_i entry hentry
        cases hstep
        exact h.addTtft (List.mem_of_find?_eq_some hentry)
  | snapshot thread =>
      simp only [MetricsThreads.step] at hstep
      split at hstep
      · cases hstep
      · cases hstep
        refine ⟨h.counters, h.window, h.sections, fun holder seen hseen => ?_, h.snapshots⟩
        cases hseen
        rfl
  | readWindow thread =>
      have hcut := h.consistentCut hunused hcurrent
      simp only [MetricsThreads.step] at hstep
      split at hstep
      · cases hstep
      · rename_i holder seen hreader
        split at hstep
        · cases hstep
          have hseen := h.reading holder seen hreader
          refine ⟨h.counters, h.window, h.sections, fun _ _ hnone => (nomatch hnone), ?_⟩
          intro s hs
          cases List.mem_append.mp hs with
          | inl hold => exact h.snapshots s hold
          | inr hnew =>
              -- the counters it has read are still the current ones
              rw [List.mem_singleton.mp hnew, hseen, ← ProxyMetrics.snapshot_eq]
              exact ⟨List.prefix_refl _, hcut⟩
        · cases hstep

end MetricsBooks

-- 4. Every interleaving.

theorem snapshots_consistent {es : List MetricsEvent}
    (hcreate : ProxyMetrics.create capacity = .ok initial)
    (hmeets : Meets MetricsThreads.step WindowCurrent { metrics := initial } es) :
    Always MetricsThreads.step (fun w => ∀ entry ∈ w.snapshots, CutOf initial w.calls entry)
      { metrics := initial } es := by
  have hunused := (unused_create hcreate).1
  have hbooks : Always MetricsThreads.step (MetricsBooks initial) { metrics := initial } es :=
    always_of_meets hmeets (MetricsBooks.init hunused)
      fun w e w' h hcurrent hstep => h.step hunused hcurrent hstep
  exact hbooks.mono fun w h => h.snapshots

def emptyMetrics : ProxyMetrics where
  ttftWindow := { capacity := 2, capacity_pos := by decide, samples_length_le := by decide }

theorem emptyMetrics_create : ProxyMetrics.create 2 = .ok emptyMetrics := rfl

/-- The second thread adds its sample first, while a snapshot waits to read the window. -/
def overtaking : List MetricsEvent :=
  [.recordTtft 0 0 5000000, .recordTtft 1 0 7000000, .snapshot 2, .addSample 1, .addSample 0,
    .readWindow 2]

theorem snapshots_consistent_overtaking :
    (∃ w, run MetricsThreads.step { metrics := emptyMetrics } overtaking = some w ∧
      w.snapshots.length = 1) ∧
    Always MetricsThreads.step (fun w => ∀ entry ∈ w.snapshots, CutOf emptyMetrics w.calls entry)
      { metrics := emptyMetrics } overtaking :=
  ⟨⟨_, rfl, rfl⟩, snapshots_consistent emptyMetrics_create (by decide +kernel)⟩

/-- A snapshot between the two sections of `record_ttft`. -/
def splitRecord : List MetricsEvent := [.recordTtft 0 0 5000000, .snapshot 1, .readWindow 1]

theorem splitRecord_inconsistent : ¬ ∀ (capacity : Nat) (initial : ProxyMetrics)
    (es : List MetricsEvent), ProxyMetrics.create capacity = .ok initial →
    Always MetricsThreads.step
      (fun w => ∀ entry ∈ w.snapshots, ∃ calls, ConsistentCut initial calls entry.2)
      { metrics := initial } es := by
  intro h
  have hlast := (h 2 emptyMetrics splitRecord emptyMetrics_create).last rfl
  obtain ⟨calls, hcut⟩ := hlast
    ([.ttft ⟨0, 5000000, by decide⟩], { firstTokenEvents := 1, lastTtftMs := some 5 })
    (by decide +kernel)
  -- an event has been counted, but the window is empty
  exact absurd (hcut.present Nat.one_ne_zero).2 (by decide)

end VllmSloProxy
