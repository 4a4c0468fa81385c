import VllmSloProxy.SlidingWindow

/-!
# The request metrics

`proxy_metrics.cpp`.  A time point is a number of nanoseconds, and a duration in milliseconds is
an exact fraction.
-/

namespace VllmSloProxy

structure ProxyMetricsSnapshot where
  totalRequests : Nat := 0
  completedRequests : Nat := 0
  failedRequests : Nat := 0
  firstTokenEvents : Nat := 0
  lastTtftMs : Option ℚ := none
  p95TtftMs : Option ℚ := none
  deriving DecidableEq

structure ProxyMetrics where
  totalRequests : Nat := 0
  completedRequests : Nat := 0
  failedRequests : Nat := 0
  firstTokenEvents : Nat := 0
  lastTtftMs : Option ℚ := none
  ttftWindow : SlidingWindow ℚ

namespace ProxyMetrics

def create (ttftWindowCapacity : Nat) : Except String ProxyMetrics := do
  return { ttftWindow := ← SlidingWindow.create ttftWindowCapacity }

def recordRequestStarted (m : ProxyMetrics) : ProxyMetrics :=
  { m with totalRequests := m.totalRequests + 1 }

def recordRequestCompleted (m : ProxyMetrics) : ProxyMetrics :=
  { m with completedRequests := m.completedRequests + 1 }

def recordRequestFailed (m : ProxyMetrics) : ProxyMetrics :=
  { m with failedRequests := m.failedRequests + 1 }

def recordTtft (requestStart firstDataEvent : Nat) (m : ProxyMetrics) :
    Except String ProxyMetrics :=
  if firstDataEvent < requestStart then .error "first_data_event must be >= request_start"
  else do
    let ttftMs : ℚ := (firstDataEvent - requestStart : Nat) / 1000000
    return { m with
      firstTokenEvents := m.firstTokenEvents + 1
      lastTtftMs := some ttftMs
      ttftWindow := ← m.ttftWindow.addSample (some ttftMs) }

/-- `record_ttft` leaves the request counts alone. -/
theorem recordTtft_ok {start first : Nat} {m m' : ProxyMetrics}
    (h : m.recordTtft start first = .ok m') :
    m'.totalRequests = m.totalRequests ∧ m'.completedRequests = m.completedRequests ∧
      m'.failedRequests = m.failedRequests := by
  unfold recordTtft at h
  split at h
  · exact absurd h (by simp)
  · have hm : m' = _ := (Except.ok.inj h).symm
    rw [hm]
    exact ⟨rfl, rfl, rfl⟩

def snapshot (m : ProxyMetrics) : ProxyMetricsSnapshot where
  totalRequests := m.totalRequests
  completedRequests := m.completedRequests
  failedRequests := m.failedRequests
  firstTokenEvents := m.firstTokenEvents
  lastTtftMs := m.lastTtftMs
  p95TtftMs := m.ttftWindow.p95

end ProxyMetrics

end VllmSloProxy
