import Mathlib.Tactic.Common

/-!
# The in-flight limiter

`inflight_limiter.cpp`: the counts that a limiter shares with its permits, and the permit object.
Every public operation runs under one mutex, so it is one function on the counts.  The on-release
callback is kept as a value of an arbitrary type `κ`; an operation that runs it returns it.
-/

namespace VllmSloProxy

inductive InflightDecision where
  | admitted
  | queue
  | reject
  | closed
  deriving DecidableEq, Repr

structure InflightLimiterSnapshot where
  currentInflight : Nat := 0
  queuedRequests : Nat := 0
  maxInflight : Nat := 0
  maxQueueSize : Nat := 0
  closed : Bool := false
  deriving DecidableEq, Repr

/-- `InflightLimiter::Permit::State`.  The constructor refuses a zero `max_inflight`. -/
structure InflightLimiter (κ : Type) where
  currentInflight : Nat := 0
  queuedRequests : Nat := 0
  maxInflight : Nat
  maxQueueSize : Nat
  closed : Bool := false
  onRelease : Option κ := none
  maxInflight_pos : 0 < maxInflight

/-- A permit points weakly at the state of the limiter `ι` that made it. -/
structure Permit (ι : Type) where
  state : Option ι := none
  ownsSlot : Bool := false
  deriving DecidableEq, Repr

structure AcquireResult (ι : Type) where
  decision : InflightDecision := .reject
  permit : Permit ι := {}
  queuePosition : Nat := 0
  deriving DecidableEq, Repr

variable {ι κ : Type}

def Permit.valid (p : Permit ι) : Bool := p.ownsSlot

/-- The constructor that `InflightLimiter` uses for a slot it has just taken. -/
def Permit.owning (id : ι) : Permit ι := { state := some id, ownsSlot := true }

@[simp] theorem Permit.valid_empty : ({} : Permit ι).valid = false := rfl

@[simp] theorem Permit.valid_owning (id : ι) : (Permit.owning id).valid = true := rfl

@[simp] theorem Permit.owning_ownsSlot (id : ι) : (Permit.owning id).ownsSlot = true := rfl

namespace InflightLimiter

def create (maxInflight maxQueueSize : Nat) : Except String (InflightLimiter κ) :=
  if h : maxInflight = 0 then .error "max_inflight must be greater than zero"
  else .ok { maxInflight, maxQueueSize, maxInflight_pos := Nat.pos_of_ne_zero h }

def tryAcquireOrQueue (id : ι) (l : InflightLimiter κ) : AcquireResult ι × InflightLimiter κ :=
  if l.closed then
    ({ decision := .closed }, l)
  else if l.currentInflight < l.maxInflight then
    ({ decision := .admitted, permit := Permit.owning id },
      { l with currentInflight := l.currentInflight + 1 })
  else if l.queuedRequests < l.maxQueueSize then
    ({ decision := .queue, queuePosition := l.queuedRequests + 1 },
      { l with queuedRequests := l.queuedRequests + 1 })
  else
    ({ decision := .reject }, l)

def tryPromoteQueued (id : ι) (l : InflightLimiter κ) : Permit ι × InflightLimiter κ :=
  if l.closed ∨ l.queuedRequests = 0 ∨ l.currentInflight ≥ l.maxInflight then
    ({}, l)
  else
    (Permit.owning id, { l with
      queuedRequests := l.queuedRequests - 1
      currentInflight := l.currentInflight + 1 })

def cancelQueued (l : InflightLimiter κ) : Bool × InflightLimiter κ :=
  if l.queuedRequests = 0 then (false, l)
  else (true, { l with queuedRequests := l.queuedRequests - 1 })

def close (l : InflightLimiter κ) : InflightLimiter κ :=
  { l with closed := true, queuedRequests := 0 }

def setOnRelease (callback : κ) (l : InflightLimiter κ) : InflightLimiter κ :=
  { l with onRelease := some callback }

def snapshot (l : InflightLimiter κ) : InflightLimiterSnapshot where
  currentInflight := l.currentInflight
  queuedRequests := l.queuedRequests
  maxInflight := l.maxInflight
  maxQueueSize := l.maxQueueSize
  closed := l.closed

/-- The locked part of `Permit::release`: the slot goes back and the callback in force is copied. -/
def giveBack (l : InflightLimiter κ) : InflightLimiter κ × Option κ :=
  if l.currentInflight = 0 then (l, none)
  else ({ l with currentInflight := l.currentInflight - 1 }, l.onRelease)

end InflightLimiter

/-- `Permit::release`.  `locked` is what `state_.lock()` gives: the limiter, unless it is gone.
The result is the permit, the limiter afterwards and the callback to run. -/
def Permit.release (p : Permit ι) (locked : Option (InflightLimiter κ)) :
    Permit ι × Option (InflightLimiter κ) × Option κ :=
  if !p.ownsSlot then (p, locked, none)
  else
    let p := { p with ownsSlot := false }
    match locked with
    | none => (p, none, none)
    | some l => (p, some l.giveBack.1, l.giveBack.2)

namespace InflightLimiter

/-- Everything `try_acquire_or_queue` can do. -/
theorem tryAcquireOrQueue_cases (id : ι) (l : InflightLimiter κ) :
    (l.closed = true ∧ l.tryAcquireOrQueue id = ({ decision := .closed }, l)) ∨
    (l.closed = false ∧ l.currentInflight < l.maxInflight ∧
      l.tryAcquireOrQueue id = ({ decision := .admitted, permit := Permit.owning id },
        { l with currentInflight := l.currentInflight + 1 })) ∨
    (l.closed = false ∧ l.maxInflight ≤ l.currentInflight ∧ l.queuedRequests < l.maxQueueSize ∧
      l.tryAcquireOrQueue id = ({ decision := .queue, queuePosition := l.queuedRequests + 1 },
        { l with queuedRequests := l.queuedRequests + 1 })) ∨
    (l.closed = false ∧ l.maxInflight ≤ l.currentInflight ∧ l.maxQueueSize ≤ l.queuedRequests ∧
      l.tryAcquireOrQueue id = ({ decision := .reject }, l)) := by
  unfold tryAcquireOrQueue
  cases l.closed with
  | true => exact .inl ⟨rfl, if_pos rfl⟩
  | false =>
      by_cases hslot : l.currentInflight < l.maxInflight
      · exact .inr (.inl ⟨rfl, hslot, by simp only [hslot, Bool.false_eq_true, ↓reduceIte]⟩)
      · have hfull : l.maxInflight ≤ l.currentInflight := Nat.le_of_not_lt hslot
        by_cases hroom : l.queuedRequests < l.maxQueueSize
        · exact .inr (.inr (.inl ⟨rfl, hfull, hroom, by
            simp only [hslot, hroom, Bool.false_eq_true, ↓reduceIte]⟩))
        · exact .inr (.inr (.inr ⟨rfl, hfull, Nat.le_of_not_lt hroom, by
            simp only [hslot, hroom, Bool.false_eq_true, ↓reduceIte]⟩))

/-- Everything `try_promote_queued` can do. -/
theorem tryPromoteQueued_cases (id : ι) (l : InflightLimiter κ) :
    ((l.closed = true ∨ l.queuedRequests = 0 ∨ l.maxInflight ≤ l.currentInflight) ∧
      l.tryPromoteQueued id = ({}, l)) ∨
    (l.closed = false ∧ 0 < l.queuedRequests ∧ l.currentInflight < l.maxInflight ∧
      l.tryPromoteQueued id = (Permit.owning id, { l with
        queuedRequests := l.queuedRequests - 1
        currentInflight := l.currentInflight + 1 })) := by
  unfold tryPromoteQueued
  by_cases h : l.closed ∨ l.queuedRequests = 0 ∨ l.currentInflight ≥ l.maxInflight
  · exact .inl ⟨h, if_pos h⟩
  · refine .inr ⟨?_, ?_, ?_, if_neg h⟩
    · simpa using fun hc => h (.inl hc)
    · exact Nat.pos_of_ne_zero fun hq => h (.inr (.inl hq))
    · exact Nat.lt_of_not_le fun hc => h (.inr (.inr hc))

theorem tryAcquireOrQueue_of_lt (id : ι) {l : InflightLimiter κ} (hopen : l.closed = false)
    (hfree : l.currentInflight < l.maxInflight) :
    (l.tryAcquireOrQueue id).1.decision = .admitted := by
  unfold tryAcquireOrQueue
  rw [hopen, if_neg Bool.false_ne_true, if_pos hfree]

theorem tryAcquireOrQueue_permit (id : ι) (l : InflightLimiter κ) :
    (l.tryAcquireOrQueue id).1.permit = {} ∨
      (l.tryAcquireOrQueue id).1.permit = Permit.owning id := by
  rcases l.tryAcquireOrQueue_cases id with
    ⟨-, heq⟩ | ⟨-, -, heq⟩ | ⟨-, -, -, heq⟩ | ⟨-, -, -, heq⟩ <;> simp only [heq, true_or, or_true]

theorem tryPromoteQueued_permit (id : ι) (l : InflightLimiter κ) :
    (l.tryPromoteQueued id).1 = {} ∨ (l.tryPromoteQueued id).1 = Permit.owning id := by
  rcases l.tryPromoteQueued_cases id with ⟨-, heq⟩ | ⟨-, -, -, heq⟩ <;>
    simp only [heq, true_or, or_true]

/-- Everything `cancel_queued` can do. -/
theorem cancelQueued_cases (l : InflightLimiter κ) :
    (l.queuedRequests = 0 ∧ l.cancelQueued = (false, l)) ∨
    (0 < l.queuedRequests ∧
      l.cancelQueued = (true, { l with queuedRequests := l.queuedRequests - 1 })) := by
  unfold cancelQueued
  by_cases h : l.queuedRequests = 0
  · exact .inl ⟨h, if_pos h⟩
  · exact .inr ⟨Nat.pos_of_ne_zero h, if_neg h⟩

theorem giveBack_of_pos {l : InflightLimiter κ} (h : 0 < l.currentInflight) :
    l.giveBack = ({ l with currentInflight := l.currentInflight - 1 }, l.onRelease) :=
  if_neg (Nat.ne_of_gt h)

@[simp] theorem giveBack_queuedRequests (l : InflightLimiter κ) :
    l.giveBack.1.queuedRequests = l.queuedRequests := by
  unfold giveBack; split <;> rfl

@[simp] theorem giveBack_maxInflight (l : InflightLimiter κ) :
    l.giveBack.1.maxInflight = l.maxInflight := by
  unfold giveBack; split <;> rfl

@[simp] theorem giveBack_maxQueueSize (l : InflightLimiter κ) :
    l.giveBack.1.maxQueueSize = l.maxQueueSize := by
  unfold giveBack; split <;> rfl

@[simp] theorem giveBack_closed (l : InflightLimiter κ) : l.giveBack.1.closed = l.closed := by
  unfold giveBack; split <;> rfl

@[simp] theorem giveBack_onRelease (l : InflightLimiter κ) :
    l.giveBack.1.onRelease = l.onRelease := by
  unfold giveBack; split <;> rfl

theorem giveBack_currentInflight (l : InflightLimiter κ) :
    l.giveBack.1.currentInflight = l.currentInflight - 1 := by
  unfold giveBack
  split
  · rename_i h; rw [h]
  · rfl

end InflightLimiter

theorem Permit.release_idle {p : Permit ι} (h : p.ownsSlot = false)
    (locked : Option (InflightLimiter κ)) : p.release locked = (p, locked, none) := by
  unfold Permit.release
  rw [h]
  rfl

theorem Permit.release_owning {p : Permit ι} (h : p.ownsSlot = true) (l : InflightLimiter κ) :
    p.release (some l) = ({ p with ownsSlot := false }, some l.giveBack.1, l.giveBack.2) := by
  unfold Permit.release
  rw [h]
  rfl

@[simp] theorem Permit.release_ownsSlot (p : Permit ι) (locked : Option (InflightLimiter κ)) :
    (p.release locked).1.ownsSlot = false := by
  unfold Permit.release
  cases h : p.ownsSlot with
  | false => exact h
  | true => cases locked <;> rfl

end VllmSloProxy
