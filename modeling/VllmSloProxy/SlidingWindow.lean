import Mathlib.Algebra.Order.Floor.Ring
import Mathlib.Data.Rat.Floor

/-!
# The sliding window of samples

`sliding_window.cpp` over any linearly ordered samples.  A `double` argument that `std::isfinite`
refuses is `none`.
-/

namespace VllmSloProxy

/-- The constructor refuses a zero capacity. -/
structure SlidingWindow (α : Type) where
  capacity : Nat
  samples : List α := []
  capacity_pos : 0 < capacity
  samples_length_le : samples.length ≤ capacity

namespace SlidingWindow

variable {α : Type}

def create (capacity : Nat) : Except String (SlidingWindow α) :=
  if h : capacity = 0 then .error "SlidingWindow capacity must be greater than zero"
  else .ok { capacity, capacity_pos := Nat.pos_of_ne_zero h, samples_length_le := Nat.zero_le _ }

/-- The deque after `pop_front`, when it is full, and `push_back`. -/
def pushed (w : SlidingWindow α) (value : α) : List α :=
  (if w.samples.length = w.capacity then w.samples.tail else w.samples) ++ [value]

theorem pushed_length_le (w : SlidingWindow α) (value : α) :
    (w.pushed value).length ≤ w.capacity := by
  have hle : w.samples.length ≤ w.capacity := w.samples_length_le
  have hpos : 0 < w.capacity := w.capacity_pos
  unfold pushed
  split
  · rw [List.length_append, List.length_tail, List.length_singleton]
    omega
  · rw [List.length_append, List.length_singleton]
    omega

def addSample (w : SlidingWindow α) : Option α → Except String (SlidingWindow α)
  | none => .error "SlidingWindow sample must be finite"
  | some value =>
      .ok { w with samples := w.pushed value, samples_length_le := w.pushed_length_le value }

variable [LinearOrder α]

def percentile (w : SlidingWindow α) : Option ℚ → Except String (Option α)
  | none => .error "percentile must be in [0, 100]"
  | some p =>
      if p < 0 ∨ 100 < p then .error "percentile must be in [0, 100]"
      else if w.samples = [] then .ok none
      else
        let values := w.samples.mergeSort (· ≤ ·)
        if p = 0 then .ok values.head?
        else
          let rank := ⌈p / 100 * values.length⌉
          let index := (max 1 rank).toNat - 1
          .ok values[min index (values.length - 1)]?

def p95 (w : SlidingWindow α) : Option α :=
  match w.percentile (some 95) with
  | .ok value => value
  | .error _ => none

end SlidingWindow

end VllmSloProxy
