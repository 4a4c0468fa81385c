import Mathlib.Algebra.Group.Int.Defs
import Mathlib.Tactic.Common

/-!
# `int` arithmetic

Signed 32-bit arithmetic on integers.  An operation whose exact result does not fit is undefined
behaviour, so it has no result.
-/

namespace CInt

abbrev maxValue : Int := 2 ^ 31 - 1

abbrev minValue : Int := -2 ^ 31

/-- `a` is the value of some `int`. -/
def Fits (a : Int) : Prop := minValue ≤ a ∧ a ≤ maxValue

instance (a : Int) : Decidable (Fits a) := inferInstanceAs (Decidable (_ ∧ _))

def checked (a : Int) : Option Int := if Fits a then some a else none

def add (a b : Int) : Option Int := checked (a + b)

def sub (a b : Int) : Option Int := checked (a - b)

/-- Division truncates towards zero. -/
def div (a b : Int) : Option Int := checked (a.tdiv b)

theorem fits_of_nonneg {a : Int} (h : 0 ≤ a) (hle : a ≤ maxValue) : Fits a :=
  ⟨by unfold minValue; omega, hle⟩

theorem checked_of_nonneg {a : Int} (h : 0 ≤ a) (hle : a ≤ maxValue) : checked a = some a :=
  if_pos (fits_of_nonneg h hle)

end CInt
