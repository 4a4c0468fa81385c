import Mathlib.Algebra.Ring.Nat
import Mathlib.Tactic.Common

/-!
# `size_t` arithmetic

Unsigned 64-bit addition and subtraction on naturals below `2 ^ 64`.
-/

namespace SizeT

def modulus : Nat := 2 ^ 64

def add (a b : Nat) : Nat := (a + b) % modulus

def sub (a b : Nat) : Nat := (a + modulus - b) % modulus

theorem add_eq {a b : Nat} (h : a + b < modulus) : add a b = a + b := Nat.mod_eq_of_lt h

theorem sub_eq {a b : Nat} (hb : b ≤ a) (ha : a < modulus) : sub a b = a - b := by
  unfold sub
  rw [show a + modulus - b = a - b + modulus by omega, Nat.add_mod_right,
    Nat.mod_eq_of_lt (by omega)]

/-- Addition without a result where it would wrap. -/
def checkedAdd (a b : Nat) : Option Nat := if a + b < modulus then some (a + b) else none

/-- Subtraction without a result where it would wrap. -/
def checkedSub (a b : Nat) : Option Nat := if b ≤ a then some (a - b) else none

theorem checkedAdd_eq {a b : Nat} (h : a + b < modulus) : checkedAdd a b = some (add a b) := by
  rw [checkedAdd, if_pos h, add_eq h]

theorem checkedSub_eq {a b : Nat} (hb : b ≤ a) (ha : a < modulus) :
    checkedSub a b = some (sub a b) := by
  rw [checkedSub, if_pos hb, sub_eq hb ha]

end SizeT
