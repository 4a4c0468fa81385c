import Mathlib.Order.Defs.LinearOrder
import Mathlib.Order.Basic
import Mathlib.Order.Lattice
import Mathlib.Data.List.Basic

/-!
# Ranks of the entries of a list

The entry of a given rank, ties counted in: where it stands once the list is sorted, and how two
ranks compare.
-/

namespace Rank

variable {α : Type*} [LinearOrder α] {l l' : List α} {k m : Nat} {u v : α}

/-- At least `k` entries are at most `v`, which is one of them, and fewer than `k` are below it. -/
structure IsRank (l : List α) (k : Nat) (v : α) : Prop where
  mem : v ∈ l
  le_countP : k ≤ l.countP (· ≤ v)
  countP_lt : l.countP (· < v) < k

theorem IsRank.perm (h : IsRank l k v) (hperm : l.Perm l') : IsRank l' k v :=
  ⟨hperm.mem_iff.mp h.mem, hperm.countP_eq _ ▸ h.le_countP, hperm.countP_eq _ ▸ h.countP_lt⟩

theorem isRank_getElem (hsorted : l.Pairwise (· ≤ ·)) (hk : k < l.length) :
    IsRank l (k + 1) l[k] := by
  refine ⟨List.getElem_mem hk, ?_, ?_⟩
  · -- the entries up to the one of index `k` are at most that one
    have hfront : (l.take (k + 1)).countP (· ≤ l[k]) = k + 1 := by
      have hlength : (l.take (k + 1)).length = k + 1 := List.length_take_of_le hk
      rw [List.countP_eq_length.mpr, hlength]
      intro a ha
      obtain ⟨i, hi, rfl⟩ := List.mem_iff_getElem.mp ha
      rw [List.getElem_take, decide_eq_true_eq]
      rw [hlength] at hi
      rcases Nat.lt_or_ge i k with hik | hik
      · exact List.pairwise_iff_getElem.mp hsorted i k _ hk hik
      · obtain rfl : i = k := by omega
        exact le_rfl
    have hle : (l.take (k + 1)).countP (· ≤ l[k]) ≤ l.countP (· ≤ l[k]) :=
      (List.take_sublist _ _).countP_le
    omega
  · -- those from it on are not below it
    have hback : (l.drop k).countP (· < l[k]) = 0 := by
      rw [List.countP_eq_zero]
      intro a ha
      obtain ⟨i, hi, rfl⟩ := List.mem_iff_getElem.mp ha
      rw [List.getElem_drop, decide_eq_true_eq, not_lt]
      rw [List.length_drop] at hi
      rcases Nat.eq_zero_or_pos i with rfl | hi0
      · exact le_rfl
      · exact List.pairwise_iff_getElem.mp hsorted k (k + i) hk (by omega) (by omega)
    have hsplit : l.countP (· < l[k]) =
        (l.take k).countP (· < l[k]) + (l.drop k).countP (· < l[k]) := by
      rw [← List.countP_append, List.take_append_drop]
    have hfront : (l.take k).countP (· < l[k]) ≤ (l.take k).length := List.countP_le_length
    rw [List.length_take] at hfront
    omega

/-- The entry of a higher rank is no smaller. -/
theorem IsRank.mono (h : IsRank l k u) (h' : IsRank l m v) (hkm : k ≤ m) : u ≤ v := by
  by_contra hlt
  have hcount : l.countP (· ≤ v) ≤ l.countP (· < u) := by
    apply List.countP_mono_left
    intro a _ ha
    rw [decide_eq_true_eq] at ha ⊢
    exact lt_of_le_of_lt ha (not_le.mp hlt)
  have hv := h'.le_countP
  have hu := h.countP_lt
  omega

theorem IsRank.first (h : IsRank l 1 v) : ∀ a ∈ l, v ≤ a := by
  have hnone : l.countP (· < v) = 0 := Nat.lt_one_iff.mp h.countP_lt
  intro a ha
  have hlt := List.countP_eq_zero.mp hnone a ha
  rw [decide_eq_true_eq] at hlt
  exact not_lt.mp hlt

theorem IsRank.last (h : IsRank l l.length v) : ∀ a ∈ l, a ≤ v := by
  have hall : l.countP (· ≤ v) = l.length :=
    Nat.le_antisymm List.countP_le_length h.le_countP
  intro a ha
  exact decide_eq_true_eq.mp (List.countP_eq_length.mp hall a ha)

end Rank
