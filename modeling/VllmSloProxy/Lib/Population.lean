import Mathlib.Data.List.Basic
import Mathlib.Data.List.Nodup

/-!
# Counting in a population

A population is a list of members addressed by position.  Replacing one member changes a count by
what that member contributed before and contributes now.
-/

namespace Population

variable {α : Type*}

/-- What one member contributes to the count of `p`. -/
def share (p : α → Bool) (a : α) : Nat := if p a then 1 else 0

@[simp] theorem share_true {p : α → Bool} {a : α} (h : p a = true) : share p a = 1 := if_pos h

@[simp] theorem share_false {p : α → Bool} {a : α} (h : p a = false) : share p a = 0 :=
  if_neg (by simp [h])

theorem countP_set {p : α → Bool} {l : List α} {i : Nat} {old new : α} (h : l[i]? = some old) :
    (l.set i new).countP p + share p old = l.countP p + share p new := by
  induction l generalizing i with
  | nil => simp at h
  | cons a l ih =>
      cases i with
      | zero =>
          obtain rfl : a = old := by simpa using h
          simp only [List.set_cons_zero, List.countP_cons, share]
          omega
      | succ i =>
          have := ih (i := i) (by simpa using h)
          simp only [List.set_cons_succ, List.countP_cons]
          omega

theorem countP_set_of_eq {p : α → Bool} {l : List α} {i : Nat} {old new : α}
    (h : l[i]? = some old) (heq : p new = p old) : (l.set i new).countP p = l.countP p := by
  have hset : (l.set i new).countP p + share p old = l.countP p + share p new := countP_set h
  simp only [share, heq] at hset
  omega

theorem any_iff_countP {p : α → Bool} {l : List α} : l.any p = true ↔ 0 < l.countP p := by
  rw [List.any_eq_true, List.countP_pos_iff]

theorem any_set_of_eq {p : α → Bool} {l : List α} {i : Nat} {old new : α}
    (h : l[i]? = some old) (heq : p new = p old) : (l.set i new).any p = l.any p := by
  rw [Bool.eq_iff_iff, any_iff_countP, any_iff_countP, countP_set_of_eq h heq]

/-- After one has joined, a member is from before, or it is the one at the end. -/
theorem getElem?_snoc {l : List α} {a b : α} {i : Nat} (h : (l ++ [a])[i]? = some b) :
    l[i]? = some b ∨ i = l.length ∧ b = a := by
  rcases Nat.lt_or_ge i l.length with hlt | hle
  · rw [List.getElem?_append_left hlt] at h
    exact .inl h
  · rw [List.getElem?_append_right hle, List.getElem?_singleton] at h
    split at h
    · exact .inr ⟨by omega, (Option.some.inj h).symm⟩
    · cases h

theorem countP_snoc (p : α → Bool) (l : List α) (a : α) :
    (l ++ [a]).countP p = l.countP p + share p a := by
  rw [List.countP_append, List.countP_singleton, share]

theorem share_le_countP {p : α → Bool} {l : List α} {i : Nat} {a : α} (h : l[i]? = some a) :
    share p a ≤ l.countP p := by
  have hmem : a ∈ l := List.mem_of_getElem? h
  unfold share
  split
  · exact List.countP_pos_iff.mpr ⟨a, hmem, ‹_›⟩
  · exact Nat.zero_le _

theorem countP_range (p : α → Bool) (l : List α) :
    (List.range l.length).countP (fun i => l[i]?.any p) = l.countP p := by
  have hmap : (List.range l.length).map (fun i => l[i]?) = l.map some := by
    apply List.ext_getElem?
    intro i
    by_cases hi : i < l.length
    · simp [hi]
    · simp [hi]
  calc (List.range l.length).countP (fun i => l[i]?.any p)
      = ((List.range l.length).map fun i => l[i]?).countP (Option.any p) := by
        rw [List.countP_map]
        rfl
    _ = l.countP p := by
        rw [hmap, List.countP_map]
        rfl

/-- A list of the positions where `p` holds, each of them once, is as long as their number. -/
theorem length_eq_countP {p : α → Bool} {l : List α} {positions : List Nat}
    (hnodup : positions.Nodup)
    (hmem : ∀ i, i ∈ positions ↔ ∃ a, l[i]? = some a ∧ p a = true) :
    positions.length = l.countP p := by
  have hperm : positions.Perm ((List.range l.length).filter fun i => l[i]?.any p) := by
    refine (List.perm_ext_iff_of_nodup hnodup (List.nodup_range.filter _)).mpr fun i => ?_
    rw [hmem, List.mem_filter, List.mem_range, Option.any_eq_true]
    constructor
    · rintro ⟨a, ha, hp⟩
      exact ⟨(List.getElem?_eq_some_iff.mp ha).1, a, ha, hp⟩
    · exact fun h => h.2
  rw [hperm.length_eq, ← List.countP_eq_length_filter, countP_range]

/-- Where no two members have the property, at most one has. -/
theorem countP_le_one {p : α → Bool} {l : List α}
    (h : l.Pairwise fun a b => ¬ (p a = true ∧ p b = true)) : l.countP p ≤ 1 := by
  induction h with
  | nil => exact Nat.zero_le 1
  | @cons a l hfirst _ ih =>
      cases ha : p a with
      | false =>
          rw [List.countP_cons_of_neg (by rw [ha]; exact Bool.false_ne_true)]
          exact ih
      | true =>
          have hrest : l.countP p = 0 :=
            List.countP_eq_zero.mpr fun b hb hpb => hfirst b hb ⟨ha, hpb⟩
          exact Nat.le_of_eq (by rw [List.countP_cons_of_pos ha, hrest])

end Population
