import Mathlib.Algebra.Ring.Nat
import Mathlib.Data.List.Induction

/-!
# Splitting at a delimiter

A list is read as segments, each ended by a delimiter, and an unfinished tail.  The split of a list
is determined by the split of any prefix and what follows, so it can be computed piece by piece.
-/

namespace Delimited

variable {α : Type*} [DecidableEq α]

/-- The text before the first delimiter and the text after it. -/
def splitFirst (d : α) : List α → Option (List α × List α)
  | [] => none
  | a :: s =>
      if a = d then some ([], s)
      else (splitFirst d s).map fun r => (a :: r.1, r.2)

/-- The segments that are ended by a delimiter, and the tail after the last one. -/
def segments (d : α) : List α → List (List α) × List α
  | [] => ([], [])
  | a :: s =>
      if a = d then ([] :: (segments d s).1, (segments d s).2)
      else
        match (segments d s).1 with
        | [] => ([], a :: (segments d s).2)
        | l :: ls => ((a :: l) :: ls, (segments d s).2)

variable {d : α}

@[simp] theorem segments_nil : segments d [] = ([], []) := rfl

@[simp] theorem segments_cons_self (s : List α) :
    segments d (d :: s) = ([] :: (segments d s).1, (segments d s).2) := if_pos rfl

theorem segments_cons_of_ne {a : α} (h : a ≠ d) (s : List α) :
    segments d (a :: s) =
      match (segments d s).1 with
      | [] => ([], a :: (segments d s).2)
      | l :: ls => ((a :: l) :: ls, (segments d s).2) := if_neg h

theorem segments_of_splitFirst_none {s : List α} (h : splitFirst d s = none) :
    segments d s = ([], s) := by
  induction s with
  | nil => rfl
  | cons a s ih =>
      unfold splitFirst at h
      split at h
      · cases h
      · rename_i ha
        rw [segments_cons_of_ne ha, ih (Option.map_eq_none_iff.mp h)]

theorem segments_of_splitFirst_some {s l r : List α} (h : splitFirst d s = some (l, r)) :
    segments d s = (l :: (segments d r).1, (segments d r).2) := by
  induction s generalizing l with
  | nil => cases h
  | cons a s ih =>
      unfold splitFirst at h
      split at h
      · rename_i ha
        obtain ⟨rfl, rfl⟩ := Prod.mk.inj (Option.some.inj h)
        rw [ha, segments_cons_self]
      · rename_i ha
        obtain ⟨⟨l', r'⟩, hs, heq⟩ := Option.map_eq_some_iff.mp h
        obtain ⟨rfl, rfl⟩ := Prod.mk.inj heq
        rw [segments_cons_of_ne ha, ih hs]

theorem length_of_splitFirst {s l r : List α} (h : splitFirst d s = some (l, r)) :
    s.length = l.length + 1 + r.length := by
  induction s generalizing l with
  | nil => cases h
  | cons a s ih =>
      unfold splitFirst at h
      split at h
      · obtain ⟨rfl, rfl⟩ := Prod.mk.inj (Option.some.inj h)
        simp only [List.length_cons, List.length_nil]
        omega
      · obtain ⟨⟨l', r'⟩, hs, heq⟩ := Option.map_eq_some_iff.mp h
        obtain ⟨rfl, rfl⟩ := Prod.mk.inj heq
        have hrec : s.length = l'.length + 1 + r'.length := ih hs
        simp only [List.length_cons]
        omega

theorem splitFirst_append {l : List α} (h : d ∉ l) (r : List α) :
    splitFirst d (l ++ d :: r) = some (l, r) := by
  induction l with
  | nil => exact if_pos rfl
  | cons a l ih =>
      rw [List.mem_cons, not_or] at h
      rw [List.cons_append, splitFirst, if_neg fun ha => h.1 ha.symm, ih h.2]
      rfl

/-- One more element either ends the tail or extends it. -/
theorem segments_snoc (s : List α) (a : α) :
    segments d (s ++ [a]) =
      if a = d then ((segments d s).1 ++ [(segments d s).2], [])
      else ((segments d s).1, (segments d s).2 ++ [a]) := by
  induction s with
  | nil =>
      by_cases ha : a = d
      · subst ha; simp
      · simp [segments_cons_of_ne ha, ha]
  | cons b s ih =>
      rw [List.cons_append]
      by_cases hb : b = d
      · subst hb
        rw [segments_cons_self, segments_cons_self, ih]
        split <;> rfl
      · rw [segments_cons_of_ne hb, segments_cons_of_ne hb, ih]
        by_cases ha : a = d
        · cases (segments d s).1 <;> simp [ha]
        · cases (segments d s).1 <;> simp [ha]

theorem notMem_tail (s : List α) : d ∉ (segments d s).2 := by
  induction s using List.reverseRecOn with
  | nil => exact List.not_mem_nil
  | append_singleton s a ih =>
      rw [segments_snoc]
      by_cases ha : a = d
      · rw [if_pos ha]
        exact List.not_mem_nil
      · rw [if_neg ha, List.mem_append, List.mem_singleton, not_or]
        exact ⟨ih, fun h => ha h.symm⟩

theorem segments_of_notMem {s : List α} (h : d ∉ s) : segments d s = ([], s) := by
  induction s using List.reverseRecOn with
  | nil => rfl
  | append_singleton s a ih =>
      rw [List.mem_append, List.mem_singleton, not_or] at h
      rw [segments_snoc, if_neg fun ha => h.2 ha.symm, ih h.1]

/-- Each segment takes its own length and the delimiter. -/
theorem length_segments (s : List α) :
    ((segments d s).1.map fun l => l.length + 1).sum + (segments d s).2.length = s.length := by
  induction s using List.reverseRecOn with
  | nil => rfl
  | append_singleton s a ih =>
      rw [segments_snoc, List.length_append, List.length_singleton]
      by_cases ha : a = d
      · rw [if_pos ha, List.map_append, List.sum_append, List.map_singleton, List.sum_singleton,
          List.length_nil]
        omega
      · rw [if_neg ha]
        dsimp only
        rw [List.length_append, List.length_singleton]
        omega

/-- Reading on: the tail so far and the new text are split together. -/
theorem segments_append (s t : List α) :
    segments d (s ++ t) =
      ((segments d s).1 ++ (segments d ((segments d s).2 ++ t)).1,
        (segments d ((segments d s).2 ++ t)).2) := by
  induction t using List.reverseRecOn with
  | nil =>
      have htail : segments d (segments d s).2 = ([], (segments d s).2) :=
        segments_of_notMem (notMem_tail s)
      rw [List.append_nil, List.append_nil, htail, List.append_nil]
  | append_singleton t a ih =>
      rw [← List.append_assoc, ← List.append_assoc, segments_snoc, segments_snoc, ih]
      split
      · rw [List.append_assoc]
      · rfl

/-- The segments and the tail are what `List.splitOn` gives. -/
theorem splitOn_eq_segments [BEq α] [LawfulBEq α] (s : List α) :
    s.splitOn d = (segments d s).1 ++ [(segments d s).2] := by
  induction s with
  | nil => rfl
  | cons a s ih =>
      rw [List.splitOn_cons_eq_if_modifyHead, ih]
      by_cases ha : a = d
      · subst ha; simp
      · rw [segments_cons_of_ne ha, if_neg (by simpa using ha)]
        cases (segments d s).1 <;> rfl

theorem dropLast_splitOn [BEq α] [LawfulBEq α] (s : List α) :
    (s.splitOn d).dropLast = (segments d s).1 := by
  rw [splitOn_eq_segments, List.dropLast_concat]

theorem getLast_splitOn [BEq α] [LawfulBEq α] (s : List α) :
    (s.splitOn d).getLast (List.splitOn_ne_nil d s) = (segments d s).2 := by
  simp [splitOn_eq_segments]

end Delimited
