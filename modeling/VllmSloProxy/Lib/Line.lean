import Mathlib.Data.List.Nodup

/-!
# Waiting in line

Members ask to be served, are served from the front of a line, or leave it before their turn.  The
members asked in some order, so the line is right when those who did not leave are the served ones
followed by those who still wait.
-/

namespace Line

variable {α : Type*} [DecidableEq α] {a : α} {asked served left waiting : List α}

/-- Who has asked, who was served and who has left, each in order, and who is waiting now. -/
structure InLine (asked served left waiting : List α) : Prop where
  once : asked.Nodup
  leftAsked : left ⊆ asked
  order : asked.filter (· ∉ left) = served ++ waiting

theorem InLine.served_initial (h : InLine asked served left waiting) :
    served <+: asked.filter (· ∉ left) := by
  rw [h.order]
  exact List.prefix_append served waiting

theorem InLine.nodup (h : InLine asked served left waiting) : (served ++ waiting).Nodup := by
  rw [← h.order]
  exact h.once.filter _

theorem InLine.served_nodup (h : InLine asked served left waiting) : served.Nodup :=
  (List.nodup_append.mp h.nodup).1

theorem InLine.waiting_nodup (h : InLine asked served left waiting) : waiting.Nodup :=
  (List.nodup_append.mp h.nodup).2.1

theorem InLine.not_left_of_served (h : InLine asked served left waiting) (ha : a ∈ served) :
    a ∉ left := by
  have hmem : a ∈ asked.filter (· ∉ left) := h.served_initial.subset ha
  simpa using (List.mem_filter.mp hmem).2

theorem InLine.not_served_of_waiting (h : InLine asked served left waiting) (ha : a ∈ waiting) :
    a ∉ served :=
  fun hserved => List.disjoint_of_nodup_append h.nodup hserved ha

theorem InLine.asked_of_waiting (h : InLine asked served left waiting) (ha : a ∈ waiting) :
    a ∈ asked := by
  have hmem : a ∈ asked.filter (· ∉ left) := by
    rw [h.order]
    exact List.mem_append_right _ ha
  exact List.mem_of_mem_filter hmem

theorem InLine.not_left_of_waiting (h : InLine asked served left waiting) (ha : a ∈ waiting) :
    a ∉ left := by
  have hmem : a ∈ asked.filter (· ∉ left) := by
    rw [h.order]
    exact List.mem_append_right _ ha
  simpa using (List.mem_filter.mp hmem).2

/-- Who waits is known from the others. -/
theorem InLine.waiting_unique {waiting' : List α} (h : InLine asked served left waiting)
    (h' : InLine asked served left waiting') : waiting' = waiting :=
  List.append_cancel_left (h'.order.symm.trans h.order)

/-- A new member asks and goes to the end of the line. -/
theorem InLine.join (h : InLine asked served left waiting) (hnew : a ∉ asked) :
    InLine (asked ++ [a]) served left (waiting ++ [a]) := by
  have hstays : a ∉ left := fun hleft => hnew (h.leftAsked hleft)
  refine ⟨?_, fun b hb => List.mem_append_left _ (h.leftAsked hb), ?_⟩
  · rw [List.nodup_append]
    refine ⟨h.once, List.nodup_singleton a, fun b hb c hc heq => ?_⟩
    rw [List.mem_singleton.mp hc] at heq
    exact hnew (heq ▸ hb)
  · rw [List.filter_append, h.order, List.append_assoc]
    simp [hstays]

/-- The first in the line is served. -/
theorem InLine.serve (h : InLine asked served left (a :: waiting)) :
    InLine asked (served ++ [a]) left waiting := by
  refine ⟨h.once, h.leftAsked, ?_⟩
  rw [h.order, List.append_assoc]
  rfl

/-- Somebody in the line leaves it. -/
theorem InLine.leave (h : InLine asked served left waiting) (ha : a ∈ waiting) :
    InLine asked served (left ++ [a]) (waiting.filter (· ≠ a)) := by
  refine ⟨h.once, ?_, ?_⟩
  · intro b hb
    rcases List.mem_append.mp hb with hb | hb
    · exact h.leftAsked hb
    · rw [List.mem_singleton.mp hb]
      exact h.asked_of_waiting ha
  · have hserved : served.filter (· ≠ a) = served := by
      apply List.filter_eq_self.mpr
      intro b hb
      have hne : b ≠ a := fun heq => h.not_served_of_waiting ha (heq ▸ hb)
      exact decide_eq_true hne
    calc asked.filter (· ∉ left ++ [a])
        = (asked.filter (· ∉ left)).filter (· ≠ a) := by
          rw [List.filter_filter]
          apply List.filter_congr
          intro b _
          simp [and_comm]
      _ = served ++ waiting.filter (· ≠ a) := by
          rw [h.order, List.filter_append, hserved]

theorem InLine.length_leave (h : InLine asked served left waiting) (ha : a ∈ waiting) :
    (waiting.filter (· ≠ a)).length + 1 = waiting.length := by
  have herase : waiting.erase a = waiting.filter (· ≠ a) := by
    rw [h.waiting_nodup.erase_eq_filter]
    apply List.filter_congr
    intro b _
    by_cases hb : b = a <;> simp [hb]
  have hpos : 0 < waiting.length := List.length_pos_of_mem ha
  rw [← herase, List.length_erase_of_mem ha]
  omega

end Line
