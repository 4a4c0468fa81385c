import Mathlib.Data.List.DropRight

/-!
# The last entries of a history

What holds of the last `n` entries of a list that grows at its end.
-/

namespace Recent

variable {α : Type*} {p q : α → Prop} {n m : Nat} {l : List α} {a : α}

/-- The list has at least `n` entries, and `p` holds of the last `n`. -/
structure Recently (n : Nat) (p : α → Prop) (l : List α) : Prop where
  length : n ≤ l.length
  all : ∀ a ∈ l.rtake n, p a

theorem recently_zero : Recently 0 p l := by
  refine ⟨Nat.zero_le _, fun a ha => ?_⟩
  rw [List.rtake_zero] at ha
  cases ha

theorem Recently.snoc (h : Recently n p l) (ha : p a) : Recently (n + 1) p (l ++ [a]) := by
  refine ⟨?_, fun b hb => ?_⟩
  · rw [List.length_append, List.length_singleton]
    exact Nat.succ_le_succ h.length
  · rw [List.rtake_concat_succ] at hb
    rcases List.mem_append.mp hb with hb | hb
    · exact h.all b hb
    · exact List.mem_singleton.mp hb ▸ ha

theorem Recently.weaken (h : Recently n p l) (hle : m ≤ n) : Recently m p l := by
  refine ⟨hle.trans h.length, fun b hb => h.all b ?_⟩
  have hdrop : l.rtake m = (l.rtake n).drop (n - m) := by
    have hlength := h.length
    rw [List.rtake, List.rtake, List.drop_drop]
    congr 1
    omega
  rw [hdrop] at hb
  exact List.mem_of_mem_drop hb

theorem Recently.mono (h : Recently n p l) (hpq : ∀ a, p a → q a) : Recently n q l :=
  ⟨h.length, fun b hb => hpq b (h.all b hb)⟩

end Recent
