import Mathlib.Tactic.Linarith
import Mathlib.Data.List.Infix
import Mathlib.Algebra.Order.Ring.Defs

/-!
# Budgets over windows of time

Amounts are taken at certain times.  A window may take up to a fixed capacity and, on top of it, a
rate times its length; a level that refills at that rate up to the capacity is the tightest bound
that all windows give together.
-/

namespace RateWindow

variable {K : Type*} [CommRing K] [LinearOrder K] [IsStrictOrderedRing K]
  {capacity rate s t n g : K} {past : List (K × K)}

/-- The amounts taken in a list of times and amounts. -/
def total (taken : List (K × K)) : K := (taken.map Prod.snd).sum

/-- After `past` an amount `n` may be taken at time `t`: no window that ends with it takes more than
its budget.  The first condition is the window that consists of `n` alone. -/
def Admits (capacity rate : K) (past : List (K × K)) (t n : K) : Prop :=
  n ≤ capacity ∧ ∀ s g rest, ((s, g) :: rest) <:+ past →
    g + total rest + n ≤ capacity + rate * (t - s)

section Totals

omit [LinearOrder K] [IsStrictOrderedRing K]

@[simp] theorem total_nil : total ([] : List (K × K)) = 0 := rfl

@[simp] theorem total_snoc (taken : List (K × K)) :
    total (taken ++ [(s, g)]) = total taken + g := by
  simp [total]

end Totals

omit [IsStrictOrderedRing K] in
theorem admits_nil : Admits capacity rate [] t n ↔ n ≤ capacity := by
  refine ⟨And.left, fun h => ⟨h, fun s g rest hsuffix => ?_⟩⟩
  cases List.suffix_nil.mp hsuffix

/-- What is taken last can be counted as part of what is taken next, less what the time in between
allows. -/
theorem admits_snoc : Admits capacity rate (past ++ [(s, g)]) t n ↔
    n ≤ capacity ∧ Admits capacity rate past s (g + n - rate * (t - s)) := by
  unfold Admits
  refine and_congr_right fun _ => ⟨fun h => ⟨?_, ?_⟩, fun h s' g' rest hsuffix => ?_⟩
  · have hlast := h s g [] (List.suffix_append past [(s, g)])
    rw [total_nil] at hlast
    linarith
  · intro s' g' rest hsuffix
    have hlonger : (s', g') :: (rest ++ [(s, g)]) <:+ past ++ [(s, g)] := by
      rw [← List.cons_append]
      exact (List.suffix_append_inj_of_length_eq rfl).mpr ⟨hsuffix, rfl⟩
    have hwindow := h s' g' (rest ++ [(s, g)]) hlonger
    rw [total_snoc] at hwindow
    linarith
  · rcases List.suffix_concat_iff.mp hsuffix with hnil | ⟨front, hfront, hsuffix'⟩
    · cases hnil
    · cases front with
      | nil =>
          obtain ⟨hhead, rfl⟩ := List.cons.inj hfront
          obtain ⟨rfl, rfl⟩ := Prod.mk.inj hhead
          rw [total_nil]
          linarith [h.1]
      | cons first front =>
          obtain ⟨rfl, rfl⟩ := List.cons.inj hfront
          have hwindow := h.2 s' g' front hsuffix'
          show g' + total (front ++ [(s, g)]) + n ≤ _
          rw [total_snoc]
          linarith

/-- `y` is the most that may be taken at time `t`. -/
def Tight (capacity rate : K) (past : List (K × K)) (t y : K) : Prop :=
  ∀ n, n ≤ y ↔ Admits capacity rate past t n

omit [IsStrictOrderedRing K] in
theorem tight_fresh : Tight capacity rate [] t capacity := fun _ => admits_nil.symm

/-- When `g` is taken the level falls by `g`, and until the next time it refills. -/
theorem Tight.next {y : K} (h : Tight capacity rate past s y) :
    Tight capacity rate (past ++ [(s, g)]) t (min capacity (y - g + rate * (t - s))) := by
  intro n
  rw [le_min_iff, admits_snoc, ← h]
  refine and_congr_right fun _ => ⟨fun hn => ?_, fun hn => ?_⟩
  · linarith
  · linarith

end RateWindow
