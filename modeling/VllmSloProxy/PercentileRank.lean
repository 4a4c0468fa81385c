import Mathlib.Algebra.Order.Field.Rat
import Mathlib.Data.List.DropRight
import Mathlib.Data.List.ReduceOption
import Mathlib.Data.List.Sort
import VllmSloProxy.Lib.Rank
import VllmSloProxy.SlidingWindow

/-!
# What the percentiles of a sliding window are

The window holds the last accepted samples, as many as its capacity, and a percentile is the sample
of nearest rank among them.
-/

namespace VllmSloProxy

open Rank

namespace SlidingWindow

variable {α : Type}

/-- A call of `add_sample`; one that throws leaves the window as it was. -/
def add (w : SlidingWindow α) (value : Option α) : SlidingWindow α :=
  match w.addSample value with
  | .ok w => w
  | .error _ => w

def addAll (w : SlidingWindow α) (values : List (Option α)) : SlidingWindow α := values.foldl add w

theorem addAll_snoc (w : SlidingWindow α) (values : List (Option α)) (value : Option α) :
    w.addAll (values ++ [value]) = (w.addAll values).add value :=
  List.foldl_concat ..

/-- The last entries of a list that has one more. -/
theorem rtake_snoc {n : Nat} (hn : 0 < n) (l : List α) (a : α) :
    (l ++ [a]).rtake n =
      (if (l.rtake n).length = n then (l.rtake n).tail else l.rtake n) ++ [a] := by
  -- a full list gives up its first entry for the new one
  obtain ⟨m, rfl⟩ := Nat.exists_eq_succ_of_ne_zero hn.ne'
  rw [List.rtake_concat_succ]
  congr 1
  unfold List.rtake
  rw [List.length_drop]
  split
  · rename_i hfull
    rw [List.tail_drop]
    congr 1
    omega
  · rename_i hspare
    have hm : l.length - m = 0 := by omega
    have hm' : l.length - (m + 1) = 0 := by omega
    rw [hm, hm']

theorem add_some (w : SlidingWindow α) (value : α) :
    (w.add (some value)).samples = w.pushed value ∧
      (w.add (some value)).capacity = w.capacity := ⟨rfl, rfl⟩

/-- The window holds the last of the accepted samples, as many as fit. -/
structure Holds (capacity : Nat) (w : SlidingWindow α) (accepted : List α) : Prop where
  capacity_eq : w.capacity = capacity
  samples_eq : w.samples = accepted.rtake capacity

variable {capacity : Nat} {w : SlidingWindow α} {accepted : List α}

theorem holds_create (h : create capacity = .ok w) : Holds capacity w [] := by
  unfold create at h
  split at h
  · cases h
  · cases h
    exact ⟨rfl, (List.rtake_nil capacity).symm⟩

theorem Holds.add (h : Holds capacity w accepted) (value : Option α) :
    Holds capacity (w.add value) (accepted ++ value.toList) := by
  cases value with
  | none =>
      rw [Option.toList_none, List.append_nil]
      exact h
  | some value =>
      have hpos : 0 < capacity := h.capacity_eq ▸ w.capacity_pos
      refine ⟨h.capacity_eq, ?_⟩
      rw [(w.add_some value).1, pushed, h.capacity_eq, h.samples_eq]
      exact (rtake_snoc hpos accepted value).symm

theorem Holds.addAll (h : Holds capacity w accepted) (values : List (Option α)) :
    Holds capacity (w.addAll values) (accepted ++ values.reduceOption) := by
  induction values generalizing w accepted with
  | nil => rwa [List.reduceOption_nil, List.append_nil]
  | cons value values ih =>
      have hsplit : (value :: values).reduceOption = value.toList ++ values.reduceOption := by
        cases value <;> simp
      rw [hsplit, ← List.append_assoc]
      exact ih (h.add value)

variable [LinearOrder α]

/-- The rank that the `p`-th percentile of `n` samples has. -/
def nearestRank (p : ℚ) (n : Nat) : Nat := max 1 ⌈p / 100 * n⌉.toNat

theorem nearestRank_pos (p : ℚ) (n : Nat) : 1 ≤ nearestRank p n := le_max_left _ _

theorem nearestRank_le {p : ℚ} {n : Nat} (hp : p ≤ 100) (hn : 0 < n) : nearestRank p n ≤ n := by
  have hshare : p / 100 ≤ 1 := by
    rw [div_le_one (by norm_num)]
    exact hp
  have hceil : ⌈p / 100 * n⌉ ≤ (n : ℤ) := by
    rw [Int.ceil_le, Int.cast_natCast]
    exact mul_le_of_le_one_left (Nat.cast_nonneg n) hshare
  exact max_le hn (Int.toNat_le.mpr hceil)

theorem nearestRank_mono {p q : ℚ} (hpq : p ≤ q) (n : Nat) :
    nearestRank p n ≤ nearestRank q n := by
  have hshare : p / 100 * n ≤ q / 100 * n := by gcongr
  exact max_le_max le_rfl (Int.toNat_le_toNat (Int.ceil_le_ceil hshare))

theorem nearestRank_zero (n : Nat) : nearestRank 0 n = 1 := by
  rw [nearestRank, zero_div, zero_mul, Int.ceil_zero]
  rfl

theorem nearestRank_hundred {n : Nat} (hn : 0 < n) : nearestRank 100 n = n := by
  rw [nearestRank, div_self (by norm_num), one_mul, Int.ceil_natCast, Int.toNat_natCast]
  exact max_eq_right hn

theorem percentile_nil {p : ℚ} (hp : 0 ≤ p ∧ p ≤ 100) (hempty : w.samples = []) :
    w.percentile (some p) = .ok none := by
  have hrange : ¬ (p < 0 ∨ 100 < p) := not_or.mpr ⟨not_lt.mpr hp.1, not_lt.mpr hp.2⟩
  rw [percentile, if_neg hrange, if_pos hempty]

/-- The index is in range without the clamp, and the value there is the one of nearest rank. -/
theorem percentile_spec {p : ℚ} (hp : 0 ≤ p ∧ p ≤ 100) (hsome : w.samples ≠ []) :
    ∃ v, w.percentile (some p) = .ok (some v) ∧
      IsRank w.samples (nearestRank p w.samples.length) v := by
  have hrange : ¬ (p < 0 ∨ 100 < p) := not_or.mpr ⟨not_lt.mpr hp.1, not_lt.mpr hp.2⟩
  have hpos : 0 < w.samples.length := List.length_pos_of_ne_nil hsome
  have hperm : (w.samples.mergeSort (· ≤ ·)).Perm w.samples := List.mergeSort_perm _ _
  have hsorted : (w.samples.mergeSort (· ≤ ·)).Pairwise (· ≤ ·) := List.pairwise_mergeSort' _ _
  have hlength : (w.samples.mergeSort (· ≤ ·)).length = w.samples.length := hperm.length_eq
  have hle : nearestRank p w.samples.length ≤ w.samples.length := nearestRank_le hp.2 hpos
  have hfirst : 1 ≤ nearestRank p w.samples.length := nearestRank_pos p _
  have hindex : nearestRank p w.samples.length - 1 < (w.samples.mergeSort (· ≤ ·)).length := by
    omega
  -- the entry at an index of the sorted samples has the rank after that index
  have hrank := (isRank_getElem hsorted hindex).perm hperm
  rw [Nat.sub_add_cancel hfirst] at hrank
  refine ⟨_, ?_, hrank⟩
  rw [percentile, if_neg hrange, if_neg hsome, ← List.getElem?_eq_getElem hindex]
  dsimp only
  by_cases hzero : p = 0
  · -- the source takes the front for the percentile zero
    rw [if_pos hzero, hzero, nearestRank_zero, List.head?_eq_getElem?]
  · -- the clamp to the last index changes nothing
    rw [if_neg hzero, hlength]
    congr 2
    unfold nearestRank at hle ⊢
    omega

/-- The percentiles of a window are the samples of nearest rank among the recent ones. -/
structure NearestRank (w : SlidingWindow α) (recent : List α) : Prop where
  none_iff : ∀ p : ℚ, 0 ≤ p → p ≤ 100 → (w.percentile (some p) = .ok none ↔ recent = [])
  ranked : ∀ p : ℚ, 0 ≤ p → p ≤ 100 → recent ≠ [] →
    nearestRank p recent.length - 1 < recent.length ∧
      ∃ v, w.percentile (some p) = .ok (some v) ∧ IsRank recent (nearestRank p recent.length) v
  monotone : ∀ (p q : ℚ) (u v : α), 0 ≤ p → p ≤ q → q ≤ 100 →
    w.percentile (some p) = .ok (some u) → w.percentile (some q) = .ok (some v) → u ≤ v
  zero : w.percentile (some 0) = .ok recent.min?
  hundred : w.percentile (some 100) = .ok recent.max?

theorem percentile_eq_some {p : ℚ} {v : α} (hp : 0 ≤ p ∧ p ≤ 100)
    (h : w.percentile (some p) = .ok (some v)) :
    IsRank w.samples (nearestRank p w.samples.length) v := by
  by_cases hempty : w.samples = []
  · rw [percentile_nil hp hempty] at h
    cases h
  · obtain ⟨v', hv', hrank⟩ := percentile_spec hp hempty
    rw [hv'] at h
    cases h
    exact hrank

theorem Holds.nearestRank (h : Holds capacity w accepted) :
    NearestRank w (accepted.rtake capacity) := by
  rw [← h.samples_eq]
  refine ⟨fun p hp0 hp => ⟨fun hnone => ?_, percentile_nil ⟨hp0, hp⟩⟩,
    fun p hp0 hp hsome => ⟨?_, percentile_spec ⟨hp0, hp⟩ hsome⟩,
    fun p q u v hp0 hpq hq hu hv => ?_, ?_, ?_⟩
  · by_contra hsome
    obtain ⟨v, hv, -⟩ := percentile_spec ⟨hp0, hp⟩ hsome
    rw [hv] at hnone
    cases hnone
  · have hle := nearestRank_le hp (List.length_pos_of_ne_nil hsome)
    have hpos := List.length_pos_of_ne_nil hsome
    omega
  · exact (percentile_eq_some ⟨hp0, hpq.trans hq⟩ hu).mono
      (percentile_eq_some ⟨hp0.trans hpq, hq⟩ hv) (nearestRank_mono hpq _)
  · by_cases hempty : w.samples = []
    · rw [percentile_nil (by norm_num) hempty, hempty]
      rfl
    · obtain ⟨v, hv, hrank⟩ := percentile_spec (p := 0) (by norm_num) hempty
      rw [nearestRank_zero] at hrank
      rw [hv, List.min?_eq_some_iff.mpr ⟨hrank.mem, hrank.first⟩]
  · by_cases hempty : w.samples = []
    · rw [percentile_nil (by norm_num) hempty, hempty]
      rfl
    · obtain ⟨v, hv, hrank⟩ := percentile_spec (p := 100) (by norm_num) hempty
      rw [nearestRank_hundred (List.length_pos_of_ne_nil hempty)] at hrank
      rw [hv, List.max?_eq_some_iff.mpr ⟨hrank.mem, hrank.last⟩]

/-- Whatever the samples, the window holds the accepted ones of the last `capacity`, and every
percentile in the range is one of nearest rank.  A sample that is not finite throws and changes
nothing. -/
theorem create_nearestRank (hcapacity : 0 < capacity) :
    ∃ w : SlidingWindow α, create capacity = .ok w ∧ ∀ values : List (Option α),
      NearestRank (w.addAll values) (values.reduceOption.rtake capacity) ∧
      (∀ value, (w.addAll values).addSample (some value) =
        .ok (w.addAll (values ++ [some value]))) ∧
      (w.addAll values).addSample none = .error "SlidingWindow sample must be finite" ∧
      w.addAll (values ++ [none]) = w.addAll values := by
  obtain ⟨w, h⟩ : ∃ w : SlidingWindow α, create capacity = .ok w := ⟨_, dif_neg hcapacity.ne'⟩
  refine ⟨w, h, fun values => ⟨((holds_create h).addAll values).nearestRank, fun value => ?_, rfl,
    addAll_snoc w values none⟩⟩
  rw [addAll_snoc]
  rfl

theorem create_nearestRank_three :
    ∃ w : SlidingWindow ℚ, create 3 = .ok w ∧ ∀ values : List (Option ℚ),
      NearestRank (w.addAll values) (values.reduceOption.rtake 3) ∧
      (∀ value, (w.addAll values).addSample (some value) =
        .ok (w.addAll (values ++ [some value]))) ∧
      (w.addAll values).addSample none = .error "SlidingWindow sample must be finite" ∧
      w.addAll (values ++ [none]) = w.addAll values :=
  create_nearestRank (by decide)

end SlidingWindow

end VllmSloProxy
