import Mathlib.Data.Finset.Card
import VllmSloProxy.Lib.Run

/-!
# A counter with a waiting room

A fixed number of desks, and chairs for a line in front of them.  Who comes is served at once, takes
a chair, or is refused; who waits is called in from the front of the line or gives up.
-/

namespace WaitingRoom

open Transition

variable {α : Type*} [DecidableEq α] {desks chairs : Nat}

/-- Who is at a desk, and who waits in which order. -/
structure Room (α : Type*) [DecidableEq α] (desks chairs : Nat) where
  atDesk : Finset α
  line : List α
  atDesk_le : atDesk.card ≤ desks
  line_le : line.length ≤ chairs
  line_nodup : line.Nodup
  apart : ∀ a ∈ line, a ∉ atDesk

inductive Visit (α : Type*) where
  | enter (a : α)
  | wait (a : α)
  | refuse (a : α)
  | callIn (a : α)
  | giveUp (a : α)
  | leave (a : α)

namespace Visit

def who : Visit α → α
  | .enter a | .wait a | .refuse a | .callIn a | .giveUp a | .leave a => a

def arrives : Visit α → Bool
  | .enter _ | .wait _ | .refuse _ => true
  | _ => false

def departs : Visit α → Bool
  | .refuse _ | .giveUp _ | .leave _ => true
  | _ => false

def calls : Visit α → Bool
  | .callIn _ => true
  | _ => false

end Visit

namespace Room

def empty : Room α desks chairs where
  atDesk := ∅
  line := []
  atDesk_le := Nat.zero_le _
  line_le := Nat.zero_le _
  line_nodup := List.nodup_nil
  apart _ hmem := nomatch hmem

/-- `a` is neither at a desk nor in the line. -/
def Outside (r : Room α desks chairs) (a : α) : Prop := a ∉ r.atDesk ∧ a ∉ r.line

instance (r : Room α desks chairs) (a : α) : Decidable (r.Outside a) :=
  inferInstanceAs (Decidable (_ ∧ _))

/-- `a` takes a free desk. -/
def seat (r : Room α desks chairs) (a : α) (line : List α) (hfree : r.atDesk.card < desks)
    (hline : line.Sublist r.line) (hnot : a ∉ line) : Room α desks chairs where
  atDesk := insert a r.atDesk
  line := line
  atDesk_le := (Finset.card_insert_le a r.atDesk).trans hfree
  line_le := hline.length_le.trans r.line_le
  line_nodup := r.line_nodup.sublist hline
  apart b hb hmem := by
    rcases Finset.mem_insert.mp hmem with heq | hmem
    · exact hnot (heq ▸ hb)
    · exact r.apart b (hline.subset hb) hmem

def join (r : Room α desks chairs) (a : α) (hout : r.Outside a) (hroom : r.line.length < chairs) :
    Room α desks chairs where
  atDesk := r.atDesk
  line := r.line ++ [a]
  atDesk_le := r.atDesk_le
  line_le := by
    rw [List.length_append]
    exact hroom
  line_nodup := by
    rw [← List.concat_eq_append]
    exact r.line_nodup.concat hout.2
  apart b hb := by
    rcases List.mem_append.mp hb with hb | hb
    · exact r.apart b hb
    · exact List.mem_singleton.mp hb ▸ hout.1

/-- Somebody leaves the line or the desks. -/
def less (r : Room α desks chairs) (atDesk : Finset α) (line : List α)
    (hdesk : atDesk ⊆ r.atDesk) (hline : line.Sublist r.line) : Room α desks chairs where
  atDesk := atDesk
  line := line
  atDesk_le := (Finset.card_le_card hdesk).trans r.atDesk_le
  line_le := hline.length_le.trans r.line_le
  line_nodup := r.line_nodup.sublist hline
  apart b hb hmem := r.apart b (hline.subset hb) (hdesk hmem)

theorem head_not_mem_tail {r : Room α desks chairs} {a : α} (h : r.line.head? = some a) :
    a ∉ r.line.tail := by
  have hnodup := r.line_nodup
  rw [List.eq_cons_of_mem_head? h] at hnodup
  exact (List.nodup_cons.mp hnodup).1

def step (r : Room α desks chairs) : Visit α → Option (Room α desks chairs)
  | .enter a =>
      if h : r.Outside a ∧ r.atDesk.card < desks then
        some (r.seat a r.line h.2 (List.Sublist.refl _) h.1.2)
      else none
  | .wait a =>
      if h : r.Outside a ∧ desks ≤ r.atDesk.card ∧ r.line.length < chairs then
        some (r.join a h.1 h.2.2)
      else none
  | .refuse a =>
      if r.Outside a ∧ desks ≤ r.atDesk.card ∧ chairs ≤ r.line.length then some r else none
  | .callIn a =>
      if h : r.line.head? = some a ∧ r.atDesk.card < desks then
        some (r.seat a r.line.tail h.2 (List.tail_sublist _) (head_not_mem_tail h.1))
      else none
  | .giveUp a =>
      if a ∈ r.line then
        some (r.less r.atDesk (r.line.erase a) (Finset.Subset.refl _) List.erase_sublist)
      else none
  | .leave a =>
      if a ∈ r.atDesk then
        some (r.less (r.atDesk.erase a) r.line (Finset.erase_subset _ _) (List.Sublist.refl _))
      else none

theorem enter_step {r : Room α desks chairs} {a : α} (hout : r.Outside a)
    (hfree : r.atDesk.card < desks) :
    ∃ r', step r (.enter a) = some r' ∧ r'.atDesk = insert a r.atDesk ∧ r'.line = r.line :=
  ⟨_, dif_pos ⟨hout, hfree⟩, rfl, rfl⟩

theorem wait_step {r : Room α desks chairs} {a : α} (hout : r.Outside a)
    (hfull : desks ≤ r.atDesk.card) (hroom : r.line.length < chairs) :
    ∃ r', step r (.wait a) = some r' ∧ r'.atDesk = r.atDesk ∧ r'.line = r.line ++ [a] :=
  ⟨_, dif_pos ⟨hout, hfull, hroom⟩, rfl, rfl⟩

theorem refuse_step {r : Room α desks chairs} {a : α} (hout : r.Outside a)
    (hfull : desks ≤ r.atDesk.card) (hcrowded : chairs ≤ r.line.length) :
    step r (.refuse a) = some r :=
  if_pos ⟨hout, hfull, hcrowded⟩

theorem callIn_step {r : Room α desks chairs} {a : α} {line : List α} (hline : r.line = a :: line)
    (hfree : r.atDesk.card < desks) :
    ∃ r', step r (.callIn a) = some r' ∧ r'.atDesk = insert a r.atDesk ∧ r'.line = line := by
  refine ⟨_, dif_pos ⟨by rw [hline, List.head?_cons], hfree⟩, rfl, ?_⟩
  show r.line.tail = line
  rw [hline]
  rfl

theorem giveUp_step {r : Room α desks chairs} {a : α} (hmem : a ∈ r.line) :
    ∃ r', step r (.giveUp a) = some r' ∧ r'.atDesk = r.atDesk ∧ r'.line = r.line.erase a :=
  ⟨_, if_pos hmem, rfl, rfl⟩

theorem leave_step {r : Room α desks chairs} {a : α} (hmem : a ∈ r.atDesk) :
    ∃ r', step r (.leave a) = some r' ∧ r'.atDesk = r.atDesk.erase a ∧ r'.line = r.line :=
  ⟨_, if_pos hmem, rfl, rfl⟩

/-- As many members as there are free desks can be called in one after the other. -/
theorem callIn_run {r : Room α desks chairs} {members line : List α} {atDesk : Finset α}
    (hline : r.line = members ++ line) (hdesk : atDesk = r.atDesk ∪ members.toFinset)
    (hfree : atDesk.card ≤ desks) :
    ∃ r', run step r (members.map .callIn) = some r' ∧ r'.atDesk = atDesk ∧ r'.line = line := by
  induction members generalizing r with
  | nil => exact ⟨r, rfl, by simp [hdesk], hline⟩
  | cons a members ih =>
      have hout : a ∉ r.atDesk := r.apart a (by rw [hline]; exact List.mem_cons_self)
      have hone : r.atDesk.card + 1 ≤ atDesk.card := by
        rw [← Finset.card_insert_of_notMem hout]
        apply Finset.card_le_card
        rw [hdesk, List.toFinset_cons, Finset.union_insert]
        exact Finset.insert_subset_insert a Finset.subset_union_left
      obtain ⟨r₁, hstep, hdesk₁, hline₁⟩ := callIn_step (a := a) hline (by omega)
      obtain ⟨r', hrun, hfinal⟩ := ih hline₁ (by
        rw [hdesk, hdesk₁, List.toFinset_cons, Finset.union_insert, Finset.insert_union])
      refine ⟨r', ?_, hfinal⟩
      rw [List.map_cons, run_cons, hstep]
      exact hrun

/-- What each visit does to the desks and to the line. -/
inductive Goes (r r' : Room α desks chairs) : Visit α → Prop
  | entered (a : α) (hout : r.Outside a) (hfree : r.atDesk.card < desks)
      (hdesk : r'.atDesk = insert a r.atDesk) (hline : r'.line = r.line) : Goes r r' (.enter a)
  | waited (a : α) (hout : r.Outside a) (hfull : desks ≤ r.atDesk.card)
      (hroom : r.line.length < chairs) (hdesk : r'.atDesk = r.atDesk)
      (hline : r'.line = r.line ++ [a]) : Goes r r' (.wait a)
  | refused (a : α) (hout : r.Outside a) (hfull : desks ≤ r.atDesk.card)
      (hcrowded : chairs ≤ r.line.length) (hsame : r' = r) : Goes r r' (.refuse a)
  | calledIn (a : α) (hfree : r.atDesk.card < desks) (hdesk : r'.atDesk = insert a r.atDesk)
      (hline : r.line = a :: r'.line) : Goes r r' (.callIn a)
  | gaveUp (a : α) (hmem : a ∈ r.line) (hdesk : r'.atDesk = r.atDesk)
      (hline : r'.line = r.line.erase a) : Goes r r' (.giveUp a)
  | left (a : α) (hmem : a ∈ r.atDesk) (hdesk : r'.atDesk = r.atDesk.erase a)
      (hline : r'.line = r.line) : Goes r r' (.leave a)

variable {r r' : Room α desks chairs} {v : Visit α} {visits : List (Visit α)} {a : α}

theorem goes_of_step (h : step r v = some r') : Goes r r' v := by
  cases v with
  | enter a =>
      simp only [step] at h
      split at h
      · rename_i hguard
        cases h
        exact .entered a hguard.1 hguard.2 rfl rfl
      · cases h
  | wait a =>
      simp only [step] at h
      split at h
      · rename_i hguard
        cases h
        exact .waited a hguard.1 hguard.2.1 hguard.2.2 rfl rfl
      · cases h
  | refuse a =>
      simp only [step] at h
      split at h
      · rename_i hguard
        cases h
        exact .refused a hguard.1 hguard.2.1 hguard.2.2 rfl
      · cases h
  | callIn a =>
      simp only [step] at h
      split at h
      · rename_i hguard
        cases h
        exact .calledIn a hguard.2 rfl (List.eq_cons_of_mem_head? hguard.1)
      · cases h
  | giveUp a =>
      simp only [step] at h
      split at h
      · rename_i hmem
        cases h
        exact .gaveUp a hmem rfl rfl
      · cases h
  | leave a =>
      simp only [step] at h
      split at h
      · rename_i hmem
        cases h
        exact .left a hmem rfl rfl
      · cases h

/-- Who has come is at a desk, in the line, or gone. -/
theorem Goes.balance (h : Goes r r' v) :
    [v].countP Visit.arrives + (r.atDesk.card + r.line.length) =
      [v].countP Visit.departs + (r'.atDesk.card + r'.line.length) := by
  cases h with
  | entered a hout _ hdesk hline =>
      have hcard : r'.atDesk.card = r.atDesk.card + 1 := by
        rw [hdesk, Finset.card_insert_of_notMem hout.1]
      simp only [List.countP_singleton, Visit.arrives, Visit.departs, Bool.false_eq_true,
        reduceIte, hline]
      omega
  | waited a _ _ _ hdesk hline =>
      simp only [List.countP_singleton, Visit.arrives, Visit.departs, Bool.false_eq_true,
        reduceIte, hdesk, hline, List.length_append, List.length_singleton]
      omega
  | refused a _ _ _ hsame => rw [hsame]; rfl
  | calledIn a _ hdesk hline =>
      -- it was in the line, so it was at no desk
      have hout : a ∉ r.atDesk := r.apart a (by rw [hline]; exact List.mem_cons_self)
      have hcard : r'.atDesk.card = r.atDesk.card + 1 := by
        rw [hdesk, Finset.card_insert_of_notMem hout]
      simp only [List.countP_singleton, Visit.arrives, Visit.departs, Bool.false_eq_true,
        reduceIte, hline, List.length_cons]
      omega
  | gaveUp a hmem hdesk hline =>
      have hlength : r'.line.length + 1 = r.line.length := by
        rw [hline, List.length_erase_of_mem hmem]
        have := List.length_pos_of_mem hmem
        omega
      simp only [List.countP_singleton, Visit.arrives, Visit.departs, Bool.false_eq_true,
        reduceIte, hdesk]
      omega
  | left a hmem hdesk hline =>
      have hcard : r'.atDesk.card + 1 = r.atDesk.card := by
        rw [hdesk]
        exact Finset.card_erase_add_one hmem
      simp only [List.countP_singleton, Visit.arrives, Visit.departs, Bool.false_eq_true,
        reduceIte, hline]
      omega

/-- The same for a run. -/
theorem balance_run (h : run step r visits = some r') :
    visits.countP Visit.arrives + (r.atDesk.card + r.line.length) =
      visits.countP Visit.departs + (r'.atDesk.card + r'.line.length) := by
  induction visits generalizing r with
  | nil => rw [Option.some.inj h]; rfl
  | cons v visits ih =>
      obtain ⟨r₁, hstep, hrest⟩ := Option.bind_eq_some_iff.mp h
      have hfirst := (goes_of_step hstep).balance
      have hlater := ih hrest
      rw [← List.singleton_append, List.countP_append, List.countP_append]
      omega

theorem idxOf_erase_le {l : List α} {b : α} (hne : b ≠ a) : (l.erase b).idxOf a ≤ l.idxOf a := by
  induction l with
  | nil => exact Nat.le_refl 0
  | cons c l ih =>
      by_cases hcb : c = b
      · -- the head goes, and it is not `a`
        rw [hcb, List.erase_cons_head, List.idxOf_cons_ne l hne]
        exact Nat.le_succ _
      · rw [List.erase_cons_tail (by simpa using hcb)]
        by_cases hca : c = a
        · rw [List.idxOf_cons_eq _ hca]
          exact Nat.zero_le _
        · rw [List.idxOf_cons_ne _ hca, List.idxOf_cons_ne _ hca]
          exact Nat.succ_le_succ ih

/-- Who waits comes nearer to the front with each call, and nobody gets in before. -/
theorem Goes.position (h : Goes r r' v) (ha : a ∈ r.line) (hcalled : v ≠ .callIn a)
    (hgave : v ≠ .giveUp a) :
    a ∈ r'.line ∧ r'.line.idxOf a + [v].countP Visit.calls ≤ r.line.idxOf a := by
  cases h with
  | entered b _ _ _ hline => rw [hline]; exact ⟨ha, Nat.le_refl _⟩
  | left b _ _ hline => rw [hline]; exact ⟨ha, Nat.le_refl _⟩
  | refused b _ _ _ hsame => rw [hsame]; exact ⟨ha, Nat.le_refl _⟩
  | waited b _ _ _ _ hline =>
      rw [hline, List.idxOf_append_of_mem ha]
      exact ⟨List.mem_append_left _ ha, Nat.le_refl _⟩
  | calledIn b _ _ hline =>
      have hne : b ≠ a := fun heq => hcalled (by rw [heq])
      rw [hline] at ha ⊢
      rw [List.idxOf_cons_ne _ hne]
      exact ⟨(List.mem_cons.mp ha).resolve_left (Ne.symm hne), Nat.le_refl _⟩
  | gaveUp b _ _ hline =>
      have hne : b ≠ a := fun heq => hgave (by rw [heq])
      rw [hline]
      exact ⟨(List.mem_erase_of_ne (Ne.symm hne)).mpr ha, idxOf_erase_le hne⟩

/-- While somebody waits, no more members are called in than were in front at the start. -/
theorem position_run (h : run step r visits = some r') (ha : a ∈ r.line)
    (hcalled : .callIn a ∉ visits) (hgave : .giveUp a ∉ visits) :
    a ∈ r'.line ∧ r'.line.idxOf a + visits.countP Visit.calls ≤ r.line.idxOf a := by
  induction visits generalizing r with
  | nil => rw [← Option.some.inj h]; exact ⟨ha, Nat.le_refl _⟩
  | cons v visits ih =>
      obtain ⟨r₁, hstep, hrest⟩ := Option.bind_eq_some_iff.mp h
      obtain ⟨ha₁, hfirst⟩ := (goes_of_step hstep).position ha
        (fun heq => hcalled (heq ▸ List.mem_cons_self))
        (fun heq => hgave (heq ▸ List.mem_cons_self))
      obtain ⟨ha', hlater⟩ := ih hrest ha₁ (fun hmem => hcalled (List.mem_cons_of_mem v hmem))
        (fun hmem => hgave (List.mem_cons_of_mem v hmem))
      refine ⟨ha', ?_⟩
      rw [← List.singleton_append, List.countP_append]
      omega

end Room

end WaitingRoom
