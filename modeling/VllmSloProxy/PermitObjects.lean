import VllmSloProxy.InflightLimiter
import VllmSloProxy.Lib.Run
import VllmSloProxy.Lib.Population

/-!
# Slot ownership across permit objects

A process holds any number of limiters and of permit objects that point at them.  Slots move
between permits by move construction and move assignment and come back by `release`, by an
overwrite or by destruction.  The history records what the calls answered and which callbacks ran.
-/

namespace VllmSloProxy

open Population Transition

variable {ι κ : Type}

inductive LimiterOp (ι κ : Type) where
  | tryAcquireOrQueue (l : ι)
  | tryPromoteQueued (l : ι)
  | cancelQueued (l : ι)
  | close (l : ι)
  | setOnRelease (l : ι) (callback : κ)
  | destroyLimiter (l : ι)
  | defaultConstruct
  | moveConstruct (src : Nat)
  | moveAssign (dst src : Nat)
  | release (p : Nat)
  | destroy (p : Nat)
  deriving DecidableEq, Repr

inductive Observation (ι κ : Type) where
  | acquired (l : ι) (decision : InflightDecision)
  | promoted (l : ι) (granted : Bool)
  | cancelled (l : ι) (removed : Bool)
  | ranCallback (l : ι) (callback : κ)
  deriving DecidableEq, Repr

/-- Constructor arguments that `InflightLimiter` accepts. -/
structure LimiterSize where
  maxInflight : Nat
  maxQueueSize : Nat
  maxInflight_pos : 0 < maxInflight

/-- Permit objects are addressed by position; a destroyed one leaves `none` behind. -/
structure PermitProcess (ι κ : Type) where
  limiters : ι → Option (InflightLimiter κ)
  permits : List (Option (Permit ι)) := []
  history : List (Observation ι κ) := []

namespace PermitProcess

def newPermit (w : PermitProcess ι κ) (p : Permit ι) : PermitProcess ι κ :=
  { w with permits := w.permits ++ [some p] }

def setPermit (w : PermitProcess ι κ) (i : Nat) (p : Option (Permit ι)) : PermitProcess ι κ :=
  { w with permits := w.permits.set i p }

def observe (w : PermitProcess ι κ) (o : Observation ι κ) : PermitProcess ι κ :=
  { w with history := w.history ++ [o] }

/-- The permit object at address `i`, if one is alive there. -/
def permitAt (w : PermitProcess ι κ) (i : Nat) : Option (Permit ι) := (w.permits[i]?).join

section Primitives

variable (w : PermitProcess ι κ) (p : Permit ι) (i : Nat) (q : Option (Permit ι))
  (o : Observation ι κ)

@[simp] theorem newPermit_limiters : (w.newPermit p).limiters = w.limiters := rfl
@[simp] theorem newPermit_history : (w.newPermit p).history = w.history := rfl
@[simp] theorem setPermit_limiters : (w.setPermit i q).limiters = w.limiters := rfl
@[simp] theorem setPermit_history : (w.setPermit i q).history = w.history := rfl
@[simp] theorem observe_limiters : (w.observe o).limiters = w.limiters := rfl
@[simp] theorem observe_history : (w.observe o).history = w.history ++ [o] := rfl

end Primitives

theorem permitAt_eq_some {w : PermitProcess ι κ} {i : Nat} {p : Permit ι} :
    w.permitAt i = some p ↔ w.permits[i]? = some (some p) :=
  Option.join_eq_some_iff

variable [DecidableEq ι]

def setLimiter (w : PermitProcess ι κ) (l : ι) (lim : InflightLimiter κ) : PermitProcess ι κ :=
  { w with limiters := Function.update w.limiters l (some lim) }

/-- A call on `l` answered with a permit. -/
def answer (w : PermitProcess ι κ) (l : ι) (lim : InflightLimiter κ) (p : Permit ι)
    (o : Observation ι κ) : PermitProcess ι κ :=
  ((w.setLimiter l lim).newPermit p).observe o

/-- `release` called on the permit object `p` at address `i`. -/
def releaseAt (w : PermitProcess ι κ) (i : Nat) (p : Permit ι) : PermitProcess ι κ :=
  let (p', locked, callback) := p.release (p.state.bind w.limiters)
  let w := w.setPermit i (some p')
  let w := match p.state, locked with
    | some l, some lim => w.setLimiter l lim
    | _, _ => w
  match p.state, callback with
  | some l, some cb => w.observe (.ranCallback l cb)
  | _, _ => w

def step (w : PermitProcess ι κ) : LimiterOp ι κ → Option (PermitProcess ι κ)
  | .tryAcquireOrQueue l => do
      let lim ← w.limiters l
      let result := lim.tryAcquireOrQueue l
      return w.answer l result.2 result.1.permit (.acquired l result.1.decision)
  | .tryPromoteQueued l => do
      let lim ← w.limiters l
      let result := lim.tryPromoteQueued l
      return w.answer l result.2 result.1 (.promoted l result.1.valid)
  | .cancelQueued l => do
      let lim ← w.limiters l
      let result := lim.cancelQueued
      return (w.setLimiter l result.2).observe (.cancelled l result.1)
  | .close l => do
      let lim ← w.limiters l
      return w.setLimiter l lim.close
  | .setOnRelease l callback => do
      let lim ← w.limiters l
      return w.setLimiter l (lim.setOnRelease callback)
  | .destroyLimiter l => do
      let _ ← w.limiters l
      return { w with limiters := Function.update w.limiters l none }
  | .defaultConstruct => return w.newPermit {}
  | .moveConstruct src => do
      let p ← w.permitAt src
      return (w.newPermit p).setPermit src (some {})
  | .moveAssign dst src => do
      let q ← w.permitAt dst
      let p ← w.permitAt src
      -- operator= does nothing when it is given its own object
      if dst = src then return w
      return ((w.releaseAt dst q).setPermit dst (some p)).setPermit src (some {})
  | .release i => do
      let p ← w.permitAt i
      return w.releaseAt i p
  | .destroy i => do
      let p ← w.permitAt i
      return (w.releaseAt i p).setPermit i none

/-- Freshly constructed limiters, each with the callback that its owner has set. -/
def init (size : ι → LimiterSize) (callback : ι → κ) : PermitProcess ι κ where
  limiters l := some {
    maxInflight := (size l).maxInflight
    maxQueueSize := (size l).maxQueueSize
    onRelease := some (callback l)
    maxInflight_pos := (size l).maxInflight_pos }

def ownsSlotOf (l : ι) (p : Option (Permit ι)) : Bool :=
  p.any fun p => p.ownsSlot && p.state = some l

/-- The number of permit objects that own a slot of `l`. -/
def owners (w : PermitProcess ι κ) (l : ι) : Nat := w.permits.countP (ownsSlotOf l)

def isGrant (l : ι) : Observation ι κ → Bool
  | .acquired l' .admitted => l' = l
  | .promoted l' true => l' = l
  | _ => false

def isQueueResult (l : ι) : Observation ι κ → Bool
  | .acquired l' .queue => l' = l
  | _ => false

/-- A call that took one queued reservation away: a promotion or a cancellation. -/
def isTaken (l : ι) : Observation ι κ → Bool
  | .promoted l' true => l' = l
  | .cancelled l' true => l' = l
  | _ => false

def isRun (l : ι) : Observation ι κ → Bool
  | .ranCallback l' _ => l' = l
  | _ => false

/-- Admissions and promotions of `l`: every slot it ever handed out. -/
def grants (w : PermitProcess ι κ) (l : ι) : Nat := w.history.countP (isGrant l)

def queueResults (w : PermitProcess ι κ) (l : ι) : Nat := w.history.countP (isQueueResult l)

def reservationsTaken (w : PermitProcess ι κ) (l : ι) : Nat := w.history.countP (isTaken l)

def callbackRuns (w : PermitProcess ι κ) (l : ι) : Nat := w.history.countP (isRun l)

/-! ## What the primitives change -/

section Primitives

variable (w : PermitProcess ι κ) (l l' : ι) (lim : InflightLimiter κ) (p : Permit ι) (i : Nat)
  (q : Option (Permit ι)) (o : Observation ι κ)

@[simp] theorem setLimiter_self : (w.setLimiter l lim).limiters l = some lim :=
  Function.update_self ..

theorem setLimiter_of_ne (h : l' ≠ l) : (w.setLimiter l lim).limiters l' = w.limiters l' :=
  Function.update_of_ne h ..

@[simp] theorem setLimiter_owners : (w.setLimiter l lim).owners = w.owners := rfl
@[simp] theorem setLimiter_history : (w.setLimiter l lim).history = w.history := rfl
@[simp] theorem observe_owners : (w.observe o).owners = w.owners := rfl

theorem newPermit_owners :
    (w.newPermit p).owners l = w.owners l + share (ownsSlotOf l) (some p) :=
  countP_snoc _ _ _

theorem setPermit_owners {old : Option (Permit ι)} (h : w.permits[i]? = some old) :
    (w.setPermit i q).owners l + share (ownsSlotOf l) old =
      w.owners l + share (ownsSlotOf l) q :=
  countP_set h

@[simp] theorem ownsSlotOf_none : ownsSlotOf l none = false := rfl

@[simp] theorem ownsSlotOf_empty : ownsSlotOf l (some {}) = false := rfl

@[simp] theorem ownsSlotOf_owning :
    ownsSlotOf l' (some (Permit.owning l)) = decide (l = l') := by
  simp [ownsSlotOf, Permit.owning]

theorem ownsSlotOf_idle (h : p.ownsSlot = false) : ownsSlotOf l (some p) = false := by
  simp [ownsSlotOf, h]

theorem owners_pos (h : w.permits[i]? = some (some (Permit.owning l))) : 0 < w.owners l :=
  List.countP_pos_iff.mpr ⟨some (Permit.owning l), List.mem_of_getElem? h, by simp⟩

end Primitives

/-- Everything `release` can do to the process: nothing but forgetting the slot of a permit that
owns none or whose limiter is gone, or else one slot given back and the callback run. -/
theorem releaseAt_cases (w : PermitProcess ι κ) (i : Nat) (p : Permit ι) :
    ((∀ l, w.limiters l ≠ none → ownsSlotOf l (some p) = false) ∧
      w.releaseAt i p = w.setPermit i (some { p with ownsSlot := false })) ∨
    ∃ l lim, w.limiters l = some lim ∧ p = Permit.owning l ∧
      w.releaseAt i p = match lim.giveBack.2 with
        | none => (w.setPermit i (some { p with ownsSlot := false })).setLimiter l lim.giveBack.1
        | some cb => ((w.setPermit i (some { p with ownsSlot := false })).setLimiter l
            lim.giveBack.1).observe (.ranCallback l cb) := by
  obtain ⟨state, owns⟩ := p
  cases owns with
  | false =>
      refine .inl ⟨fun l _ => rfl, ?_⟩
      unfold releaseAt
      rw [Permit.release_idle rfl]
      cases state with
      | none => rfl
      | some l =>
          cases hl : w.limiters l with
          | none => simp [hl]
          | some lim =>
              -- the lock was taken and nothing was changed under it
              have hsame : Function.update w.limiters l (some lim) = w.limiters := by
                rw [← hl, Function.update_eq_self]
              simp only [Option.bind_some, hl, setLimiter, setPermit, hsame]
  | true =>
      cases state with
      | none => exact .inl ⟨fun l _ => rfl, rfl⟩
      | some l =>
          cases hl : w.limiters l with
          | none =>
              refine .inl ⟨fun l' hl' => ?_, ?_⟩
              · -- the weak pointer is expired, and no living limiter counts this slot
                have : l ≠ l' := fun h => hl' (h ▸ hl)
                simpa [ownsSlotOf] using this
              · simp [releaseAt, Permit.release, hl]
          | some lim =>
              refine .inr ⟨l, lim, hl, rfl, ?_⟩
              simp only [releaseAt, Option.bind_some, hl, Permit.release_owning]
              cases lim.giveBack.2 <;> rfl

/-! ## Conservation -/

def subject : Observation ι κ → ι
  | .acquired l _ => l
  | .promoted l _ => l
  | .cancelled l _ => l
  | .ranCallback l _ => l

/-- What holds of a living limiter `lim` at `l`, whatever the process has done so far. -/
structure Conserved (w : PermitProcess ι κ) (l : ι) (lim : InflightLimiter κ) : Prop where
  owned : lim.currentInflight = w.owners l
  cap : lim.currentInflight ≤ lim.maxInflight
  reserved : lim.closed = false → lim.queuedRequests + w.reservationsTaken l = w.queueResults l
  room : lim.queuedRequests ≤ lim.maxQueueSize
  drained : lim.closed = true → lim.queuedRequests = 0
  callback : lim.onRelease.isSome = true
  returned : w.callbackRuns l + lim.currentInflight = w.grants l

def Conservation (w : PermitProcess ι κ) : Prop :=
  ∀ l lim, w.limiters l = some lim → w.Conserved l lim

section Counts

variable (w : PermitProcess ι κ) (l : ι) (o : Observation ι κ)

theorem observe_grants : (w.observe o).grants l = w.grants l + share (isGrant l) o :=
  countP_snoc _ _ _

theorem observe_queueResults :
    (w.observe o).queueResults l = w.queueResults l + share (isQueueResult l) o :=
  countP_snoc _ _ _

theorem observe_reservationsTaken :
    (w.observe o).reservationsTaken l = w.reservationsTaken l + share (isTaken l) o :=
  countP_snoc _ _ _

theorem observe_callbackRuns :
    (w.observe o).callbackRuns l = w.callbackRuns l + share (isRun l) o :=
  countP_snoc _ _ _

end Counts

-- Only the history matters for what the calls have answered.
theorem counts_congr {w w' : PermitProcess ι κ} (h : w'.history = w.history) (l : ι) :
    w'.grants l = w.grants l ∧ w'.queueResults l = w.queueResults l ∧
      w'.reservationsTaken l = w.reservationsTaken l ∧ w'.callbackRuns l = w.callbackRuns l := by
  simp only [grants, queueResults, reservationsTaken, callbackRuns, h, and_self]

theorem Conserved.congr {w w' : PermitProcess ι κ} {l : ι} {lim : InflightLimiter κ}
    (h : w.Conserved l lim) (howners : w'.owners l = w.owners l)
    (hhistory : w'.history = w.history) : w'.Conserved l lim := by
  obtain ⟨hg, hq, ht, hr⟩ := counts_congr hhistory l
  exact ⟨by rw [howners, h.owned], h.cap, by rw [ht, hq]; exact h.reserved, h.room, h.drained,
    h.callback, by rw [hr, hg]; exact h.returned⟩

-- An answer about one limiter says nothing about another.
theorem Conserved.observe {w : PermitProcess ι κ} {l : ι} {lim : InflightLimiter κ}
    {o : Observation ι κ} (h : w.Conserved l lim) (ho : subject o ≠ l) :
    (w.observe o).Conserved l lim := by
  have hg : share (isGrant l) o = 0 := by
    apply share_false
    rcases o with ⟨l', d⟩ | ⟨l', b⟩ | _ | _
    · cases d <;> simp_all [isGrant, subject]
    · cases b <;> simp_all [isGrant, subject]
    · rfl
    · rfl
  have hq : share (isQueueResult l) o = 0 := by
    apply share_false
    rcases o with ⟨l', d⟩ | _ | _ | _
    · cases d <;> simp_all [isQueueResult, subject]
    · rfl
    · rfl
    · rfl
  have ht : share (isTaken l) o = 0 := by
    apply share_false
    rcases o with _ | ⟨l', b⟩ | ⟨l', b⟩ | _
    · rfl
    · cases b <;> simp_all [isTaken, subject]
    · cases b <;> simp_all [isTaken, subject]
    · rfl
  have hr : share (isRun l) o = 0 := by
    apply share_false
    rcases o with _ | _ | _ | ⟨l', cb⟩
    · rfl
    · rfl
    · rfl
    · simpa [isRun, subject] using ho
  exact ⟨h.owned, h.cap, by
    rw [observe_reservationsTaken, observe_queueResults, ht, hq]; exact h.reserved, h.room,
    h.drained, h.callback, by rw [observe_callbackRuns, observe_grants, hr, hg]; exact h.returned⟩

-- A call that changes limiter `l` only has to keep the books of `l`.
theorem Conservation.update {w w' : PermitProcess ι κ} (h : w.Conservation) {l : ι}
    {lim lim' : InflightLimiter κ} (hl : w.limiters l = some lim)
    (hl' : w'.limiters l = some lim') (hself : w.Conserved l lim → w'.Conserved l lim')
    (hother : ∀ l', l' ≠ l → w'.limiters l' = w.limiters l')
    (hframe : ∀ l' lim, l' ≠ l → w.Conserved l' lim → w'.Conserved l' lim) :
    w'.Conservation := by
  intro k limk hk
  by_cases hkl : k = l
  · subst hkl
    obtain rfl : lim' = limk := Option.some.inj (hl'.symm.trans hk)
    exact hself (h k lim hl)
  · rw [hother k hkl] at hk
    exact hframe k limk hkl (h k limk hk)

section Answer

variable (w : PermitProcess ι κ) (l k : ι) (lim : InflightLimiter κ) (p : Permit ι)
  (o : Observation ι κ)

@[simp] theorem answer_limiters : (w.answer l lim p o).limiters l = some lim := setLimiter_self ..

theorem answer_limiters_of_ne (h : k ≠ l) : (w.answer l lim p o).limiters k = w.limiters k :=
  setLimiter_of_ne _ _ _ _ h

theorem answer_owners :
    (w.answer l lim p o).owners k = w.owners k + share (ownsSlotOf k) (some p) :=
  newPermit_owners ..

theorem answer_grants : (w.answer l lim p o).grants k = w.grants k + share (isGrant k) o :=
  observe_grants ..

theorem answer_queueResults :
    (w.answer l lim p o).queueResults k = w.queueResults k + share (isQueueResult k) o :=
  observe_queueResults ..

theorem answer_reservationsTaken :
    (w.answer l lim p o).reservationsTaken k = w.reservationsTaken k + share (isTaken k) o :=
  observe_reservationsTaken ..

theorem answer_callbackRuns :
    (w.answer l lim p o).callbackRuns k = w.callbackRuns k + share (isRun k) o :=
  observe_callbackRuns ..

end Answer

theorem Conserved.answer_frame {w : PermitProcess ι κ} {l k : ι} {limk lim : InflightLimiter κ}
    {p : Permit ι} {o : Observation ι κ} (h : w.Conserved k limk) (hk : k ≠ l)
    (hp : p = {} ∨ p = Permit.owning l) (ho : subject o = l) :
    (w.answer l lim p o).Conserved k limk := by
  refine Conserved.observe (h.congr ?_ rfl) (by rw [ho]; exact Ne.symm hk)
  rw [newPermit_owners, setLimiter_owners]
  rcases hp with rfl | rfl
  · simp [share]
  · simp [share, Ne.symm hk]

theorem Conserved.tryAcquireOrQueue {w : PermitProcess ι κ} {l : ι} {lim : InflightLimiter κ}
    (h : w.Conserved l lim) :
    (w.answer l (lim.tryAcquireOrQueue l).2 (lim.tryAcquireOrQueue l).1.permit
      (.acquired l (lim.tryAcquireOrQueue l).1.decision)).Conserved l
        (lim.tryAcquireOrQueue l).2 := by
  obtain ⟨ho, hcap, hres, hroom, hdr, hcb, hret⟩ := h
  rcases lim.tryAcquireOrQueue_cases l with
    ⟨hclosed, heq⟩ | ⟨hclosed, hslot, heq⟩ | ⟨hclosed, hfull, hspace, heq⟩ |
    ⟨hclosed, hfull, hspace, heq⟩
  all_goals
    rw [heq]
    constructor <;>
      simp only [answer_owners, answer_grants, answer_queueResults, answer_reservationsTaken,
        answer_callbackRuns] <;>
      simp_all [share, isGrant, isQueueResult, isTaken, isRun] <;> omega

theorem Conserved.tryPromoteQueued {w : PermitProcess ι κ} {l : ι} {lim : InflightLimiter κ}
    (h : w.Conserved l lim) :
    (w.answer l (lim.tryPromoteQueued l).2 (lim.tryPromoteQueued l).1
      (.promoted l (lim.tryPromoteQueued l).1.valid)).Conserved l (lim.tryPromoteQueued l).2 := by
  obtain ⟨ho, hcap, hres, hroom, hdr, hcb, hret⟩ := h
  rcases lim.tryPromoteQueued_cases l with ⟨hwhy, heq⟩ | ⟨hclosed, hq, hslot, heq⟩
  · rw [heq]
    constructor <;>
      simp only [answer_owners, answer_grants, answer_queueResults, answer_reservationsTaken,
        answer_callbackRuns] <;>
      simp_all [share, isGrant, isQueueResult, isTaken, isRun]
  · rw [heq]
    constructor <;>
      simp only [answer_owners, answer_grants, answer_queueResults, answer_reservationsTaken,
        answer_callbackRuns] <;>
      simp_all [share, isGrant, isQueueResult, isTaken, isRun] <;> omega

theorem Conserved.cancelQueued {w : PermitProcess ι κ} {l : ι} {lim : InflightLimiter κ}
    (h : w.Conserved l lim) :
    ((w.setLimiter l lim.cancelQueued.2).observe
      (.cancelled l lim.cancelQueued.1)).Conserved l lim.cancelQueued.2 := by
  obtain ⟨ho, hcap, hres, hroom, hdr, hcb, hret⟩ := h
  rcases lim.cancelQueued_cases with ⟨hq, heq⟩ | ⟨hq, heq⟩
  all_goals
    rw [heq]
    constructor <;>
      simp only [observe_grants, observe_queueResults, observe_reservationsTaken,
        observe_callbackRuns, observe_owners, setLimiter_owners,
        counts_congr (setLimiter_history w l _)] <;>
      simp_all [share, isGrant, isQueueResult, isTaken, isRun]
  · intro hc
    have := hres hc
    omega
  · omega

theorem Conserved.close {w : PermitProcess ι κ} {l : ι} {lim : InflightLimiter κ}
    (h : w.Conserved l lim) : w.Conserved l lim.close :=
  ⟨h.owned, h.cap, fun hc => absurd hc (by simp [InflightLimiter.close]), Nat.zero_le _,
    fun _ => rfl, h.callback, h.returned⟩

theorem Conserved.setOnRelease {w : PermitProcess ι κ} {l : ι} {lim : InflightLimiter κ}
    (h : w.Conserved l lim) (callback : κ) : w.Conserved l (lim.setOnRelease callback) :=
  ⟨h.owned, h.cap, h.reserved, h.room, h.drained, rfl, h.returned⟩

-- A permit object that owns no slot of a living limiter may be written over freely.
theorem Conservation.setPermit {w : PermitProcess ι κ} (h : w.Conservation) {i : Nat}
    {old new : Option (Permit ι)} (hold : w.permits[i]? = some old)
    (hsame : ∀ l, w.limiters l ≠ none → ownsSlotOf l new = ownsSlotOf l old) :
    (w.setPermit i new).Conservation := by
  intro l lim hl
  rw [setPermit_limiters] at hl
  refine (h l lim hl).congr ?_ rfl
  have howners := setPermit_owners w l i new hold
  rw [share, share, hsame l (by rw [hl]; exact Option.some_ne_none lim)] at howners
  omega

theorem Conservation.newPermit {w : PermitProcess ι κ} (h : w.Conservation) :
    (w.newPermit {}).Conservation := by
  intro l lim hl
  refine (h l lim hl).congr ?_ rfl
  rw [newPermit_owners]
  rfl

-- One slot comes back: the count drops with the number of owners, and the callback runs once.
theorem Conserved.giveBack {w : PermitProcess ι κ} {l : ι} {lim : InflightLimiter κ} {i : Nat}
    (h : w.Conserved l lim) (hi : w.permits[i]? = some (some (Permit.owning l))) {cb : κ}
    {p : Permit ι} (hp : p.ownsSlot = false) :
    (((w.setPermit i (some p)).setLimiter l lim.giveBack.1).observe
      (.ranCallback l cb)).Conserved l lim.giveBack.1 := by
  obtain ⟨ho, hcap, hres, hroom, hdr, hcb, hret⟩ := h
  have hpos : 0 < w.owners l := owners_pos w l i hi
  have howners := setPermit_owners w l i (some p) hi
  rw [share_false (ownsSlotOf_idle l p hp), share_true (by simp)] at howners
  constructor <;>
    simp only [observe_grants, observe_queueResults, observe_reservationsTaken,
      observe_callbackRuns, observe_owners, setLimiter_owners,
      counts_congr (setLimiter_history (w.setPermit i (some p)) l _),
      counts_congr (setPermit_history w i (some p)), InflightLimiter.giveBack_currentInflight,
      InflightLimiter.giveBack_queuedRequests, InflightLimiter.giveBack_closed,
      InflightLimiter.giveBack_maxInflight, InflightLimiter.giveBack_maxQueueSize,
      InflightLimiter.giveBack_onRelease] <;>
    simp_all [share, isGrant, isQueueResult, isTaken, isRun] <;> omega

theorem Conservation.releaseAt {w : PermitProcess ι κ} (h : w.Conservation) {i : Nat}
    {p : Permit ι} (hp : w.permitAt i = some p) : (w.releaseAt i p).Conservation := by
  have hi := permitAt_eq_some.mp hp
  rcases w.releaseAt_cases i p with ⟨hidle, heq⟩ | ⟨l, lim, hl, rfl, heq⟩
  · rw [heq]
    exact h.setPermit hi fun l hl => by rw [hidle l hl]; rfl
  · have hpos : 0 < lim.currentInflight := (h l lim hl).owned ▸ owners_pos w l i hi
    obtain ⟨cb, hcb⟩ := Option.isSome_iff_exists.mp (h l lim hl).callback
    have hrun : lim.giveBack.2 = some cb := by rw [InflightLimiter.giveBack_of_pos hpos, hcb]
    rw [heq, hrun]
    refine h.update hl (setLimiter_self ..) (fun hc => hc.giveBack hi rfl)
      (fun l' hl' => setLimiter_of_ne _ _ _ _ hl') fun l' lim' hl' hc => ?_
    refine Conserved.observe (hc.congr ?_ rfl) (Ne.symm hl')
    have howners := setPermit_owners w l' i (some { Permit.owning l with ownsSlot := false }) hi
    rw [share_false (ownsSlotOf_idle _ { Permit.owning l with ownsSlot := false } rfl),
      share_false (by simpa using Ne.symm hl')] at howners
    exact howners

theorem releaseAt_permits (w : PermitProcess ι κ) (i : Nat) (p : Permit ι) :
    (w.releaseAt i p).permits = w.permits.set i (some { p with ownsSlot := false }) := by
  rcases w.releaseAt_cases i p with ⟨-, heq⟩ | ⟨l, lim, -, rfl, heq⟩
  · rw [heq]; rfl
  · rw [heq]
    cases lim.giveBack.2 <;> rfl

-- The two halves of a move: the slot leaves the source in the step in which the target gets it.
theorem Conservation.move {w : PermitProcess ι κ} (h : w.Conservation) {dst src : Nat}
    {p q : Permit ι} (hne : dst ≠ src) (hdst : w.permits[dst]? = some (some q))
    (hq : q.ownsSlot = false) (hsrc : w.permits[src]? = some (some p)) :
    ((w.setPermit dst (some p)).setPermit src (some {})).Conservation := by
  intro l lim hl
  refine (h l lim hl).congr ?_ rfl
  have h1 := setPermit_owners w l dst (some p) hdst
  have hsrc' : (w.setPermit dst (some p)).permits[src]? = some (some p) := by
    rw [← hsrc]
    exact List.getElem?_set_ne hne
  have h2 := setPermit_owners (w.setPermit dst (some p)) l src (some {}) hsrc'
  rw [share_false (ownsSlotOf_idle l q hq)] at h1
  rw [share_false (ownsSlotOf_empty l)] at h2
  omega

theorem Conservation.moveConstruct {w : PermitProcess ι κ} (h : w.Conservation) {src : Nat}
    {p : Permit ι} (hp : w.permitAt src = some p) :
    ((w.newPermit p).setPermit src (some {})).Conservation := by
  have hsrc := permitAt_eq_some.mp hp
  have hlt : src < w.permits.length := (List.getElem?_eq_some_iff.mp hsrc).1
  intro l lim hl
  refine (h l lim hl).congr ?_ rfl
  have hold : (w.newPermit p).permits[src]? = some (some p) := by
    rw [← hsrc]
    exact List.getElem?_append_left hlt
  have h1 := setPermit_owners (w.newPermit p) l src (some {}) hold
  rw [newPermit_owners, share_false (ownsSlotOf_empty l)] at h1
  omega

theorem Conservation.moveAssign {w w' : PermitProcess ι κ} (h : w.Conservation) {dst src : Nat}
    {p q : Permit ι} (hq : w.permitAt dst = some q) (hp : w.permitAt src = some p)
    (heq : (if dst = src then some w
      else some (((w.releaseAt dst q).setPermit dst (some p)).setPermit src (some {}))) =
        some w') : w'.Conservation := by
  split at heq
  · exact Option.some.inj heq ▸ h
  · rename_i hne
    obtain rfl := Option.some.inj heq
    have hdst := permitAt_eq_some.mp hq
    have hlt : dst < w.permits.length := (List.getElem?_eq_some_iff.mp hdst).1
    refine (h.releaseAt hq).move hne (q := { q with ownsSlot := false }) ?_ rfl ?_
    · rw [releaseAt_permits]
      exact List.getElem?_set_self hlt
    · rw [releaseAt_permits, ← permitAt_eq_some.mp hp]
      exact List.getElem?_set_ne hne

theorem Conservation.destroy {w : PermitProcess ι κ} (h : w.Conservation) {i : Nat}
    {p : Permit ι} (hp : w.permitAt i = some p) :
    ((w.releaseAt i p).setPermit i none).Conservation := by
  have hlt : i < w.permits.length := (List.getElem?_eq_some_iff.mp (permitAt_eq_some.mp hp)).1
  -- the destructor releases first, so that what goes owns nothing
  have hidle : (w.releaseAt i p).permits[i]? = some (some { p with ownsSlot := false }) := by
    rw [releaseAt_permits]
    exact List.getElem?_set_self hlt
  exact (h.releaseAt hp).setPermit hidle fun l _ => rfl

theorem Conservation.step {w w' : PermitProcess ι κ} {op : LimiterOp ι κ} (h : w.Conservation)
    (hstep : w.step op = some w') : w'.Conservation := by
  cases op with
  -- the operations on a limiter change that one, and perhaps add a permit of it
  | tryAcquireOrQueue l =>
      obtain ⟨lim, hl, heq⟩ := Option.bind_eq_some_iff.mp hstep
      obtain rfl := Option.some.inj heq
      refine h.update hl (answer_limiters ..) Conserved.tryAcquireOrQueue
        (fun l' hl' => answer_limiters_of_ne _ _ _ _ _ _ hl')
        fun l' lim' hl' hc => hc.answer_frame hl' ?_ rfl
      exact lim.tryAcquireOrQueue_permit l
  | tryPromoteQueued l =>
      obtain ⟨lim, hl, heq⟩ := Option.bind_eq_some_iff.mp hstep
      obtain rfl := Option.some.inj heq
      refine h.update hl (answer_limiters ..) Conserved.tryPromoteQueued
        (fun l' hl' => answer_limiters_of_ne _ _ _ _ _ _ hl')
        fun l' lim' hl' hc => hc.answer_frame hl' ?_ rfl
      exact lim.tryPromoteQueued_permit l
  | cancelQueued l =>
      obtain ⟨lim, hl, heq⟩ := Option.bind_eq_some_iff.mp hstep
      obtain rfl := Option.some.inj heq
      exact h.update hl (setLimiter_self ..) Conserved.cancelQueued
        (fun l' hl' => setLimiter_of_ne _ _ _ _ hl')
        fun l' lim' hl' hc => Conserved.observe (hc.congr rfl rfl) (Ne.symm hl')
  | close l =>
      obtain ⟨lim, hl, heq⟩ := Option.bind_eq_some_iff.mp hstep
      obtain rfl := Option.some.inj heq
      exact h.update hl (setLimiter_self ..) (fun hc => hc.close.congr rfl rfl)
        (fun l' hl' => setLimiter_of_ne _ _ _ _ hl') fun l' lim' hl' hc => hc.congr rfl rfl
  | setOnRelease l callback =>
      obtain ⟨lim, hl, heq⟩ := Option.bind_eq_some_iff.mp hstep
      obtain rfl := Option.some.inj heq
      exact h.update hl (setLimiter_self ..) (fun hc => (hc.setOnRelease callback).congr rfl rfl)
        (fun l' hl' => setLimiter_of_ne _ _ _ _ hl') fun l' lim' hl' hc => hc.congr rfl rfl
  -- a limiter that is gone has no books to keep
  | destroyLimiter l =>
      obtain ⟨lim, hl, heq⟩ := Option.bind_eq_some_iff.mp hstep
      obtain rfl := Option.some.inj heq
      intro l' lim' hl'
      by_cases hne : l' = l
      · subst hne
        simp at hl'
      · exact (h l' lim' (by simpa [hne] using hl')).congr rfl rfl
  -- the operations on permit objects change at most the limiter that they name
  | defaultConstruct =>
      obtain rfl := Option.some.inj hstep
      exact h.newPermit
  | moveConstruct src =>
      obtain ⟨p, hp, heq⟩ := Option.bind_eq_some_iff.mp hstep
      obtain rfl := Option.some.inj heq
      exact h.moveConstruct hp
  | moveAssign dst src =>
      obtain ⟨q, hq, hrest⟩ := Option.bind_eq_some_iff.mp hstep
      obtain ⟨p, hp, heq⟩ := Option.bind_eq_some_iff.mp hrest
      exact h.moveAssign hq hp heq
  | release i =>
      obtain ⟨p, hp, heq⟩ := Option.bind_eq_some_iff.mp hstep
      obtain rfl := Option.some.inj heq
      exact h.releaseAt hp
  | destroy i =>
      obtain ⟨p, hp, heq⟩ := Option.bind_eq_some_iff.mp hstep
      obtain rfl := Option.some.inj heq
      exact h.destroy hp

end PermitProcess

end VllmSloProxy
