import Mathlib.Algebra.Order.Field.Rat
import Mathlib.Data.List.Pairwise
import Mathlib.Tactic.Ring
import VllmSloProxy.Lib.RateWindow

/-!
# The token bucket

`token_bucket.cpp` in exact arithmetic.  A reading of the steady clock is a number of seconds, and a
`double` argument that `std::isfinite` refuses is `none`.
-/

namespace VllmSloProxy

open RateWindow

/-- The constructor refuses a capacity or rate that is not positive, and the tokens stay between
nothing and the capacity. -/
structure TokenBucket where
  capacity : ℚ
  refillRatePerSecond : ℚ
  tokens : ℚ
  lastRefill : ℚ
  capacity_pos : 0 < capacity
  rate_pos : 0 < refillRatePerSecond
  tokens_nonneg : 0 ≤ tokens
  tokens_le : tokens ≤ capacity
  deriving DecidableEq

namespace TokenBucket

/-- The check `std::isfinite(x) && x > 0.0`, which throws with the message. -/
def finitePositive (value : Option ℚ) (message : String) : Except String { x : ℚ // 0 < x } :=
  match value with
  | none => .error message
  | some x => if h : x ≤ 0 then .error message else .ok ⟨x, lt_of_not_ge h⟩

def create (capacity refillRatePerSecond : Option ℚ) (now : ℚ) : Except String TokenBucket := do
  let capacity ← finitePositive capacity "TokenBucket capacity must be finite and positive"
  let rate ← finitePositive refillRatePerSecond
    "TokenBucket refill rate must be finite and positive"
  return {
    capacity := capacity.1
    refillRatePerSecond := rate.1
    tokens := capacity.1
    lastRefill := now
    capacity_pos := capacity.2
    rate_pos := rate.2
    tokens_nonneg := capacity.2.le
    tokens_le := le_rfl }

variable (b : TokenBucket)

def refillUnlocked (now : ℚ) : TokenBucket :=
  if h : now ≤ b.lastRefill then b
  else
    let elapsed := now - b.lastRefill
    { b with
      tokens := min b.capacity (b.tokens + elapsed * b.refillRatePerSecond)
      lastRefill := now
      tokens_nonneg := le_min b.capacity_pos.le (add_nonneg b.tokens_nonneg
        (mul_nonneg (sub_nonneg.mpr (le_of_not_ge h)) b.rate_pos.le))
      tokens_le := min_le_left _ _ }

def tryConsume (tokens : Option ℚ) (now : ℚ) : TokenBucket × Except String Bool :=
  match finitePositive tokens "consumed tokens must be finite and positive" with
  | .error message => (b, .error message)
  | .ok tokens =>
      let b := b.refillUnlocked now
      if h : b.tokens < tokens.1 then (b, .ok false)
      else
        ({ b with
          tokens := b.tokens - tokens.1
          tokens_nonneg := sub_nonneg.mpr (le_of_not_gt h)
          tokens_le := (sub_le_self _ tokens.2.le).trans b.tokens_le }, .ok true)

def availableTokens (now : ℚ) : TokenBucket × ℚ :=
  let b := b.refillUnlocked now
  (b, b.tokens)

end TokenBucket

inductive TokenCall where
  | tryConsume (tokens : Option ℚ)
  | availableTokens
  deriving DecidableEq, Repr

inductive TokenAnswer where
  | consumed (granted : Except String Bool)
  | available (tokens : ℚ)
  deriving DecidableEq

/-- The tokens that the call has taken. -/
def TokenCall.granted (call : TokenCall) (answer : TokenAnswer) : ℚ :=
  match call, answer with
  | tryConsume (some tokens), .consumed (.ok true) => tokens
  | _, _ => 0

namespace TokenBucket

def call (b : TokenBucket) (c : TokenCall) (now : ℚ) : TokenBucket × TokenAnswer :=
  match c with
  | .tryConsume tokens =>
      let consumed := b.tryConsume tokens now
      (consumed.1, .consumed consumed.2)
  | .availableTokens =>
      let available := b.availableTokens now
      (available.1, .available available.2)

/-- The bucket after calls at the given times, and their answers. -/
def after (b : TokenBucket) (calls : List (ℚ × TokenCall)) : TokenBucket :=
  calls.foldl (fun b c => (b.call c.2 c.1).1) b

def answers (b : TokenBucket) : List (ℚ × TokenCall) → List TokenAnswer
  | [] => []
  | c :: calls => (b.call c.2 c.1).2 :: (b.call c.2 c.1).1.answers calls

/-- When each call was made and what it has taken. -/
def grants (b : TokenBucket) : List (ℚ × TokenCall) → List (ℚ × ℚ)
  | [] => []
  | c :: calls => (c.1, c.2.granted (b.call c.2 c.1).2) :: (b.call c.2 c.1).1.grants calls

/-- The tokens that there will be at a later time if none are taken before. -/
def level (b : TokenBucket) (now : ℚ) : ℚ :=
  min b.capacity (b.tokens + b.refillRatePerSecond * (now - b.lastRefill))

variable {b b' : TokenBucket} {c : TokenCall} {calls : List (ℚ × TokenCall)}
  {past : List (ℚ × ℚ)} {capacity rate t t' n : ℚ}

theorem level_eq_tokens (h : b.lastRefill = t) : b.level t = b.tokens := by
  rw [level, h, sub_self, mul_zero, add_zero, min_eq_right b.tokens_le]

theorem level_nonneg (h : b.lastRefill ≤ t) : 0 ≤ b.level t :=
  le_min b.capacity_pos.le
    (add_nonneg b.tokens_nonneg (mul_nonneg b.rate_pos.le (sub_nonneg.mpr h)))

/-- The level at one time is all that the level at a later time depends on. -/
theorem level_later (ht : t ≤ t') :
    b.level t' = min b.capacity (b.level t + b.refillRatePerSecond * (t' - t)) := by
  have hrefill : 0 ≤ b.refillRatePerSecond * (t' - t) :=
    mul_nonneg b.rate_pos.le (sub_nonneg.mpr ht)
  have hsplit : b.tokens + b.refillRatePerSecond * (t' - b.lastRefill) =
      b.tokens + b.refillRatePerSecond * (t - b.lastRefill) +
        b.refillRatePerSecond * (t' - t) := by ring
  have hfull : b.capacity ≤ b.capacity + b.refillRatePerSecond * (t' - t) :=
    le_add_of_nonneg_right hrefill
  unfold level
  rw [hsplit, ← min_add_add_right, ← min_assoc, min_eq_left hfull]

theorem refillUnlocked_spec (h : b.lastRefill ≤ t) :
    (b.refillUnlocked t).lastRefill = t ∧ (b.refillUnlocked t).tokens = b.level t ∧
      (b.refillUnlocked t).capacity = b.capacity ∧
      (b.refillUnlocked t).refillRatePerSecond = b.refillRatePerSecond := by
  unfold refillUnlocked
  by_cases hnow : t ≤ b.lastRefill
  · -- the clock has not moved since the last refill
    obtain rfl := le_antisymm h hnow
    rw [dif_pos hnow]
    exact ⟨rfl, (level_eq_tokens rfl).symm, rfl, rfl⟩
  · rw [dif_neg hnow]
    refine ⟨rfl, ?_, rfl, rfl⟩
    rw [level, mul_comm]

/-- What a call answers when the level is the given one. -/
def answerAt (c : TokenCall) (level : ℚ) : TokenAnswer :=
  match c with
  | .availableTokens => .available level
  | .tryConsume tokens => .consumed do
      let tokens ← finitePositive tokens "consumed tokens must be finite and positive"
      return decide (tokens.1 ≤ level)

/-- What a call at time `t` leaves, by the level at that time. -/
structure CallAt (b b' : TokenBucket) (c : TokenCall) (answer : TokenAnswer) (t : ℚ) : Prop where
  capacity : b'.capacity = b.capacity
  rate : b'.refillRatePerSecond = b.refillRatePerSecond
  lastRefill_le : b'.lastRefill ≤ t
  level : b'.level t = b.level t - c.granted answer
  answer : answer = answerAt c (b.level t)

theorem finitePositive_pos (message : String) (hn : 0 < n) :
    finitePositive (some n) message = .ok ⟨n, hn⟩ := dif_neg (not_le.mpr hn)

theorem finitePositive_eq_ok {value : Option ℚ} {message : String} {x : { x : ℚ // 0 < x }}
    (h : finitePositive value message = .ok x) : value = some x.1 := by
  unfold finitePositive at h
  split at h
  · cases h
  · split at h
    · cases h
    · cases h
      rfl

theorem tryConsume_spec {tokens : Option ℚ} (h : b.lastRefill ≤ t) :
    CallAt b (b.tryConsume tokens t).1 (.tryConsume tokens)
      (.consumed (b.tryConsume tokens t).2) t := by
  obtain ⟨hlast, htokens, hcapacity, hrate⟩ := refillUnlocked_spec h
  unfold tryConsume
  split
  · -- a try that throws leaves the bucket as it was
    rename_i message hcheck
    refine ⟨rfl, rfl, h, ?_, ?_⟩
    · rw [TokenCall.granted.eq_2 _ _ (by simp), sub_zero]
    · rw [answerAt, hcheck]
      rfl
  · rename_i n hcheck
    have hanswer : answerAt (.tryConsume tokens) (b.level t) =
        .consumed (.ok (decide (n.1 ≤ b.level t))) := by
      rw [answerAt, hcheck]
      rfl
    dsimp only
    split
    · rename_i hless
      rw [htokens] at hless
      refine ⟨hcapacity, hrate, hlast.le, ?_, ?_⟩
      · rw [TokenCall.granted.eq_2 _ _ (by simp), sub_zero, level_eq_tokens hlast, htokens]
      · rw [hanswer, decide_eq_false (not_le.mpr hless)]
    · rename_i hless
      rw [htokens] at hless
      refine ⟨hcapacity, hrate, hlast.le, ?_, ?_⟩
      · obtain rfl := finitePositive_eq_ok hcheck
        refine (level_eq_tokens ?_).trans ?_
        · exact hlast
        · show (b.refillUnlocked t).tokens - n.1 = b.level t - n.1
          rw [htokens]
      · rw [hanswer, decide_eq_true (not_lt.mp hless)]

theorem call_spec (h : b.lastRefill ≤ t) :
    CallAt b (b.call c t).1 c (b.call c t).2 t := by
  cases c with
  | tryConsume tokens => exact tryConsume_spec h
  | availableTokens =>
      obtain ⟨hlast, htokens, hcapacity, hrate⟩ := refillUnlocked_spec h
      refine ⟨hcapacity, hrate, hlast.le, ?_, congrArg TokenAnswer.available htokens⟩
      exact (level_eq_tokens hlast).trans (htokens.trans (sub_zero _).symm)

/-- The bucket holds as much as the budgets of all windows of `past` allow, at time `t` and at every
later time if nothing is taken in between. -/
structure Tracks (capacity rate : ℚ) (b : TokenBucket) (past : List (ℚ × ℚ)) (t : ℚ) : Prop where
  capacity_eq : b.capacity = capacity
  rate_eq : b.refillRatePerSecond = rate
  lastRefill_le : b.lastRefill ≤ t
  level : ∀ t', t ≤ t' → Tight capacity rate past t' (b.level t')

theorem Tracks.wait (h : Tracks capacity rate b past t) (ht : t ≤ t') :
    Tracks capacity rate b past t' :=
  ⟨h.capacity_eq, h.rate_eq, h.lastRefill_le.trans ht, fun t'' ht' => h.level t'' (ht.trans ht')⟩

theorem Tracks.call (h : Tracks capacity rate b past t) :
    Tracks capacity rate (b.call c t).1 (past ++ [(t, c.granted (b.call c t).2)]) t := by
  have hcall := call_spec (c := c) h.lastRefill_le
  have hcapacity : (b.call c t).1.capacity = capacity := hcall.capacity.trans h.capacity_eq
  have hrate : (b.call c t).1.refillRatePerSecond = rate := hcall.rate.trans h.rate_eq
  refine ⟨hcapacity, hrate, hcall.lastRefill_le, fun t' ht' => ?_⟩
  -- the level later depends on the level now, from which the call has taken its tokens
  rw [level_later ht', hcall.level, hcapacity, hrate]
  exact (h.level t le_rfl).next

theorem Tracks.after (h : Tracks capacity rate b past t)
    (hsorted : (t :: (calls.map Prod.fst ++ [t'])).Pairwise (· ≤ ·)) :
    Tracks capacity rate (b.after calls) (past ++ b.grants calls) t' := by
  induction calls generalizing b past t with
  | nil =>
      rw [grants, List.append_nil]
      exact h.wait (List.rel_of_pairwise_cons hsorted (List.mem_singleton_self t'))
  | cons c calls ih =>
      have hc : t ≤ c.1 := List.rel_of_pairwise_cons hsorted List.mem_cons_self
      have hrest := ih ((h.wait hc).call (c := c.2)) (List.Pairwise.of_cons hsorted)
      rwa [List.append_assoc] at hrest

theorem Tracks.granted_iff (h : Tracks capacity rate b past t) (hn : 0 < n) :
    (b.tryConsume (some n) t).2 = .ok true ↔ Admits capacity rate past t n := by
  have hcall : CallAt b (b.tryConsume (some n) t).1 (.tryConsume (some n))
      (.consumed (b.tryConsume (some n) t).2) t := tryConsume_spec h.lastRefill_le
  have hanswer := hcall.answer
  rw [answerAt, finitePositive_pos _ hn] at hanswer
  -- the try is granted when `n` is no more than the level, which is what the windows allow
  rw [TokenAnswer.consumed.inj hanswer, ← h.level t le_rfl n]
  simp [Bind.bind, Except.bind, pure, Except.pure]

/-- Tokens are never negative, so no window has gone over its budget. -/
theorem Tracks.admits_zero (h : Tracks capacity rate b past t) : Admits capacity rate past t 0 :=
  (h.level t le_rfl 0).mp (level_nonneg h.lastRefill_le)

/-- Two buckets that answer alike from time `t` on. -/
structure SameFrom (b b' : TokenBucket) (t : ℚ) : Prop where
  capacity : b.capacity = b'.capacity
  rate : b.refillRatePerSecond = b'.refillRatePerSecond
  lastRefill_le : b.lastRefill ≤ t ∧ b'.lastRefill ≤ t
  level : b.level t = b'.level t

theorem SameFrom.wait (h : SameFrom b b' t) (ht : t ≤ t') : SameFrom b b' t' := by
  refine ⟨h.capacity, h.rate, ⟨h.lastRefill_le.1.trans ht, h.lastRefill_le.2.trans ht⟩, ?_⟩
  rw [level_later ht, level_later ht, h.capacity, h.rate, h.level]

theorem SameFrom.call (h : SameFrom b b' t) :
    (b.call c t).2 = (b'.call c t).2 ∧ SameFrom (b.call c t).1 (b'.call c t).1 t := by
  have hcall := call_spec (c := c) h.lastRefill_le.1
  have hcall' := call_spec (c := c) h.lastRefill_le.2
  have hanswer : (b.call c t).2 = (b'.call c t).2 := by
    rw [hcall.answer, hcall'.answer, h.level]
  refine ⟨hanswer, ?_, ?_, ⟨hcall.lastRefill_le, hcall'.lastRefill_le⟩, ?_⟩
  · rw [hcall.capacity, hcall'.capacity, h.capacity]
  · rw [hcall.rate, hcall'.rate, h.rate]
  · rw [hcall.level, hcall'.level, h.level, hanswer]

theorem SameFrom.answers (h : SameFrom b b' t)
    (hsorted : (t :: calls.map Prod.fst).Pairwise (· ≤ ·)) :
    b.answers calls = b'.answers calls := by
  induction calls generalizing b b' t with
  | nil => rfl
  | cons c calls ih =>
      have hc : t ≤ c.1 := List.rel_of_pairwise_cons hsorted List.mem_cons_self
      obtain ⟨hanswer, hsame⟩ := (h.wait hc).call (c := c.2)
      show _ :: _ = _ :: _
      rw [hanswer, ih hsame (List.Pairwise.of_cons hsorted)]

/-- A call that takes nothing leaves a bucket that cannot be told from the one before it. -/
theorem sameFrom_of_not_granted (h : b.lastRefill ≤ t)
    (hnone : (b.call c t).2 ≠ .consumed (.ok true)) : SameFrom (b.call c t).1 b t := by
  have hcall := call_spec (c := c) h
  refine ⟨hcall.capacity, hcall.rate, ⟨hcall.lastRefill_le, h⟩, ?_⟩
  rw [hcall.level, TokenCall.granted.eq_2 _ _ fun _ _ hgranted => hnone hgranted, sub_zero]

theorem grants_take (b : TokenBucket) (calls : List (ℚ × TokenCall)) (k : Nat) :
    (b.grants calls).take k = b.grants (calls.take k) := by
  induction calls generalizing b k with
  | nil => rw [List.take_nil, grants, List.take_nil]
  | cons c calls ih =>
      cases k with
      | zero => rfl
      | succ k => rw [List.take_succ_cons, grants, grants, List.take_succ_cons, ih]

theorem grants_of_initial {taken : List (ℚ × ℚ)} (h : taken <+: b.grants calls) :
    ∃ made, made <+: calls ∧ taken = b.grants made := by
  refine ⟨calls.take taken.length, List.take_prefix _ calls, ?_⟩
  rw [← grants_take]
  exact List.prefix_iff_eq_take.mp h

theorem map_fst_grants (b : TokenBucket) (calls : List (ℚ × TokenCall)) :
    (b.grants calls).map Prod.fst = calls.map Prod.fst := by
  induction calls generalizing b with
  | nil => rfl
  | cons c calls ih => rw [grants, List.map_cons, List.map_cons, ih]

theorem after_append (b : TokenBucket) (calls more : List (ℚ × TokenCall)) :
    b.after (calls ++ more) = (b.after calls).after more := List.foldl_append

theorem create_ok (hcapacity : 0 < capacity) (hrate : 0 < rate) (start : ℚ) :
    ∃ b, create (some capacity) (some rate) start = .ok b ∧
      Tracks capacity rate b [(start, 0)] start := by
  have hcreate : create (some capacity) (some rate) start = .ok
      { capacity := capacity
        refillRatePerSecond := rate
        tokens := capacity
        lastRefill := start
        capacity_pos := hcapacity
        rate_pos := hrate
        tokens_nonneg := hcapacity.le
        tokens_le := le_rfl } := by
    rw [create, finitePositive_pos _ hcapacity, finitePositive_pos _ hrate]
    rfl
  refine ⟨_, hcreate, rfl, rfl, le_rfl, fun t _ => ?_⟩
  -- a full bucket at the start counts as a call that took nothing
  have hlevel : Tight capacity rate ([] ++ [(start, 0)]) t
      (min capacity (capacity - 0 + rate * (t - start))) := tight_fresh.next
  rwa [sub_zero] at hlevel

/-- What holds of a bucket made at time `start`, for all calls at times that never go back. -/
structure RateLaw (capacity rate start : ℚ) (b : TokenBucket) : Prop where
  granted_iff : ∀ (calls : List (ℚ × TokenCall)) (t n : ℚ),
    (start :: (calls.map Prod.fst ++ [t])).Pairwise (· ≤ ·) → 0 < n →
    (((b.after calls).tryConsume (some n) t).2 = .ok true ↔
      Admits capacity rate ((start, 0) :: b.grants calls) t n)
  window : ∀ (calls : List (ℚ × TokenCall)) (s g : ℚ) (rest : List (ℚ × ℚ)),
    (start :: calls.map Prod.fst).Pairwise (· ≤ ·) →
    (s, g) :: rest <:+: (start, 0) :: b.grants calls →
    total ((s, g) :: rest) ≤
      capacity + rate * ((((s, g) :: rest).getLast (List.cons_ne_nil _ _)).1 - s)
  neutral : ∀ (calls more : List (ℚ × TokenCall)) (t : ℚ) (c : TokenCall),
    (start :: (calls ++ (t, c) :: more).map Prod.fst).Pairwise (· ≤ ·) →
    ((b.after calls).call c t).2 ≠ .consumed (.ok true) →
    (b.after (calls ++ [(t, c)])).answers more = (b.after calls).answers more
  bounded : ∀ calls : List (ℚ × TokenCall), (start :: calls.map Prod.fst).Pairwise (· ≤ ·) →
    0 ≤ (b.after calls).tokens ∧ (b.after calls).tokens ≤ capacity

/-- The last time may come once more. -/
theorem sorted_last {start : ℚ} {times : List ℚ} (h : (start :: times).Pairwise (· ≤ ·)) :
    (start :: (times ++ [(start :: times).getLast (List.cons_ne_nil _ _)])).Pairwise (· ≤ ·) := by
  rw [← List.cons_append, List.pairwise_append]
  refine ⟨h, List.pairwise_singleton _ _, fun a ha e he => ?_⟩
  rw [List.mem_singleton.mp he]
  exact h.rel_getLast ha

-- A window ends where some of the calls have been made.
theorem Tracks.window {start s g : ℚ} {rest : List (ℚ × ℚ)}
    (h : Tracks capacity rate b [(start, 0)] start)
    (hsorted : (start :: calls.map Prod.fst).Pairwise (· ≤ ·))
    (hwindow : (s, g) :: rest <:+: (start, 0) :: b.grants calls) :
    total ((s, g) :: rest) ≤
      capacity + rate * ((((s, g) :: rest).getLast (List.cons_ne_nil _ _)).1 - s) := by
  -- a run of entries is the end of what some first calls have taken
  obtain ⟨history, hsuffix, hinitial⟩ := List.infix_iff_suffix_prefix.mp hwindow
  obtain ⟨made, hmade, rfl⟩ : ∃ made, made <+: calls ∧ history = (start, 0) :: b.grants made := by
    cases history with
    | nil => exact absurd (List.suffix_nil.mp hsuffix) (List.cons_ne_nil _ _)
    | cons first history =>
        obtain ⟨rfl, htaken⟩ := List.cons_prefix_cons.mp hinitial
        obtain ⟨made, hmade, rfl⟩ := grants_of_initial htaken
        exact ⟨made, hmade, rfl⟩
  have htimes : ((start, 0) :: b.grants made).map Prod.fst = start :: made.map Prod.fst :=
    congrArg (start :: ·) (map_fst_grants b made)
  have hlast : (((s, g) :: rest).getLast (List.cons_ne_nil _ _)).1 =
      (start :: made.map Prod.fst).getLast (List.cons_ne_nil _ _) := by
    rw [hsuffix.getLast (List.cons_ne_nil _ _),
      ← List.getLast_map (f := Prod.fst) (by simp)]
    simp only [htimes]
  have hmadeSorted : (start :: made.map Prod.fst).Pairwise (· ≤ ·) :=
    hsorted.sublist ((hmade.map Prod.fst).sublist.cons_cons start)
  -- after those calls the bucket holds no less than nothing
  have hbudget := (h.after (sorted_last hmadeSorted)).admits_zero.2 s g rest hsuffix
  rw [add_zero] at hbudget
  rw [hlast]
  exact hbudget

/-- A try is granted exactly when no window that ends with it goes over the capacity plus the rate
times its length.  So no window ever does, and a call that takes nothing changes no later answer. -/
theorem create_rateLaw (hcapacity : 0 < capacity) (hrate : 0 < rate) (start : ℚ) :
    ∃ b, create (some capacity) (some rate) start = .ok b ∧ RateLaw capacity rate start b := by
  obtain ⟨b, hcreate, htracks⟩ := create_ok hcapacity hrate start
  refine ⟨b, hcreate, fun calls t n hsorted hn => ?_, fun calls s g rest => htracks.window,
    fun calls more t c hsorted hnone => ?_, fun calls hsorted => ?_⟩
  · exact (htracks.after hsorted).granted_iff hn
  · rw [List.map_append, List.map_cons, ← List.cons_append] at hsorted
    have hthrough : (start :: (calls.map Prod.fst ++ [t])).Pairwise (· ≤ ·) :=
      hsorted.sublist ((List.sublist_append_left [t] _).append_left (start :: calls.map Prod.fst))
    have hmore : (t :: more.map Prod.fst).Pairwise (· ≤ ·) := (List.pairwise_append.mp hsorted).2.1
    rw [after_append]
    exact (sameFrom_of_not_granted (htracks.after hthrough).lastRefill_le hnone).answers hmore
  · have hafter := htracks.after (sorted_last hsorted)
    rw [← hafter.capacity_eq]
    exact ⟨(b.after calls).tokens_nonneg, (b.after calls).tokens_le⟩

theorem create_rateLaw_two :
    ∃ b, create (some 2) (some 1) 0 = .ok b ∧ RateLaw 2 1 0 b :=
  create_rateLaw (by decide +kernel) (by decide +kernel) 0

-- A refused try, a query and a try that throws change nothing for the try a second later.
example : (create (some 2) (some 1) 0).map (·.answers
      [(0, .tryConsume (some (3 / 2))), (0, .tryConsume (some 1)), (1 / 4, .availableTokens),
        (1 / 4, .tryConsume none), (1 / 2, .tryConsume (some 1)), (2, .tryConsume (some 2))]) =
    .ok [.consumed (.ok true), .consumed (.ok false), .available (3 / 4),
      .consumed (.error "consumed tokens must be finite and positive"), .consumed (.ok true),
      .consumed (.ok false)] := by
  decide +kernel

end TokenBucket

end VllmSloProxy
