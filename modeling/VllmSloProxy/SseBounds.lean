import VllmSloProxy.SseAtomicity

/-!
# The memory of the SSE parser

The buffer, the data of the open event and the data of every event stay below the limit, also in
what a throwing `feed` leaves behind.  The comparisons behind this are arranged so that no operation
on `size_t` wraps; `feed` is given here for any way to make them.
-/

namespace VllmSloProxy

open Delimited SseReading Transition

namespace SseParser

/-- The checks of the limit that `feed` makes.  One without a result has gone wrong. -/
structure LimitChecks where
  enforceLimit : SseParser → Nat → Option (Except LengthError Unit)
  appendDataLine : SseParser → List UInt8 → Option (SseParser × Except LengthError Unit)

/-- The source's comparisons from left to right, without a result where an operation wraps. -/
def LimitChecks.checked : LimitChecks where
  enforceLimit p extraBytes :=
    if extraBytes > p.maxBufferSize then
      some (.error ⟨"SseParser buffer size limit exceeded"⟩)
    else do
      let room ← SizeT.checkedSub p.maxBufferSize extraBytes
      if p.buffer.length > room then
        return .error ⟨"SseParser buffer size limit exceeded"⟩
      else return .ok ()
  appendDataLine p value :=
    let separatorBytes := if p.hasData then 1 else 0
    let refused := (p, .error ⟨"SseParser event data size limit exceeded"⟩)
    if value.length > p.maxBufferSize then some refused
    else do
      let room ← SizeT.checkedSub p.maxBufferSize value.length
      if p.currentData.length > room then return refused
      else
        let total ← SizeT.checkedAdd p.currentData.length value.length
        let most ← SizeT.checkedSub p.maxBufferSize separatorBytes
        if total > most then return refused
        else
          let separator := if p.hasData then [LF] else []
          return ({ p with currentData := p.currentData ++ separator ++ value, hasData := true },
            .ok ())

/-- What the comparisons are meant to say, in unbounded arithmetic. -/
def LimitChecks.exact : LimitChecks where
  enforceLimit p extraBytes := some (
    if p.maxBufferSize < p.buffer.length + extraBytes then
      .error ⟨"SseParser buffer size limit exceeded"⟩
    else .ok ())
  appendDataLine p value :=
    let separator := if p.hasData then [LF] else []
    some (
      if p.maxBufferSize < p.currentData.length + separator.length + value.length then
        (p, .error ⟨"SseParser event data size limit exceeded"⟩)
      else
        ({ p with currentData := p.currentData ++ separator ++ value, hasData := true }, .ok ()))

/-- `feedLine` by the given checks. -/
def feedLineBy (checks : LimitChecks) (p : SseParser) (line : List UInt8) :
    Option (SseParser × Except LengthError (List SseEvent)) :=
  if line = [] then
    if p.hasData then some (p.clearCurrentEvent, .ok [p.makeEvent])
    else some (p, .ok [])
  else if line.head? = some colon then
    some (p, .ok [])
  else if line.length ≥ dataPrefix.length ∧ line.take dataPrefix.length = dataPrefix then
    match checks.appendDataLine p (stripSingleLeadingSpace (line.drop dataPrefix.length)) with
    | none => none
    | some (p, .error e) => some (p, .error e)
    | some (p, .ok ()) => some (p, .ok [])
  else some (p, .ok [])

/-- `feedLoop` by the given checks. -/
def feedLoopBy (checks : LimitChecks) : Nat → SseParser → List UInt8 → List SseEvent →
    Option (SseParser × Except LengthError (List SseEvent × List UInt8))
  | 0, p, rest, events => some (p, .ok (events, rest))
  | fuel + 1, p, rest, events =>
      match splitFirst LF rest with
      | none => some (p, .ok (events, rest))
      | some (line, rest) =>
          match p.feedLineBy checks (stripTrailingCr line) with
          | none => none
          | some (p, .error e) => some (p, .error e)
          | some (p, .ok emitted) => feedLoopBy checks fuel p rest (events ++ emitted)

/-- `feed` by the given checks. -/
def feedBy (checks : LimitChecks) (p : SseParser) (chunk : List UInt8) :
    Option (SseParser × Except LengthError (List SseEvent)) :=
  match checks.enforceLimit p chunk.length with
  | none => none
  | some (.error e) => some (p, .error e)
  | some (.ok ()) =>
      let p := { p with buffer := p.buffer ++ chunk }
      match feedLoopBy checks p.buffer.length p p.buffer [] with
      | none => none
      | some (p, .error e) => some (p, .error e)
      | some (p, .ok (events, rest)) => some ({ p with buffer := rest }, .ok events)

/-- What holds between the calls, and inside `feed` from the append to the buffer on. -/
structure Bounded (p : SseParser) : Prop where
  buffer : p.buffer.length ≤ p.maxBufferSize
  currentData : p.currentData.length ≤ p.maxBufferSize
  noData : p.hasData = false → p.currentData = []

variable {p p' : SseParser} {checks : LimitChecks} {line value chunk rest : List UInt8}
  {events : List SseEvent}

-- 1. The checks of the source are exact on a bounded parser.

theorem enforceLimit_eq (extraBytes : Nat) : p.enforceLimit extraBytes =
    if p.maxBufferSize < p.buffer.length + extraBytes then
      .error ⟨"SseParser buffer size limit exceeded"⟩
    else .ok () := by
  have hthrows := enforceLimit_error_iff (p := p) extraBytes
  unfold enforceLimit at hthrows ⊢
  split at hthrows
  · rename_i hrefused
    rw [if_pos hrefused, if_pos (hthrows.mp ⟨_, rfl⟩)]
  · rename_i hpassed
    have hroom : ¬ p.maxBufferSize < p.buffer.length + extraBytes := fun hover => by
      obtain ⟨e, he⟩ := hthrows.mpr hover
      cases he
    rw [if_neg hpassed, if_neg hroom]

theorem appendDataLine_eq (hfits : p.currentData.length ≤ p.maxBufferSize) (value : List UInt8) :
    p.appendDataLine value =
      if p.maxBufferSize <
          p.currentData.length + (if p.hasData then [LF] else []).length + value.length then
        (p, .error ⟨"SseParser event data size limit exceeded"⟩)
      else
        ({ p with
          currentData := p.currentData ++ (if p.hasData then [LF] else []) ++ value
          hasData := true }, .ok ()) := by
  have hseparator : (if p.hasData then [LF] else []).length = if p.hasData then 1 else 0 := by
    split <;> rfl
  have hthrows : (∃ e, (p.appendDataLine value).2 = .error e) ↔ p.maxBufferSize <
      p.currentData.length + (if p.hasData then 1 else 0) + value.length :=
    appendDataLine_error_iff hfits
  rw [← hseparator] at hthrows
  by_cases hrefused : value.length > p.maxBufferSize ∨
      p.currentData.length > SizeT.sub p.maxBufferSize value.length ∨
      SizeT.add p.currentData.length value.length >
        SizeT.sub p.maxBufferSize (if p.hasData then 1 else 0)
  · have heq : p.appendDataLine value =
        (p, .error ⟨"SseParser event data size limit exceeded"⟩) := if_pos hrefused
    rw [heq] at hthrows ⊢
    rw [if_pos (hthrows.mp ⟨_, rfl⟩)]
  · have heq : p.appendDataLine value = ({ p with
        currentData := p.currentData ++ (if p.hasData then [LF] else []) ++ value
        hasData := true }, .ok ()) := if_neg hrefused
    rw [heq] at hthrows ⊢
    rw [if_neg fun hover => (nomatch hthrows.mpr hover)]

/-- The checks do on a bounded parser what the source does. -/
structure LimitChecks.Agree (checks : LimitChecks) : Prop where
  enforceLimit : ∀ p extraBytes, p.Bounded →
    checks.enforceLimit p extraBytes = some (p.enforceLimit extraBytes)
  appendDataLine : ∀ p value, p.Bounded →
    checks.appendDataLine p value = some (p.appendDataLine value)

theorem LimitChecks.exact_agree : LimitChecks.exact.Agree := by
  refine ⟨fun _ _ _ => ?_, fun p _ h => ?_⟩
  · rw [enforceLimit_eq]
    rfl
  · rw [appendDataLine_eq h.currentData]
    rfl

theorem checked_enforceLimit (p : SseParser) (extraBytes : Nat) :
    LimitChecks.checked.enforceLimit p extraBytes = some (p.enforceLimit extraBytes) := by
  unfold enforceLimit LimitChecks.checked
  dsimp only
  by_cases hextra : extraBytes > p.maxBufferSize
  · rw [if_pos hextra, if_pos (.inl hextra)]
  · have hsub := SizeT.checkedSub_eq (Nat.le_of_not_lt hextra) p.maxBufferSize_lt
    rw [if_neg hextra, hsub, Option.bind_eq_bind, Option.bind_some]
    by_cases hbuffer : p.buffer.length > SizeT.sub p.maxBufferSize extraBytes
    · rw [if_pos hbuffer, if_pos (.inr hbuffer)]
      rfl
    · rw [if_neg hbuffer, if_neg (not_or.mpr ⟨hextra, hbuffer⟩)]
      rfl

/-- Each comparison keeps the operations of the next one from wrapping. -/
theorem checked_appendDataLine (p : SseParser) (value : List UInt8) :
    LimitChecks.checked.appendDataLine p value = some (p.appendDataLine value) := by
  have hlt : p.maxBufferSize < SizeT.modulus := p.maxBufferSize_lt
  unfold appendDataLine LimitChecks.checked
  dsimp only
  by_cases hvalue : value.length > p.maxBufferSize
  · rw [if_pos hvalue, if_pos (.inl hvalue)]
  · have hle : value.length ≤ p.maxBufferSize := Nat.le_of_not_lt hvalue
    rw [if_neg hvalue, SizeT.checkedSub_eq hle hlt, Option.bind_eq_bind, Option.bind_some]
    by_cases hcurrent : p.currentData.length > SizeT.sub p.maxBufferSize value.length
    · rw [if_pos hcurrent, if_pos (.inr (.inl hcurrent))]
      rfl
    · have hsum : p.currentData.length + value.length < SizeT.modulus := by
        rw [SizeT.sub_eq hle hlt] at hcurrent
        omega
      have hone : (if p.hasData then 1 else 0) ≤ p.maxBufferSize := by
        have hpos : 0 < p.maxBufferSize := p.maxBufferSize_pos
        split <;> omega
      rw [if_neg hcurrent, SizeT.checkedAdd_eq hsum, Option.bind_some,
        SizeT.checkedSub_eq hone hlt, Option.bind_some]
      by_cases hover : SizeT.add p.currentData.length value.length >
          SizeT.sub p.maxBufferSize (if p.hasData then 1 else 0)
      · rw [if_pos hover, if_pos (.inr (.inr hover))]
        rfl
      · rw [if_neg hover, if_neg (not_or.mpr ⟨hvalue, not_or.mpr ⟨hcurrent, hover⟩⟩)]
        rfl

theorem LimitChecks.checked_agree : LimitChecks.checked.Agree :=
  ⟨fun p extraBytes _ => checked_enforceLimit p extraBytes,
    fun p value _ => checked_appendDataLine p value⟩

-- 2. What a call preserves.

theorem Bounded.appendDataLine (h : p.Bounded) (value : List UInt8) :
    (p.appendDataLine value).1.Bounded := by
  rw [appendDataLine_eq h.currentData]
  by_cases hover : p.maxBufferSize <
      p.currentData.length + (if p.hasData then [LF] else []).length + value.length
  · rw [if_pos hover]
    exact h
  · rw [if_neg hover]
    refine ⟨h.buffer, ?_, fun hnone => (nomatch hnone)⟩
    show (p.currentData ++ (if p.hasData then [LF] else []) ++ value).length ≤ p.maxBufferSize
    rw [List.length_append, List.length_append]
    exact Nat.not_lt.mp hover

theorem Bounded.feedLine (h : p.Bounded) (line : List UInt8) : (p.feedLine line).1.Bounded := by
  by_cases hne : line = []
  · rw [hne, feedLine_nil]
    split
    · exact ⟨h.buffer, Nat.zero_le _, fun _ => rfl⟩
    · exact h
  · cases hline : lineData line with
    | none =>
        rw [feedLine_of_none hne hline]
        exact h
    | some text =>
        rw [feedLine_of_some hline]
        exact h.appendDataLine text

theorem Bounded.feedLine_events (h : p.Bounded) (hok : (p.feedLine line).2 = .ok events) :
    ∀ e ∈ events, e.data.length ≤ p.maxBufferSize := by
  by_cases hne : line = []
  · rw [hne, feedLine_nil] at hok
    split at hok
    · -- an event carries the data collected so far
      obtain rfl := Except.ok.inj hok
      intro e he
      rw [List.mem_singleton.mp he]
      exact h.currentData
    · obtain rfl := Except.ok.inj hok
      exact fun e he => (nomatch he)
  · cases hline : lineData line with
    | none =>
        rw [feedLine_of_none hne hline] at hok
        obtain rfl := Except.ok.inj hok
        exact fun e he => (nomatch he)
    | some text =>
        rw [feedLine_of_some hline] at hok
        cases hresult : (p.appendDataLine text).2 with
        | error e =>
            rw [hresult] at hok
            cases hok
        | ok _ =>
            rw [hresult] at hok
            obtain rfl := Except.ok.inj hok
            exact fun e he => (nomatch he)

/-- Where the loop stops it returns what it has. -/
theorem length_of_stopped {limit : Nat} {all : List SseEvent} {left : List UInt8}
    (hevents : ∀ e ∈ events, e.data.length ≤ limit)
    (hok : (Except.ok (events, rest) : Except LengthError _) = .ok (all, left)) :
    left.length ≤ rest.length ∧ ∀ e ∈ all, e.data.length ≤ limit := by
  obtain ⟨rfl, rfl⟩ := Prod.mk.inj (Except.ok.inj hok)
  exact ⟨Nat.le_refl _, hevents⟩

/-- The loop only changes the data of the event, so the parser stays bounded also where a line makes
it throw. -/
theorem Bounded.feedLoop {fuel : Nat} (h : p.Bounded)
    (hevents : ∀ e ∈ events, e.data.length ≤ p.maxBufferSize) :
    (feedLoop fuel p rest events).1.Bounded ∧
      ∀ all left, (feedLoop fuel p rest events).2 = .ok (all, left) →
        left.length ≤ rest.length ∧ ∀ e ∈ all, e.data.length ≤ p.maxBufferSize := by
  induction fuel generalizing p rest events with
  | zero => exact ⟨h, fun _ _ => length_of_stopped hevents⟩
  | succ fuel ih =>
      unfold SseParser.feedLoop
      split
      · exact ⟨h, fun _ _ => length_of_stopped hevents⟩
      · rename_i line after hsome
        have hlength := length_of_splitFirst hsome
        have hline := h.feedLine (stripTrailingCr line)
        have hsame := feedLine_sameButData p (stripTrailingCr line)
        split
        · rename_i hresult
          rw [hresult] at hline
          exact ⟨hline, fun all left hok => by cases hok⟩
        · rename_i p₁ emitted hresult
          have hemitted : ∀ e ∈ emitted, e.data.length ≤ p.maxBufferSize :=
            h.feedLine_events (congrArg Prod.snd hresult)
          rw [hresult] at hline hsame
          have hmore : ∀ e ∈ events ++ emitted, e.data.length ≤ p₁.maxBufferSize := by
            intro e he
            rw [hsame.maxBufferSize]
            rcases List.mem_append.mp he with he | he
            · exact hevents e he
            · exact hemitted e he
          obtain ⟨hbounded, hrest⟩ := ih hline hmore
          rw [hsame.maxBufferSize] at hrest
          refine ⟨hbounded, fun all left hok => ?_⟩
          have hleft := hrest all left hok
          exact ⟨by omega, hleft.2⟩

theorem Bounded.appendChunk (h : p.Bounded) (hroom : p.enforceLimit chunk.length = .ok ()) :
    ({ p with buffer := p.buffer ++ chunk } : SseParser).Bounded := by
  refine ⟨?_, h.currentData, h.noData⟩
  show (p.buffer ++ chunk).length ≤ p.maxBufferSize
  rw [List.length_append]
  by_contra hover
  obtain ⟨e, he⟩ := (enforceLimit_error_iff chunk.length).mpr (Nat.lt_of_not_le hover)
  rw [hroom] at he
  cases he

theorem Bounded.feed (h : p.Bounded) (chunk : List UInt8) :
    (p.feed chunk).1.Bounded ∧
      ∀ events, (p.feed chunk).2 = .ok events → ∀ e ∈ events, e.data.length ≤ p.maxBufferSize := by
  unfold SseParser.feed
  split
  · exact ⟨h, fun events hok => (nomatch hok)⟩
  · rename_i hroom
    have hchunk := h.appendChunk hroom
    extract_lets q
    have hloop : (SseParser.feedLoop q.buffer.length q q.buffer []).1.Bounded ∧
        ∀ all left, (SseParser.feedLoop q.buffer.length q q.buffer []).2 = .ok (all, left) →
          left.length ≤ q.buffer.length ∧ ∀ e ∈ all, e.data.length ≤ p.maxBufferSize :=
      hchunk.feedLoop fun e he => (nomatch he)
    have hsame := feedLoop_sameButData q.buffer.length q q.buffer []
    split
    · rename_i hresult
      rw [hresult] at hloop
      exact ⟨hloop.1, fun events hok => (nomatch hok)⟩
    · rename_i events left hresult
      rw [hresult] at hloop hsame
      have hleft := hloop.2 _ _ rfl
      refine ⟨⟨?_, hloop.1.currentData, hloop.1.noData⟩, fun all hok => ?_⟩
      · -- what is left unconsumed was in the buffer
        show left.length ≤ _
        rw [hsame.maxBufferSize]
        exact Nat.le_trans hleft.1 hchunk.buffer
      · obtain rfl := Except.ok.inj hok
        exact hleft.2

theorem call_total (p : SseParser) (c : SseCall) : ∃ p', p.call c = some p' := by
  cases c <;> exact ⟨_, rfl⟩

theorem Bounded.call {c : SseCall} (h : p.Bounded) (hcall : p.call c = some p') :
    p'.Bounded ∧ p'.maxBufferSize = p.maxBufferSize := by
  cases c with
  | feed chunk =>
      cases hcall
      exact ⟨(h.feed chunk).1, feed_maxBufferSize p chunk⟩
  | reset =>
      cases hcall
      exact ⟨⟨Nat.zero_le _, Nat.zero_le _, fun _ => rfl⟩, rfl⟩
  | pendingBytes =>
      cases hcall
      exact ⟨h, rfl⟩

-- 3. Checks that agree with the source give its `feed`.

theorem feedLineBy_eq (hagree : checks.Agree) (h : p.Bounded) (line : List UInt8) :
    p.feedLineBy checks line = some (p.feedLine line) := by
  unfold feedLineBy feedLine
  rw [hagree.appendDataLine p _ h]
  split
  · split <;> rfl
  · split
    · rfl
    · split
      · cases p.appendDataLine (stripSingleLeadingSpace (line.drop dataPrefix.length)) with
        | mk p₁ result => cases result <;> rfl
      · rfl

theorem feedLoopBy_eq (hagree : checks.Agree) (fuel : Nat) (h : p.Bounded) (rest : List UInt8)
    (events : List SseEvent) :
    feedLoopBy checks fuel p rest events = some (feedLoop fuel p rest events) := by
  induction fuel generalizing p rest events with
  | zero => rfl
  | succ fuel ih =>
      unfold feedLoopBy feedLoop
      cases splitFirst LF rest with
      | none => rfl
      | some cut =>
          obtain ⟨line, after⟩ := cut
          have hline := h.feedLine (stripTrailingCr line)
          dsimp only
          rw [feedLineBy_eq hagree h]
          cases hresult : p.feedLine (stripTrailingCr line) with
          | mk p₁ result =>
              rw [hresult] at hline
              cases result with
              | error e => rfl
              | ok emitted => exact ih hline after (events ++ emitted)

theorem feedBy_eq (hagree : checks.Agree) (h : p.Bounded) (chunk : List UInt8) :
    p.feedBy checks chunk = some (p.feed chunk) := by
  unfold feedBy feed
  rw [hagree.enforceLimit p _ h]
  cases hroom : p.enforceLimit chunk.length with
  | error e => rfl
  | ok _ =>
      dsimp only
      rw [feedLoopBy_eq hagree _ (h.appendChunk hroom)]
      generalize feedLoop _ _ _ _ = result
      obtain ⟨p₁, outcome⟩ := result
      cases outcome <;> rfl

/-- In every state that a sequence of calls reaches, throwing ones included: the sizes, when the
next data line would be refused, the data of what `feed` would return next, and that none of the
checks it makes on the way wraps or errs. -/
theorem create_bounded {maxBufferSize : Nat} {hlt : maxBufferSize < SizeT.modulus}
    (hp : create maxBufferSize hlt = .ok p) (calls : List SseCall) :
    ∃ q, run call p calls = some q ∧
      (q.buffer.length ≤ maxBufferSize ∧ q.currentData.length ≤ maxBufferSize ∧
        (q.hasData = false → q.currentData = [])) ∧
      (∀ value, (∃ e, (q.appendDataLine value).2 = .error e) ↔
        maxBufferSize < q.currentData.length + (if q.hasData then 1 else 0) + value.length) ∧
      ∀ chunk, (∀ events, (q.feed chunk).2 = .ok events → ∀ e ∈ events,
          e.data.length ≤ maxBufferSize) ∧
        q.feedBy .checked chunk = some (q.feed chunk) ∧
        q.feedBy .exact chunk = some (q.feed chunk) := by
  have hfresh : p.Bounded ∧ p.maxBufferSize = maxBufferSize := by
    refine ⟨?_, create_maxBufferSize hp⟩
    rw [← create_reset hp]
    exact ⟨Nat.zero_le _, Nat.zero_le _, fun _ => rfl⟩
  obtain ⟨q, hrun⟩ := run_total call_total p calls
  have hq := run_induct (p := fun q => q.Bounded ∧ q.maxBufferSize = maxBufferSize) hrun hfresh
    fun a c b ha hcall => ⟨(ha.1.call hcall).1, (ha.1.call hcall).2.trans ha.2⟩
  obtain ⟨hq, rfl⟩ := hq
  exact ⟨q, hrun, ⟨hq.buffer, hq.currentData, hq.noData⟩,
    fun value => appendDataLine_error_iff hq.currentData, fun chunk => ⟨(hq.feed chunk).2,
      feedBy_eq LimitChecks.checked_agree hq chunk, feedBy_eq LimitChecks.exact_agree hq chunk⟩⟩

/-- After a `feed` that threw half-way. -/
theorem create_bounded_sixteen :
    ∃ q, run call sixteenBytes overlongEvent = some q ∧
      (q.buffer.length ≤ 16 ∧ q.currentData.length ≤ 16 ∧
        (q.hasData = false → q.currentData = [])) ∧
      q.feedBy .checked [LF] = some (q.feed [LF]) := by
  have hfresh : create 16 (by decide) = .ok sixteenBytes := rfl
  obtain ⟨q, hrun, hsizes, -, hfeed⟩ := create_bounded hfresh overlongEvent
  exact ⟨q, hrun, hsizes, (hfeed [LF]).2.1⟩

end SseParser

end VllmSloProxy
