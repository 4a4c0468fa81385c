import VllmSloProxy.Accounting
import VllmSloProxy.SseWatch

/-!
# The time to the first token

A session calls `record_ttft` when a chunk brings the first event that has data.  A chunk that makes
the parser throw brings no events at all, although it is passed on to the client like any other.
-/

namespace VllmSloProxy

open Context Delimited Relation SseReading Transition

def hasText (event : SseEvent) : Bool := !event.data.isEmpty

/-- Some complete event of the bytes has data. -/
def hasToken (s : Bytes) : Bool := (events s).any hasText

/-- The chunk does not fit beside what is pending, or the data of an event becomes too long. -/
def Overflows (limit : Nat) (s chunk : Bytes) : Prop :=
  limit < (tail s).length + chunk.length ∨
    ∃ block ∈ (lines (s ++ chunk)).splitOn [], limit < (joinLines (block.filterMap lineData)).length

instance (limit : Nat) (s chunk : Bytes) : Decidable (Overflows limit s chunk) :=
  inferInstanceAs (Decidable (_ ∨ _))

/-- What a call of `feed` shows of the first token. -/
def sawToken : Except LengthError (List SseEvent) → Bool
  | .ok events => events.any hasText
  | .error _ => false

variable {p : SseParser} {s chunk : List UInt8} {emitted : List SseEvent}

-- 1. The bytes of the body.

theorem events_append (s t : List UInt8) : ∃ more, events (s ++ t) = events s ++ more := by
  unfold events
  rw [lines_append, blocks_eq, blocks_eq, segments_append, List.filterMap_append]
  exact ⟨_, rfl⟩

theorem hasToken_append (h : hasToken s = true) (t : List UInt8) : hasToken (s ++ t) = true := by
  obtain ⟨more, hmore⟩ := events_append s t
  unfold hasToken at h ⊢
  rw [hmore, List.any_append, h, Bool.true_or]

theorem Watching.threw_iff (h : Watching p s emitted) (chunk : List UInt8) :
    threw (p.feed chunk).2 = true ↔ Overflows p.maxBufferSize s chunk := by
  have hthrows := h.regular.read.feed_error_iff h.regular.fits chunk
  rw [fits_iff_blocks] at hthrows
  simp only [not_forall, Nat.not_le, exists_prop] at hthrows
  rw [Overflows, ← hthrows]
  cases (p.feed chunk).2 with
  | ok events => exact ⟨fun h => (nomatch h), fun ⟨e, he⟩ => (nomatch he)⟩
  | error e => exact ⟨fun _ => ⟨e, rfl⟩, fun _ => rfl⟩

theorem Watching.hasToken_eq (h : Watching p s emitted) : hasToken s = emitted.any hasText := by
  unfold hasToken
  rw [← h.regular.read.complete.events]
  rfl

/-- A chunk on which the parser does not throw. -/
theorem Watching.hasToken_feed (h : Watching p s emitted) (hok : threw (p.feed chunk).2 = false) :
    hasToken (s ++ chunk) = (hasToken s || sawToken (p.feed chunk).2) := by
  cases hresult : (p.feed chunk).2 with
  | error e =>
      rw [hresult] at hok
      cases hok
  | ok events =>
      have hafter : Watching (p.feed chunk).1 (s ++ chunk) (emitted ++ events) :=
        h.feed (Prod.ext rfl hresult)
      rw [hafter.hasToken_eq, h.hasToken_eq, List.any_append]
      rfl

-- 2. The flag and the calls.

namespace ProxySession

/-- What is done about the first token: `found` says whether an event with data was seen. -/
structure Measured (found : Bool) (s s' : ProxySession) : Prop where
  delivered : s'.delivered = s.delivered
  seen : s'.firstSseDataSeen = (s.firstSseDataSeen || found)
  ttfts : s'.calls.count .recordTtft + s.firstSseDataSeen.toNat =
    s.calls.count .recordTtft + s'.firstSseDataSeen.toNat

/-- The flag is that of the bytes, and `record_ttft` was called when it was set. -/
structure Measures (s : ProxySession) : Prop where
  seen : s.firstSseDataSeen = hasToken s.dataChunks.flatten
  ttfts : s.calls.count .recordTtft = s.firstSseDataSeen.toNat

variable {s s' s'' : ProxySession} {found found' : Bool} {op : Op} {r : Outcome}

theorem Measured.trans (h : Measured found s s') (h' : Measured found' s' s'') :
    Measured (found || found') s s'' := by
  refine ⟨h'.delivered.trans h.delivered, ?_, ?_⟩
  · rw [h'.seen, h.seen, Bool.or_assoc]
  · have hfirst := h.ttfts
    have hsecond := h'.ttfts
    omega

theorem Measured.silent (more : List Call) (hdelivered : s'.delivered = s.delivered)
    (hseen : s'.firstSseDataSeen = s.firstSseDataSeen) (hcalls : s'.calls = s.calls ++ more)
    (hmore : .recordTtft ∉ more) : Measured false s s' := by
  refine ⟨hdelivered, by rw [hseen, Bool.or_false], ?_⟩
  rw [hcalls, List.count_append, List.count_eq_zero.mpr hmore, hseen, Nat.add_zero]

theorem Measured.of_same (hdelivered : s'.delivered = s.delivered)
    (hseen : s'.firstSseDataSeen = s.firstSseDataSeen) (hcalls : s'.calls = s.calls) :
    Measured false s s' :=
  .silent [] hdelivered hseen (by rw [hcalls, List.append_nil]) List.not_mem_nil

theorem start_measured (op : Op) (s : ProxySession) : Measured false s (s.start op) :=
  .silent [.start op s.permitValid] rfl rfl rfl (by simp)

theorem note_measured {call : Call} (hcall : .recordTtft ≠ call) (s : ProxySession) :
    Measured false s (s.note call) :=
  .silent [call] rfl rfl rfl (by simpa using hcall)

theorem Measures.of_measured (h : s.Measures) (hmeasured : Measured false s s') : s'.Measures := by
  have hseen : s'.firstSseDataSeen = s.firstSseDataSeen := by
    rw [hmeasured.seen, Bool.or_false]
  refine ⟨?_, ?_⟩
  · rw [hseen, h.seen, dataChunks_congr hmeasured.delivered]
  · have httfts := hmeasured.ttfts
    rw [h.ttfts] at httfts
    omega

end ProxySession

open ProxySession

namespace Context

variable {c c' c₁ : Context} {op next : Op} {r : Outcome} {ending : Ending}

/-- The loop over the events of a chunk sets the flag at the first event with data. -/
theorem observeEvents_measured (events : List SseEvent) (done : Bool) (c : Context)
    (halive : c.server.alive = true) (hdated : c.self.requestStart.getD 0 ≤ c.clock) :
    Measured (events.any hasText) c.self (c.observeEvents done events).2.self := by
  induction events generalizing c done with
  | nil => exact .of_same rfl rfl rfl
  | cons event events ih =>
      rw [observeEvents, List.any_cons]
      split
      · rename_i hfirst
        obtain ⟨hunseen, htext⟩ := Bool.and_eq_true_iff.mp hfirst
        have hunseen' : c.self.firstSseDataSeen = false := by simpa using hunseen
        have htext' : hasText event = true := htext
        extract_lets s₁ c₁
        split
        · split
          · rename_i hthrown
            exact absurd hthrown (recordTtft_ne_error hdated _ _)
          · rename_i metrics _
            have hnoted : Measured true c.self ((c₁.setMetrics metrics).note .recordTtft).self := by
              refine ⟨rfl, ?_, ?_⟩
              · rw [Bool.or_true]
                rfl
              · show (c.self.calls ++ [Call.recordTtft]).count .recordTtft + _ =
                  c.self.calls.count Call.recordTtft + true.toNat
                rw [List.count_append, hunseen']
                rfl
            rw [htext']
            exact hnoted.trans (ih _ _ halive hdated)
        · rename_i hdead
          exact absurd halive hdead
      · rename_i hnot
        have hrest := ih (done || event.isDone) c halive hdated
        cases hseen : c.self.firstSseDataSeen with
        | true =>
            -- the flag is set already
            refine ⟨hrest.delivered, ?_, hrest.ttfts⟩
            rw [hrest.seen, hseen, Bool.true_or, Bool.true_or]
        | false =>
            have hempty : hasText event = false := by
              rw [hseen, Bool.not_false, Bool.true_and, Bool.not_eq_true] at hnot
              exact hnot
            rw [hempty, Bool.false_or]
            exact hrest

theorem observeSseChunk_measured (chunk : Bytes) (halive : c.server.alive = true)
    (hdated : c.self.requestStart.getD 0 ≤ c.clock) :
    Measured (sawToken (c.self.sseParser.feed chunk).2) c.self
      (c.observeSseChunk chunk).2.self := by
  unfold observeSseChunk
  extract_lets fed s₁ c₁
  have hfed : Measured false c.self c₁.self := .of_same rfl rfl rfl
  split
  · rename_i hresult
    rw [hresult]
    exact hfed
  · rename_i events hresult
    rw [hresult]
    exact hfed.trans (observeEvents_measured events false c₁ halive hdated)

theorem settle_measured : Measured false c.self (c.settle ending).self := by
  rw [settle_eq]
  refine .silent (c.endingCalls ending) rfl rfl rfl ?_
  unfold endingCalls
  split <;> cases ending <;> simp [Ending.call]

theorem Ends.measured (h : Ends ending c c') : Measured false c.self c'.self := by
  cases h with
  | already => exact .of_same rfl rfl rfl
  | quietly => exact settle_measured.trans (note_measured (by simp) _)
  | withError => exact settle_measured.trans (start_measured _ _)

theorem timeOut_measured : Measured false c.self c.timeOut.self := by
  rw [timeOut_self]
  exact .of_same rfl rfl rfl

theorem counted_measured : Measured false c.self c.counted.self :=
  .silent [.recordStarted] rfl rfl rfl (by simp)

theorem Requested.measured (h : Requested c c') (hpermit : c.self.permit = none) :
    Measured false c.self c'.self := by
  cases h with
  | unread => exact .of_same rfl rfl rfl
  | refused _ hends => exact hends.measured
  | health => exact start_measured _ _
  | admitted halive =>
      rw [startProxyRequest_eq (c := c.counted.setLimiter _) _ halive hpermit]
      exact counted_measured.trans (.silent [_, _] rfl rfl (List.append_assoc ..) (by simp))
  | queued => exact counted_measured
  | turnedAway _ _ hends => exact counted_measured.trans hends.measured

/-- The relay goes on without a chunk. -/
theorem Relay.measured (h : Relay op r c c₁ next) (hnone : op = .readBody → r.isData = false) :
    Measured false c.self (c₁.start next).self := by
  have hprepared {s : ProxySession} (hdelivered : s.delivered = c.self.delivered)
      (hseen : s.firstSseDataSeen = c.self.firstSseDataSeen) (hcalls : s.calls = c.self.calls) :
      Measured false c.self (s.start next) := by
    refine .silent [.start next s.permitValid] hdelivered hseen ?_ (by simp)
    rw [start_calls, hcalls]
  cases h with
  | chunk _ _ hop hec hdone =>
      have hdata := hnone hop
      rw [Outcome.isData, hec, hdone] at hdata
      cases hdata
  | _ => exact hprepared rfl rfl rfl

theorem Proceeds.measured (h : Proceeds op r c c') (hnone : op = .readBody → r.isData = false) :
    Measured false c.self c'.self := by
  cases h with
  | failed _ hends => exact hends.measured
  | headerLost => exact (finishRequest_ends c).measured
  | bodyEnded => exact (finishRequest_ends c).measured
  | lastWritten => exact (finishRequest_ends c).measured
  | nothingLeft hop hdata =>
      rw [hnone hop] at hdata
      cases hdata
  | relayed c₁ next hrelay => exact hrelay.measured hnone

/-- A handler beside the relay. -/
theorem Handled.measured (h : Handled op r c c') (hop : op.isRelay = false)
    (hpermit : op = .readRequest → c.self.permit = none) : Measured false c.self c'.self := by
  have hnot (hrelay : op.isRelay = true) : Measured false c.self c'.self := by
    rw [hop] at hrelay
    cases hrelay
  cases h with
  | timer => exact .of_same rfl rfl rfl
  | timedOut _ _ _ _ _ hends => exact timeOut_measured.trans hends.measured
  | expired _ _ _ _ hends => exact hends.measured
  | read _ hread hrequested =>
      have hrequest := hrequested.measured (hpermit hread)
      exact ⟨hrequest.delivered, hrequest.seen, hrequest.ttfts⟩
  | wroteText => exact .silent [.closeClient] rfl rfl rfl (by simp)
  | wroteError => exact note_measured (by simp) _
  | ended _ _ _ hrelay => exact hnot hrelay
  | relayed _ _ hrelay => exact hnot hrelay.isRelay.1

/-- Every handler, but for a read that brings a chunk. -/
theorem handle_measured (hnone : op = .readBody → r.isData = false)
    (hpermit : op = .readRequest → c.self.permit = none) :
    Measured false c.self (c.handle op r).self := by
  by_cases hop : op.isRelay = true
  · exact (handle_proceeds hop r c).measured hnone
  · exact (handle_handled op r c).measured (Bool.not_eq_true _ ▸ hop) hpermit

theorem writeDownstreamBody_measured (data : Bytes) (done : Bool) (c : Context) :
    Measured false c.self (c.writeDownstreamBody data done).self := by
  unfold writeDownstreamBody
  split
  · exact (finishRequest_ends c).measured
  · exact start_measured _ _

/-- The handler of a read that brings a chunk. -/
theorem onReadBody_measured {chunk : Bytes}
    (hchunk : c.self.upstreamBodyBuffer.take (bodyBufferSize - c.self.bodySize) = chunk)
    (hdata : r.isData = true) (halive : c.server.alive = true)
    (hdated : c.self.requestStart.getD 0 ≤ c.clock) :
    Measured (sawToken (c.self.sseParser.feed chunk).2) c.self
      (c.onReadBody r.ec r.isDone).self := by
  rw [Outcome.isData, Bool.and_eq_true, Option.isNone_iff_eq_none, Bool.not_eq_true'] at hdata
  have hread : c.onReadBody r.ec r.isDone =
      (c.observeSseChunk chunk).2.writeDownstreamBody chunk (c.observeSseChunk chunk).1 := by
    rw [← hchunk, hdata.1, hdata.2]
    rfl
  have hwritten := (observeSseChunk_measured chunk halive hdated).trans
    (writeDownstreamBody_measured chunk (c.observeSseChunk chunk).1 (c.observeSseChunk chunk).2)
  rw [Bool.or_false] at hwritten
  rw [hread]
  exact hwritten

end Context

-- 3. Every run.

namespace ProxySession

variable {s : ProxySession} {op : Op} {r : Outcome} {c c' : Context}

/-- A completion that brings no chunk. -/
theorem Measures.deliver (h : s.Measures) (hnone : op = .readBody → r.isData = false) :
    (World.deliver s op r).Measures := by
  have hseen : (World.deliver s op r).firstSseDataSeen = s.firstSseDataSeen := by cases op <;> rfl
  refine ⟨?_, ?_⟩
  · rw [hseen, h.seen, dataChunks_deliver, if_neg, List.append_nil]
    rintro ⟨hop, hdata⟩
    rw [hnone hop] at hdata
    cases hdata
  · rw [World.deliver_calls, hseen, h.ttfts]

theorem flatten_dataChunks_deliver (hdata : r.isData = true) :
    (World.deliver s .readBody r).dataChunks.flatten = s.dataChunks.flatten ++ r.copied := by
  rw [dataChunks_deliver, if_pos ⟨rfl, hdata⟩, List.flatten_append, List.flatten_singleton]

/-- A chunk that the parser takes as it should. -/
theorem Measures.of_chunk (h : s.Measures) (hself : c.self = World.deliver s .readBody r)
    (hdata : r.isData = true) {found : Bool} (hmeasured : Measured found c.self c'.self)
    (hfound : hasToken (s.dataChunks.flatten ++ r.copied) =
      (hasToken s.dataChunks.flatten || found)) : c'.self.Measures := by
  have hbefore : c.self.firstSseDataSeen = s.firstSseDataSeen := by
    rw [hself]
    rfl
  have hseen : c'.self.firstSseDataSeen = (s.firstSseDataSeen || found) := by
    rw [hmeasured.seen, hbefore]
  refine ⟨?_, ?_⟩
  · rw [hseen, h.seen, dataChunks_congr hmeasured.delivered, hself,
      flatten_dataChunks_deliver hdata, hfound]
  · have httfts := hmeasured.ttfts
    rw [hbefore, hself, World.deliver_calls, h.ttfts] at httfts
    omega

end ProxySession

namespace World

variable {config : ProxyConfig} {server : ProxyServer} {w w' : World}

/-- While the server exists, each session has called `record_ttft` once if the chunks it has handled
have a complete event with data, and else not at all. -/
def TtftOnce (w : World) : Prop :=
  w.server.alive = true → ∀ (i : Nat) (s : ProxySession), w.sessions[i]? = some s →
    s.calls.count .recordTtft = if hasToken s.dataChunks.flatten then 1 else 0

/-- A chunk completes the first event with data and makes the parser throw. -/
def losesTtft (w : World) : Event → Bool
  | .complete i .readBody r => w.server.alive && r.isData && (w.lock i).any fun s =>
      !hasToken s.dataChunks.flatten && hasToken (s.dataChunks.flatten ++ r.copied) &&
        decide (Overflows s.sseParser.maxBufferSize s.dataChunks.flatten r.copied)
  | _ => false

theorem losesTtft_of_lock {i : Nat} {r : Outcome} {s : ProxySession} (hlock : w.lock i = some s) :
    losesTtft w (.complete i .readBody r) = true ↔
      (w.server.alive = true ∧ r.isData = true) ∧ hasToken s.dataChunks.flatten = false ∧
      hasToken (s.dataChunks.flatten ++ r.copied) = true ∧
      Overflows s.sseParser.maxBufferSize s.dataChunks.flatten r.copied := by
  rw [losesTtft, hlock, Option.any_some]
  simp [and_assoc]

theorem completes_of_losesTtft {e : Event} (h : losesTtft w e = true) :
    ∃ i r, e = .complete i .readBody r := by
  unfold losesTtft at h
  split at h
  · exact ⟨_, _, rfl⟩
  · cases h

/-- The server is never restarted. -/
theorem alive_of_step {e : Event} (h : w.Sound) (hstep : World.step w e = some w')
    (halive : w'.server.alive = true) : w.server.alive = true := by
  rcases step_cases h hstep with
    ⟨i, op, r, s, -, -, -, -, rfl⟩ | ⟨i, s, strand, -, -, -, -, rfl⟩ | hquiet
  · exact (handle_handled op r (w.context i (deliver s op r))).frame.server.alive.symm.trans halive
  · exact halive
  · clear hstep
    induction hquiet with
    | refl => exact halive
    | tail _ hq ih => exact ih (hq.alive halive)

theorem measures_keptQuietly : KeptQuietly fun _ => Measures where
  created _ sseParser _ := ⟨rfl, rfl⟩
  closed _ s hs := hs.of_measured (note_measured (by simp) s)
  enqueued _ s _ _ hs := hs.of_measured (.silent [_] rfl rfl rfl (by simp))
  promoted _ s host service clock _ _ hs :=
    hs.of_measured (.silent [_, _] rfl rfl (List.append_assoc ..) (by simp))
  destroyed _ s hs := ⟨hs.seen, hs.ttfts⟩

/-- What keeps the records of the first token right from one step to the next. -/
structure Measuring (w : World) : Prop where
  watched : w.Watched
  measures : w.server.alive = true → ∀ (i : Nat) (s : ProxySession), w.sessions[i]? = some s →
    s.Measures

theorem Measuring.ttftOnce (h : w.Measuring) : w.TtftOnce := by
  intro halive i s hget
  have hs := h.measures halive i s hget
  rw [hs.ttfts, hs.seen]
  cases hasToken s.dataChunks.flatten <;> rfl

/-- While the body is read the parser has thrown on no chunk. -/
theorem Watched.watching {i : Nat} {s : ProxySession} (h : w.Watched) (hlock : w.lock i = some s)
    (hmem : .readBody ∈ s.pending) :
    ∃ emitted, Watching s.sseParser s.dataChunks.flatten emitted := by
  obtain ⟨-, hwatches⟩ := h.sessions i s (lock_eq_some.mp hlock).1
  exact hwatches.watching (hwatches.goesOn _ hmem rfl rfl).2

/-- What the handler of a read does that brings a chunk. -/
theorem Watched.measured {i : Nat} {r : Outcome} {s : ProxySession} (h : w.Watched)
    (halive : w.server.alive = true) (hlock : w.lock i = some s) (hmem : .readBody ∈ s.pending)
    (hdeliverable : deliverable s .readBody r = true) (hdata : r.isData = true) :
    Measured (sawToken (s.sseParser.feed r.copied).2) (deliver s .readBody r)
      ((w.context i (deliver s .readBody r)).handle .readBody r).self := by
  have hrelays := h.relays i s (lock_eq_some.mp hlock).1
  have hchunk := hrelays.chunk_eq hmem (of_decide_eq_true hdeliverable)
  exact onReadBody_measured (c := w.context i (deliver s .readBody r)) hchunk hdata halive
    (h.requestStart_le hlock .readBody r)

theorem sawToken_of_threw {result : Except LengthError (List SseEvent)} (h : threw result = true) :
    sawToken result = false := by
  cases result with
  | error e => rfl
  | ok events => cases h

theorem Measuring.step {e : Event} (h : w.Measuring) (hok : losesTtft w e = false)
    (hstep : World.step w e = some w') : w'.Measuring := by
  refine ⟨h.watched.step hstep, fun halive' => ?_⟩
  have halive := alive_of_step h.watched.sound hstep halive'
  refine measures_keptQuietly.step h.watched.sound hstep (h.measures halive) ?_
  rintro i op r s rfl hlock hmem hdeliverable
  obtain ⟨hget, -⟩ := lock_eq_some.mp hlock
  have hs := h.measures halive i s hget
  by_cases hdata : op = .readBody ∧ r.isData = true
  · obtain ⟨rfl, hdata⟩ := hdata
    refine hs.of_chunk (c := w.context i (deliver s .readBody r)) rfl hdata
      (h.watched.measured halive hlock hmem hdeliverable hdata) ?_
    obtain ⟨emitted, hwatching⟩ := h.watched.watching hlock hmem
    cases hthrew : threw (s.sseParser.feed r.copied).2 with
    | false => exact hwatching.hasToken_feed hthrew
    | true =>
        have hright := mt (losesTtft_of_lock hlock).mpr (Bool.eq_false_iff.mp hok)
        rw [sawToken_of_threw hthrew, Bool.or_false]
        -- the chunk completes an event with data only if there was one before
        cases hbefore : hasToken s.dataChunks.flatten with
        | true => exact hasToken_append hbefore r.copied
        | false =>
            by_contra hafter
            rw [Bool.not_eq_false] at hafter
            exact hright ⟨⟨halive, hdata⟩, hbefore, hafter,
              (hwatching.threw_iff r.copied).mp hthrew⟩
  · rw [not_and, Bool.not_eq_true] at hdata
    have hphase := h.watched.sound.phase i s hget
    refine (hs.deliver hdata).of_measured
      (handle_measured (c := w.context i (deliver s op r)) hdata fun hread => ?_)
    show (deliver s op r).permit = none
    rw [deliver_permit]
    exact (hphase.of_opening hmem (by rw [hread]; rfl)).1.permit

/-- The chunk is handled, and `record_ttft` has still not been called. -/
theorem losesTtft_breaks {e : Event} (h : w.Measuring) (hbad : losesTtft w e = true)
    (hstep : World.step w e = some w') : ¬ w'.TtftOnce := by
  intro honce
  obtain ⟨i, r, rfl⟩ := completes_of_losesTtft hbad
  obtain ⟨s, hlock, hmem, hdeliverable, rfl⟩ := complete_eq_some hstep
  obtain ⟨hget, -⟩ := lock_eq_some.mp hlock
  obtain ⟨⟨halive, hdata⟩, hbefore, hafter, hover⟩ := (losesTtft_of_lock hlock).mp hbad
  obtain ⟨emitted, hwatching⟩ := h.watched.watching hlock hmem
  have hthrew := (hwatching.threw_iff r.copied).mpr hover
  have hmeasured := h.watched.measured halive hlock hmem hdeliverable hdata
  rw [sawToken_of_threw hthrew] at hmeasured
  have hs := h.measures halive i s hget
  have hframe := (handle_handled .readBody r (w.context i (deliver s .readBody r))).frame
  have hid : ((w.context i (deliver s .readBody r)).handle .readBody r).id = i := hframe.id
  have hnew := put_getElem? (w := w) (by rw [hid]; exact hget) i
  rw [if_pos hid] at hnew
  have hone := honce (hframe.server.alive.trans halive) i _ hnew
  have hchunks : (((w.context i (deliver s .readBody r)).handle .readBody r).self).dataChunks =
      (deliver s .readBody r).dataChunks := dataChunks_congr hmeasured.delivered
  rw [hchunks, flatten_dataChunks_deliver hdata, hafter, if_pos rfl] at hone
  -- no call was made before either, and the handler of the chunk makes none
  have hnone : s.calls.count .recordTtft = 0 := by
    rw [hs.ttfts, hs.seen, hbefore]
    rfl
  have hsame := hmeasured.ttfts
  rw [hmeasured.seen, Bool.or_false, hone, deliver_calls, hnone] at hsame
  omega

theorem Measuring.init (hcreate : ProxyServer.create config = .ok server) :
    (World.init server).Measuring :=
  ⟨Watched.init hcreate, fun _ _ _ hi => (nomatch hi)⟩

/-- In every state of a run `record_ttft` has been called once in each session whose chunks have an
event with data, and in no other, exactly when in the run no chunk that completes the first such
event makes the parser throw. -/
theorem ttftOnce_iff {events : List Event} (hcreate : ProxyServer.create config = .ok server)
    (hrun : run World.step (World.init server) events = some w) :
    Always World.step TtftOnce (World.init server) events ↔
      Meets World.step (fun w e => losesTtft w e = false) (World.init server) events :=
  always_iff_meets hrun (Measuring.init hcreate) (fun _ h => h.ttftOnce)
    (fun _ _ _ h hok hstep => h.step hok hstep)
    fun _ _ _ h hbad hstep => losesTtft_breaks h (Bool.not_eq_false _ ▸ hbad) hstep

/-- Eighteen bytes are room enough for `data: x` and the empty line, but not for the chunk. -/
def smallBufferConfig : ProxyConfig := { maxInflight := 1, maxSseBufferBytes := 18 }

def smallBufferServer : ProxyServer := { oneSlotServer with config := smallBufferConfig }

theorem smallBufferServer_create :
    ProxyServer.create smallBufferConfig = .ok smallBufferServer := rfl

def tokenInLongChunk : List Event := toFirstRead ++
  [.complete 0 .readBody { copied := bytes "data: x\n\ndata: yyyy" }]

theorem tokenInLongChunk_not_once : ¬ ∀ (config : ProxyConfig) (server : ProxyServer)
    (events : List Event) (w : World), ProxyServer.create config = .ok server →
    run World.step (World.init server) events = some w → w.TtftOnce := by
  intro h
  -- the chunks have an event with data, and no call was made
  have hlost : (run World.step (World.init smallBufferServer) tokenInLongChunk).map
      (fun w => (w.server.alive, w.sessions.map fun s =>
        (s.calls.count .recordTtft, hasToken s.dataChunks.flatten))) =
        some (true, [(0, true)]) := by
    decide +kernel
  obtain ⟨w, hrun, hw⟩ := Option.map_eq_some_iff.mp hlost
  obtain ⟨halive, hsessions⟩ := Prod.mk.inj hw
  obtain ⟨s, hs, hcounts⟩ := List.map_eq_singleton_iff.mp hsessions
  obtain ⟨hcalls, htoken⟩ := Prod.mk.inj hcounts
  have hone := h _ _ _ w smallBufferServer_create hrun halive 0 s (by rw [hs]; rfl)
  rw [hcalls, htoken] at hone
  cases hone

/-- An event without data, a token cut in two, and the end of the stream. -/
def tokenInTwoChunks : List Event := toFirstRead ++
  [.complete 0 .readBody { copied := bytes "data:\n\ndata" },
    .complete 0 (.writeBody (bytes "data:\n\ndata") false) {},
    .complete 0 .readBody { copied := bytes ": x\n\n" },
    .complete 0 (.writeBody (bytes ": x\n\n") false) {},
    .complete 0 .readBody { copied := bytes "data: [DONE]\n\n" }]

theorem ttftOnce_iff_tokenInTwoChunks :
    Always World.step TtftOnce (World.init smallBufferServer) tokenInTwoChunks :=
  have hrun : (run World.step (World.init smallBufferServer) tokenInTwoChunks).isSome = true := by
    decide +kernel
  (ttftOnce_iff smallBufferServer_create (Option.some_get hrun).symm).mpr (by decide +kernel)

end World

end VllmSloProxy
