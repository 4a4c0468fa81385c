import VllmSloProxy.FirstToken
import VllmSloProxy.PercentileRank

/-!
# The figures of the first tokens

The metrics count the first tokens, keep the time that the last one took and show the 95th
percentile of the recent ones.  In every run these are the figures of the chunks that brought a
first token.
-/

namespace VllmSloProxy

open Context Delimited Rank Relation SlidingWindow SseReading Transition

namespace ProxyMetrics

/-- The times that `record_ttft` was called with. -/
structure Logs (capacity : Nat) (log : List ℚ) (m : ProxyMetrics) : Prop where
  firstTokenEvents : m.firstTokenEvents = log.length
  lastTtftMs : m.lastTtftMs = log.getLast?
  ttftWindow : Holds capacity m.ttftWindow log

variable {capacity : Nat} {log : List ℚ} {m m' : ProxyMetrics}

theorem Logs.create (h : ProxyMetrics.create capacity = .ok m) : m.Logs capacity [] := by
  unfold ProxyMetrics.create at h
  cases hwindow : (SlidingWindow.create capacity : Except String (SlidingWindow ℚ)) with
  | error e =>
      rw [hwindow] at h
      cases h
  | ok w =>
      rw [hwindow] at h
      cases h
      exact ⟨rfl, rfl, holds_create hwindow⟩

theorem Logs.recordTtft (h : m.Logs capacity log) {start first : Nat}
    (hok : m.recordTtft start first = .ok m') :
    m'.Logs capacity (log ++ [((first - start : Nat) : ℚ) / 1000000]) := by
  unfold ProxyMetrics.recordTtft at hok
  split at hok
  · cases hok
  · cases hok
    refine ⟨?_, ?_, h.ttftWindow.add (some _)⟩
    · rw [List.length_append, List.length_singleton, ← h.firstTokenEvents]
    · rw [List.getLast?_concat]

end ProxyMetrics

namespace Context

variable {c c' c₁ : Context} {op next : Op} {r : Outcome} {ending : Ending} {capacity : Nat}
  {log : List ℚ}

/-- Neither the parser nor the figures of the first tokens have changed. -/
structure Untimed (c c' : Context) : Prop where
  sseParser : c'.self.sseParser = c.self.sseParser
  logs : ∀ capacity log, c.server.metrics.Logs capacity log → c'.server.metrics.Logs capacity log

theorem Untimed.trans (h : Untimed c c₁) (h' : Untimed c₁ c') : Untimed c c' :=
  ⟨h'.sseParser.trans h.sseParser,
    fun capacity log hlogs => h'.logs _ _ (h.logs capacity log hlogs)⟩

theorem Untimed.of_same (hparser : c'.self.sseParser = c.self.sseParser)
    (hmetrics : c'.server.metrics = c.server.metrics) : Untimed c c' :=
  ⟨hparser, fun _ _ hlogs => hmetrics ▸ hlogs⟩

theorem settle_untimed (ending : Ending) : Untimed c (c.settle ending) := by
  refine ⟨by rw [settle_eq], fun capacity log hlogs => ?_⟩
  rw [settle_metrics]
  unfold recordedServer
  split
  · cases ending with
    | completed => exact ⟨hlogs.firstTokenEvents, hlogs.lastTtftMs, hlogs.ttftWindow⟩
    | failed => exact ⟨hlogs.firstTokenEvents, hlogs.lastTtftMs, hlogs.ttftWindow⟩
  · exact hlogs

theorem Ends.untimed (h : Ends ending c c') : Untimed c c' := by
  cases h with
  | already => exact .of_same rfl rfl
  | quietly => exact (settle_untimed ending).trans (.of_same rfl rfl)
  | withError => exact (settle_untimed ending).trans (.of_same rfl rfl)

theorem counted_untimed : Untimed c c.counted :=
  ⟨rfl, fun _ _ hlogs => ⟨hlogs.firstTokenEvents, hlogs.lastTtftMs, hlogs.ttftWindow⟩⟩

theorem Requested.untimed (h : Requested c c') (hpermit : c.self.permit = none) :
    Untimed c c' := by
  cases h with
  | unread => exact .of_same rfl rfl
  | refused _ hends => exact hends.untimed
  | health => exact .of_same rfl rfl
  | admitted halive =>
      rw [startProxyRequest_eq (c := c.counted.setLimiter _) _ halive hpermit]
      exact counted_untimed.trans (.of_same rfl rfl)
  | queued => exact counted_untimed.trans (.of_same rfl rfl)
  | turnedAway _ _ hends => exact counted_untimed.trans hends.untimed

/-- The relay goes on without a chunk. -/
theorem Relay.untimed (h : Relay op r c c₁ next) (hnone : op = .readBody → r.isData = false) :
    Untimed c (c₁.start next) := by
  cases h with
  | chunk _ _ hop hec hdone =>
      have hdata := hnone hop
      rw [Outcome.isData, hec, hdone] at hdata
      cases hdata
  | _ => exact .of_same rfl rfl

theorem Proceeds.untimed (h : Proceeds op r c c') (hnone : op = .readBody → r.isData = false) :
    Untimed c c' := by
  cases h with
  | failed _ hends => exact hends.untimed
  | headerLost => exact (finishRequest_ends c).untimed
  | bodyEnded => exact (finishRequest_ends c).untimed
  | lastWritten => exact (finishRequest_ends c).untimed
  | nothingLeft hop hdata =>
      rw [hnone hop] at hdata
      cases hdata
  | relayed c₁ next hrelay => exact hrelay.untimed hnone

theorem timeOut_untimed : Untimed c c.timeOut := by
  refine .of_same ?_ timeOut_metrics
  rw [timeOut_self]

/-- A handler beside the relay. -/
theorem Handled.untimed (h : Handled op r c c') (hop : op.isRelay = false)
    (hpermit : op = .readRequest → c.self.permit = none) : Untimed c c' := by
  have hnot (hrelay : op.isRelay = true) : Untimed c c' := by
    rw [hop] at hrelay
    cases hrelay
  cases h with
  | timer => exact .of_same rfl rfl
  | timedOut _ _ _ _ _ hends => exact timeOut_untimed.trans hends.untimed
  | expired _ _ _ _ hends => exact hends.untimed
  | read _ hread hrequested =>
      have hrequest := hrequested.untimed (hpermit hread)
      exact ⟨hrequest.sseParser, hrequest.logs⟩
  | wroteText => exact .of_same rfl rfl
  | wroteError => exact .of_same rfl rfl
  | ended _ _ _ hrelay => exact hnot hrelay
  | relayed _ _ hrelay => exact hnot hrelay.isRelay.1

/-- Every handler, but for a read that brings a chunk. -/
theorem handle_untimed (hnone : op = .readBody → r.isData = false)
    (hpermit : op = .readRequest → c.self.permit = none) : Untimed c (c.handle op r) := by
  by_cases hop : op.isRelay = true
  · exact (handle_proceeds hop r c).untimed hnone
  · exact (handle_handled op r c).untimed (Bool.not_eq_true _ ▸ hop) hpermit

/-- The milliseconds since the request got its slot. -/
def sinceStart (c : Context) : ℚ :=
  ((c.clock - c.self.requestStart.getD 0 : Nat) : ℚ) / 1000000

/-- The time that is recorded when a first token is found. -/
def ttft (found : Bool) (c : Context) : Option ℚ :=
  if c.server.alive && (!c.self.firstSseDataSeen && found) then some c.sinceStart else none

theorem ttft_eq_none {found : Bool}
    (h : c.server.alive = false ∨ c.self.firstSseDataSeen = true ∨ found = false) :
    c.ttft found = none := by
  unfold ttft
  rcases h with h | h | h
  · rw [h, Bool.false_and, if_neg Bool.false_ne_true]
  · rw [h, Bool.not_true, Bool.false_and, Bool.and_false, if_neg Bool.false_ne_true]
  · rw [h, Bool.and_false, Bool.and_false, if_neg Bool.false_ne_true]

/-- The loop over the events of a chunk records the time of the first event with data. -/
theorem observeEvents_logs (events : List SseEvent) (done : Bool) (c : Context) (log : List ℚ)
    (hdated : c.self.requestStart.getD 0 ≤ c.clock) (h : c.server.metrics.Logs capacity log) :
    (c.observeEvents done events).2.server.metrics.Logs capacity
      (log ++ (c.ttft (events.any hasText)).toList) := by
  induction events generalizing c done log with
  | nil =>
      rw [List.any_nil, ttft_eq_none (.inr (.inr rfl)), Option.toList_none, List.append_nil]
      exact h
  | cons event events ih =>
      rw [observeEvents, List.any_cons]
      split
      · rename_i hfirst
        obtain ⟨hunseen, htext⟩ := Bool.and_eq_true_iff.mp hfirst
        have htext' : hasText event = true := htext
        rw [htext', Bool.true_or]
        extract_lets s₁ c₁
        split
        · rename_i halive
          have hnow : c.ttft true = some c.sinceStart := by
            unfold ttft
            rw [if_pos]
            rw [hunseen, show c.server.alive = true from halive]
            rfl
          rw [hnow, Option.toList_some]
          split
          · rename_i hthrown
            exact absurd hthrown (recordTtft_ne_error hdated _ _)
          · rename_i metrics hok
            -- the flag is set now, so the rest of the loop adds nothing
            have hrest := ih (done || event.isDone) ((c₁.setMetrics metrics).note .recordTtft) _
              hdated (h.recordTtft hok)
            rw [ttft_eq_none (.inr (.inl rfl)), Option.toList_none, List.append_nil] at hrest
            exact hrest
        · rename_i hdead
          have hnone : c.server.alive = false := Bool.eq_false_iff.mpr hdead
          have hrest := ih (done || event.isDone) c₁ log hdated h
          have hrestNone : c₁.ttft (events.any hasText) = none := ttft_eq_none (.inl hnone)
          rw [hrestNone] at hrest
          rw [ttft_eq_none (.inl hnone)]
          exact hrest
      · rename_i hnot
        have hskip : c.ttft (hasText event || events.any hasText) =
            c.ttft (events.any hasText) := by
          cases hseen : c.self.firstSseDataSeen with
          | true => rw [ttft_eq_none (.inr (.inl hseen)), ttft_eq_none (.inr (.inl hseen))]
          | false =>
              rw [hseen, Bool.not_false, Bool.true_and, Bool.not_eq_true] at hnot
              rw [show hasText event = false from hnot, Bool.false_or]
        rw [hskip]
        exact ih (done || event.isDone) c log hdated h

theorem observeSseChunk_logs (chunk : Bytes) (hdated : c.self.requestStart.getD 0 ≤ c.clock)
    (h : c.server.metrics.Logs capacity log) :
    (c.observeSseChunk chunk).2.server.metrics.Logs capacity
      (log ++ (c.ttft (sawToken (c.self.sseParser.feed chunk).2)).toList) := by
  unfold observeSseChunk
  extract_lets fed s₁ c₁
  split
  · rename_i e hresult
    have hnone : c.ttft (sawToken (.error e)) = none := ttft_eq_none (.inr (.inr rfl))
    rw [hresult, hnone, Option.toList_none, List.append_nil]
    exact h
  · rename_i events hresult
    rw [hresult]
    exact observeEvents_logs events false c₁ log hdated h

/-- The handler of a read that brings a chunk. -/
theorem onReadBody_of_data {chunk : Bytes}
    (hchunk : c.self.upstreamBodyBuffer.take (bodyBufferSize - c.self.bodySize) = chunk)
    (hdata : r.isData = true) : c.onReadBody r.ec r.isDone =
      (c.observeSseChunk chunk).2.writeDownstreamBody chunk (c.observeSseChunk chunk).1 := by
  rw [Outcome.isData, Bool.and_eq_true, Option.isNone_iff_eq_none, Bool.not_eq_true'] at hdata
  rw [← hchunk, hdata.1, hdata.2]
  rfl

theorem onReadBody_logs {chunk : Bytes}
    (hchunk : c.self.upstreamBodyBuffer.take (bodyBufferSize - c.self.bodySize) = chunk)
    (hdata : r.isData = true) (hdated : c.self.requestStart.getD 0 ≤ c.clock)
    (h : c.server.metrics.Logs capacity log) :
    (c.onReadBody r.ec r.isDone).server.metrics.Logs capacity
      (log ++ (c.ttft (sawToken (c.self.sseParser.feed chunk).2)).toList) := by
  have hobserved := observeSseChunk_logs chunk hdated h
  rw [onReadBody_of_data hchunk hdata]
  unfold writeDownstreamBody
  split
  · exact (finishRequest_ends _).untimed.logs _ _ hobserved
  · exact hobserved

theorem onReadBody_sseParser {chunk : Bytes}
    (hchunk : c.self.upstreamBodyBuffer.take (bodyBufferSize - c.self.bodySize) = chunk)
    (hdata : r.isData = true) :
    (c.onReadBody r.ec r.isDone).self.sseParser = (c.self.sseParser.feed chunk).1 := by
  rw [onReadBody_of_data hchunk hdata, ← observeSseChunk_sseParser chunk c]
  unfold writeDownstreamBody
  split
  · exact (finishRequest_ends _).sseParser
  · rfl

end Context

namespace ProxySession

variable {s s' : ProxySession} {chunk : Bytes} {op : Op} {r : Outcome}

/-- Unless the parser has thrown, the flag is that of the bytes. -/
def SeesToken (s : ProxySession) : Prop :=
  s.parserThrew = false → s.firstSseDataSeen = hasToken s.dataChunks.flatten

theorem SeesToken.congr (h : s.SeesToken) (hwatched : s'.watched = s.watched)
    (hchunks : s'.dataChunks = s.dataChunks) (hseen : s'.firstSseDataSeen = s.firstSseDataSeen) :
    s'.SeesToken := by
  intro hthrew
  unfold parserThrew at hthrew
  rw [hwatched] at hthrew
  rw [hseen, hchunks]
  exact h hthrew

/-- A completion that brings no chunk. -/
theorem SeesToken.deliver (h : s.SeesToken) (hnone : op = .readBody → r.isData = false) :
    (World.deliver s op r).SeesToken := by
  refine h.congr (watched_deliver hnone) ?_ (by cases op <;> rfl)
  rw [dataChunks_deliver, if_neg, List.append_nil]
  rintro ⟨hop, hdata⟩
  rw [hnone hop] at hdata
  cases hdata

/-- A chunk that the parser is fed. -/
theorem SeesToken.of_chunk (h : s.SeesToken) (hwatches : s.Watches) (hthrew : s.parserThrew = false)
    (hparser : s'.sseParser = (s.sseParser.feed chunk).1)
    (hchunks : s'.dataChunks = s.dataChunks ++ [chunk])
    (hseen : s'.firstSseDataSeen =
      (s.firstSseDataSeen || sawToken (s.sseParser.feed chunk).2)) : s'.SeesToken := by
  intro hthrew'
  obtain ⟨emitted, hwatching⟩ := hwatches.watching hthrew
  have hwatched : s'.watched = s.watched ++ [(s.sseParser.feed chunk).2] := by
    unfold watched
    rw [hparser, SseParser.feed_reset, hchunks, SseParser.feedResults_snoc, ← hwatches.parser]
  have hok : threw (s.sseParser.feed chunk).2 = false := by
    unfold parserThrew at hthrew'
    rw [hwatched, List.any_append, Bool.or_eq_false_iff, List.any_cons, Bool.or_eq_false_iff]
      at hthrew'
    exact hthrew'.2.1
  rw [hseen, h hthrew, hchunks, List.flatten_append, List.flatten_singleton,
    hwatching.hasToken_feed hok]

end ProxySession

open ProxySession

namespace World

variable {config : ProxyConfig} {server : ProxyServer} {w w' : World} {capacity : Nat}
  {log : List ℚ} {i : Nat} {s : ProxySession}

/-- The time to the first token, in milliseconds, when the chunk of a read completes the first event
with data of its session. -/
def firstToken (w : World) : Event → Option ℚ
  | .complete i .readBody r => (w.lock i).bind fun s =>
      if w.server.alive && r.isData && !hasToken s.dataChunks.flatten &&
          hasToken (s.dataChunks.flatten ++ r.copied) &&
          !decide (Overflows s.sseParser.maxBufferSize s.dataChunks.flatten r.copied) then
        some (((w.clock - s.requestStart.getD 0 : Nat) : ℚ) / 1000000)
      else none
  | _ => none

/-- The times to the first tokens of a run. -/
def ttfts (server : ProxyServer) (events : List Event) : List ℚ :=
  shown World.step (fun w e _ => (firstToken w e).toList) (World.init server) events

theorem firstToken_eq_none {e : Event}
    (h : ∀ i r, e = .complete i .readBody r → r.isData = false) : firstToken w e = none := by
  unfold firstToken
  split
  · rename_i i r
    rw [h i r rfl]
    simp
  · rfl

/-- While the body is read, the flag and the parser's verdict tell which chunk brings the token. -/
theorem ttft_eq_firstToken {r : Outcome} (hlock : w.lock i = some s) (hdata : r.isData = true)
    (hwatches : s.Watches) (hthrew : s.parserThrew = false)
    (hseen : w.server.alive = true → s.SeesToken) :
    (w.context i (deliver s .readBody r)).ttft (sawToken (s.sseParser.feed r.copied).2) =
      firstToken w (.complete i .readBody r) := by
  show (if w.server.alive && (!s.firstSseDataSeen && sawToken (s.sseParser.feed r.copied).2) then
    some (((w.clock - s.requestStart.getD 0 : Nat) : ℚ) / 1000000) else none) = _
  rw [firstToken, hlock, Option.bind_some, hdata, Bool.and_true]
  congr 2
  cases halive : w.server.alive with
  | false => simp
  | true =>
      obtain ⟨emitted, hwatching⟩ := hwatches.watching hthrew
      have hover := hwatching.threw_iff r.copied
      rw [hseen halive hthrew, Bool.true_and, Bool.true_and]
      cases hfed : threw (s.sseParser.feed r.copied).2 with
      | true =>
          rw [sawToken_of_threw hfed, decide_eq_true (hover.mp hfed)]
          simp
      | false =>
          have hfits : decide (Overflows s.sseParser.maxBufferSize s.dataChunks.flatten r.copied) =
              false := by
            rw [decide_eq_false_iff_not, ← hover, hfed]
            exact Bool.false_ne_true
          rw [hwatching.hasToken_feed hfed, hfits]
          cases hasToken s.dataChunks.flatten <;> simp

theorem seesToken_keptQuietly : KeptQuietly fun _ => SeesToken where
  created _ _ _ := fun _ => rfl
  closed _ _ hs := hs.congr rfl rfl rfl
  enqueued _ _ _ _ hs := hs.congr rfl rfl rfl
  promoted _ _ _ _ _ _ _ hs := hs.congr rfl rfl rfl
  destroyed _ _ hs := hs.congr rfl rfl rfl

/-- The metrics hold the times of the log, and the flags tell who is still without a token. -/
structure Timing (capacity : Nat) (log : List ℚ) (w : World) : Prop where
  watched : w.Watched
  sees : w.server.alive = true → ∀ (i : Nat) (s : ProxySession), w.sessions[i]? = some s →
    s.SeesToken
  logs : w.server.metrics.Logs capacity log

theorem Timing.complete {op : Op} {r : Outcome} (h : Timing capacity log w)
    (hlock : w.lock i = some s) (hmem : op ∈ s.pending)
    (hdeliverable : deliverable s op r = true) :
    (w.server.alive = true →
      ((w.context i (deliver s op r)).handle op r).self.SeesToken) ∧
    ((w.context i (deliver s op r)).handle op r).server.metrics.Logs capacity
      (log ++ (firstToken w (.complete i op r)).toList) := by
  obtain ⟨hget, -⟩ := lock_eq_some.mp hlock
  have hphase := h.watched.sound.phase i s hget
  obtain ⟨hrelays, hwatches⟩ := h.watched.sessions i s hget
  by_cases hdata : op = .readBody ∧ r.isData = true
  · obtain ⟨rfl, hdata⟩ := hdata
    obtain ⟨-, hthrew⟩ := hwatches.goesOn .readBody hmem rfl rfl
    have hchunk := hrelays.chunk_eq hmem (of_decide_eq_true hdeliverable)
    refine ⟨fun halive => ?_, ?_⟩
    · have hmeasured := h.watched.measured halive hlock hmem hdeliverable hdata
      refine (h.sees halive i s hget).of_chunk hwatches hthrew
        (onReadBody_sseParser (c := w.context i (deliver s .readBody r)) hchunk hdata) ?_
        hmeasured.seen
      rw [dataChunks_congr hmeasured.delivered, dataChunks_deliver, if_pos ⟨rfl, hdata⟩]
    · rw [← ttft_eq_firstToken hlock hdata hwatches hthrew fun halive => h.sees halive i s hget]
      exact onReadBody_logs (c := w.context i (deliver s .readBody r)) hchunk hdata
        (h.watched.requestStart_le hlock .readBody r) h.logs
  · rw [not_and, Bool.not_eq_true] at hdata
    have hpermit (hread : op = .readRequest) : (deliver s op r).permit = none := by
      rw [deliver_permit]
      exact (hphase.of_opening hmem (by rw [hread]; rfl)).1.permit
    have huntimed := handle_untimed (c := w.context i (deliver s op r)) hdata hpermit
    have hmeasured := handle_measured (c := w.context i (deliver s op r)) hdata hpermit
    refine ⟨fun halive => ?_, ?_⟩
    · have hchunks := dataChunks_congr hmeasured.delivered
      refine ((h.sees halive i s hget).deliver hdata).congr ?_ hchunks ?_
      · unfold ProxySession.watched
        rw [huntimed.sseParser, hchunks]
        rfl
      · rw [hmeasured.seen, Bool.or_false]
        rfl
    · rw [firstToken_eq_none, Option.toList_none, List.append_nil]
      · exact huntimed.logs capacity log h.logs
      · intro i' r' heq
        cases heq
        exact hdata rfl

theorem Timing.step {e : Event} (h : Timing capacity log w) (hstep : World.step w e = some w') :
    Timing capacity (log ++ (firstToken w e).toList) w' := by
  have hsound := h.watched.sound
  refine ⟨h.watched.step hstep, fun halive' => ?_, ?_⟩
  · have halive := alive_of_step hsound hstep halive'
    refine seesToken_keptQuietly.step hsound hstep (h.sees halive) ?_
    intro i op r s _ hlock hmem hdeliverable
    exact (h.complete hlock hmem hdeliverable).1 halive
  · by_cases hcomplete : ∃ i op r, e = .complete i op r
    · obtain ⟨i, op, r, rfl⟩ := hcomplete
      obtain ⟨s, hlock, hmem, hdeliverable, rfl⟩ := complete_eq_some hstep
      exact (h.complete hlock hmem hdeliverable).2
    · rw [firstToken_eq_none fun i r heq => absurd ⟨i, _, r, heq⟩ hcomplete, Option.toList_none,
        List.append_nil]
      rcases step_cases hsound hstep with
        ⟨i, op, r, s, heq, -⟩ | ⟨i, s, strand, -, -, -, -, rfl⟩ | hquiet
      · exact absurd ⟨i, op, r, heq⟩ hcomplete
      · exact h.logs
      · rw [hsound.metrics_of_quiets hquiet]
        exact h.logs

theorem Timing.init (hcreate : ProxyServer.create config = .ok server) :
    Timing 256 [] (World.init server) := by
  refine ⟨Watched.init hcreate, fun _ _ _ hi => (nomatch hi), ?_⟩
  unfold ProxyServer.create InflightLimiter.create at hcreate
  split at hcreate
  · cases hcreate
  · obtain rfl := Except.ok.inj hcreate
    exact ⟨rfl, rfl, rfl, rfl⟩

end World

end VllmSloProxy
