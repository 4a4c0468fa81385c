import VllmSloProxy.SseAtomicity
import VllmSloProxy.EndOfStream

/-!
# What a session sees in the stream

A session feeds every chunk of the body to its parser before it passes the chunk on.  It takes the
stream for finished when an event `[DONE]` comes out or when the parser throws; in either case the
chunk is the last that it passes on.
-/

namespace VllmSloProxy

open Context Delimited SseReading

namespace SseParser

/-- The parser after some calls of `feed`, also after those that throw. -/
def fedAll (p : SseParser) (chunks : List (List UInt8)) : SseParser :=
  chunks.foldl (fun p chunk => (p.feed chunk).1) p

/-- What these calls give. -/
def feedResults (p : SseParser) : List (List UInt8) → List (Except LengthError (List SseEvent))
  | [] => []
  | chunk :: chunks => (p.feed chunk).2 :: (p.feed chunk).1.feedResults chunks

variable {p p' : SseParser} {s chunk : List UInt8} {emitted events : List SseEvent}

theorem fedAll_snoc (p : SseParser) (chunks : List (List UInt8)) (chunk : List UInt8) :
    p.fedAll (chunks ++ [chunk]) = ((p.fedAll chunks).feed chunk).1 := by
  rw [fedAll, List.foldl_append]
  rfl

theorem feedResults_snoc (p : SseParser) (chunks : List (List UInt8)) (chunk : List UInt8) :
    p.feedResults (chunks ++ [chunk]) =
      p.feedResults chunks ++ [((p.fedAll chunks).feed chunk).2] := by
  induction chunks generalizing p with
  | nil => rfl
  | cons first chunks ih =>
      rw [List.cons_append, feedResults, feedResults, ih, List.cons_append]
      rfl

theorem reset_eq_of_limit (h : p'.maxBufferSize = p.maxBufferSize) : p'.reset = p.reset := by
  cases p
  cases p'
  cases h
  rfl

theorem feed_reset (p : SseParser) (chunk : List UInt8) : (p.feed chunk).1.reset = p.reset :=
  reset_eq_of_limit (feed_maxBufferSize p chunk)

theorem reset_hasRead (p : SseParser) : HasRead p.reset [] [] := ⟨⟨⟨rfl, rfl⟩, rfl⟩, rfl⟩

end SseParser

theorem length_tail_append_le (s t : List UInt8) :
    (tail (s ++ t)).length ≤ (tail s).length + t.length := by
  rw [tail_append, ← List.length_append]
  generalize tail s ++ t = u
  rw [tail_eq]
  have := length_segments (d := LF) u
  omega

/-- A parser that no call has made throw. -/
structure Watching (p : SseParser) (s : List UInt8) (emitted : List SseEvent) : Prop where
  regular : Regular p s emitted
  room : p.buffer.length ≤ p.maxBufferSize

variable {p p' : SseParser} {s chunk : List UInt8} {emitted events : List SseEvent}

theorem Watching.reset (p : SseParser) : Watching p.reset [] [] :=
  ⟨⟨p.reset_hasRead, Nat.zero_le _⟩, Nat.zero_le _⟩

theorem Watching.feed (h : Watching p s emitted) (hfeed : p.feed chunk = (p', .ok events)) :
    Watching p' (s ++ chunk) (emitted ++ events) := by
  have hafter := h.regular.feed hfeed
  refine ⟨hafter, ?_⟩
  have hpassed := mt (h.regular.read.feed_error_iff h.regular.fits chunk).mpr fun ⟨e, he⟩ => by
    rw [hfeed] at he
    cases he
  rw [not_or, Nat.not_lt] at hpassed
  have hlimit := SseParser.feed_maxBufferSize p chunk
  rw [hfeed] at hlimit
  rw [hafter.read.pending, hlimit]
  -- the tail grows by no more than the chunk, and `feed` has checked that sum
  exact (length_tail_append_le s chunk).trans hpassed.1

/-- An empty chunk completes no event. -/
theorem Watching.feed_nil (h : Watching p s emitted) : (p.feed []).2 = .ok [] := by
  cases hresult : (p.feed []).2 with
  | error e =>
      rcases (h.regular.read.feed_error_iff h.regular.fits []).mp ⟨e, hresult⟩ with hover | hover
      · rw [← h.regular.read.pending, List.length_nil, Nat.add_zero] at hover
        exact absurd h.room (Nat.not_le.mpr hover)
      · rw [List.append_nil] at hover
        exact absurd h.regular.fits hover
  | ok events =>
      have hread := h.regular.read.feed (Prod.ext rfl hresult : p.feed [] = (_, .ok events))
      rw [List.append_nil] at hread
      -- the bytes read so far are the same, and they determine the events
      have hsame := h.regular.read.complete.events.symm.trans hread.complete.events
      rw [List.self_eq_append_right.mp hsame]

/-- What a call of `feed` shows of the end of the stream. -/
def sawDone : Except LengthError (List SseEvent) → Bool
  | .ok events => events.any SseEvent.isDone
  | .error _ => false

def threw : Except LengthError (List SseEvent) → Bool
  | .ok _ => false
  | .error _ => true

theorem Watching.fedAll {chunks : List (List UInt8)} (h : Watching p s emitted)
    (hok : (p.feedResults chunks).any threw = false) :
    ∃ events, Watching (p.fedAll chunks) (s ++ chunks.flatten) events := by
  induction chunks generalizing p s emitted with
  | nil => exact ⟨emitted, by simpa [SseParser.fedAll] using h⟩
  | cons chunk chunks ih =>
      rw [SseParser.feedResults, List.any_cons, Bool.or_eq_false_iff] at hok
      cases hresult : (p.feed chunk).2 with
      | error e =>
          rw [hresult] at hok
          cases hok.1
      | ok events =>
          rw [List.flatten_cons, ← List.append_assoc]
          exact ih (h.feed (Prod.ext rfl hresult)) hok.2

namespace ProxySession

/-- The chunks that were fed to the parser, in order. -/
def dataChunks (s : ProxySession) : List Bytes :=
  (s.bodyReads.filter Outcome.isData).map Outcome.copied

/-- What the parser gave for them.  A session starts with a parser that was fed nothing. -/
def watched (s : ProxySession) : List (Except LengthError (List SseEvent)) :=
  s.sseParser.reset.feedResults s.dataChunks

/-- A `[DONE]` event was parsed. -/
def doneSeen (s : ProxySession) : Bool := s.watched.any sawDone

/-- The parser has thrown, and the stream is cut short. -/
def parserThrew (s : ProxySession) : Bool := s.watched.any threw

/-- A write of the last chunk, after which the body is not read on. -/
def isLastWrite : Op → Bool
  | .writeBody _ done => done
  | _ => false

/-- What every run keeps about the stream as it is watched. -/
structure Watches (s : ProxySession) : Prop where
  parser : s.sseParser = s.sseParser.reset.fedAll s.dataChunks
  goesOn : ∀ op ∈ s.pending, op.isRelay = true → isLastWrite op = false →
    s.doneSeen = false ∧ s.parserThrew = false
  last : ∀ op ∈ s.pending, isLastWrite op = true → s.doneSeen = !s.parserThrew

variable {s s' : ProxySession}

theorem watched_congr (hparser : s'.sseParser = s.sseParser) (hreads : s'.bodyReads = s.bodyReads) :
    s'.watched = s.watched := by
  unfold watched dataChunks
  rw [hparser, hreads]

/-- The session goes on without another chunk. -/
theorem Watches.of_pending (h : s.Watches) (hparser : s'.sseParser = s.sseParser)
    (hchunks : s'.dataChunks = s.dataChunks)
    (hpending : ∀ op ∈ s'.pending, op.isRelay = true → op ∈ s.pending ∨
      isLastWrite op = false ∧ s.doneSeen = false ∧ s.parserThrew = false) : s'.Watches := by
  have hwatched : s'.watched = s.watched := by
    unfold watched
    rw [hparser, hchunks]
  refine ⟨by rw [hparser, hchunks]; exact h.parser, fun op hmem hrelay hnot => ?_,
    fun op hmem hlast => ?_⟩
  · unfold doneSeen parserThrew
    rw [hwatched]
    rcases hpending op hmem hrelay with hold | ⟨-, hnone⟩
    · exact h.goesOn op hold hrelay hnot
    · exact hnone
  · unfold doneSeen parserThrew
    rw [hwatched]
    have hrelay : op.isRelay = true := by cases op <;> first | rfl | cases hlast
    rcases hpending op hmem hrelay with hold | ⟨hnot, -⟩
    · exact h.last op hold hlast
    · rw [hlast] at hnot
      cases hnot

/-- A chunk is fed to the parser and written to the client. -/
theorem Watches.of_chunk (h : s.Watches) (chunk : Bytes) (hopen : s.doneSeen = false)
    (hthrew : s.parserThrew = false) (hparser : s'.sseParser = (s.sseParser.feed chunk).1)
    (hchunks : s'.dataChunks = s.dataChunks ++ [chunk])
    (hpending : ∀ op ∈ s'.pending, op.isRelay = true →
      ∃ payload done, op = .writeBody payload done ∧
      done = (threw (s.sseParser.feed chunk).2 || sawDone (s.sseParser.feed chunk).2)) :
    s'.Watches := by
  have hreset : s'.sseParser.reset = s.sseParser.reset := by
    rw [hparser, SseParser.feed_reset]
  have hwatched : s'.watched = s.watched ++ [(s.sseParser.feed chunk).2] := by
    unfold watched
    rw [hreset, hchunks, SseParser.feedResults_snoc, ← h.parser]
  have hdone : s'.doneSeen = sawDone (s.sseParser.feed chunk).2 := by
    unfold doneSeen at hopen ⊢
    rw [hwatched, List.any_append, hopen, Bool.false_or, List.any_cons, List.any_nil, Bool.or_false]
  have hthrows : s'.parserThrew = threw (s.sseParser.feed chunk).2 := by
    unfold parserThrew at hthrew ⊢
    rw [hwatched, List.any_append, hthrew, Bool.false_or, List.any_cons, List.any_nil,
      Bool.or_false]
  -- what the parser gave before was neither, so the new result alone decides
  refine ⟨?_, fun op hmem hrelay hnot => ?_, fun op hmem hlast => ?_⟩
  · rw [hreset, hchunks, SseParser.fedAll_snoc, ← h.parser, hparser]
  · obtain ⟨payload, done, rfl, heq⟩ := hpending op hmem hrelay
    obtain rfl : done = false := hnot
    rw [eq_comm, Bool.or_eq_false_iff] at heq
    exact ⟨hdone.trans heq.2, hthrows.trans heq.1⟩
  · have hrelay : op.isRelay = true := by cases op <;> first | rfl | cases hlast
    obtain ⟨payload, done, rfl, heq⟩ := hpending op hmem hrelay
    obtain rfl : done = true := hlast
    rw [hdone, hthrows]
    cases hresult : (s.sseParser.feed chunk).2 with
    | error e => rfl
    | ok events =>
        rw [hresult] at heq
        exact heq.symm

end ProxySession

open ProxySession

namespace Context

variable {c c' c₁ : Context} {op next : Op} {r : Outcome} {ending : Ending}

theorem observeEvents_sseParser (events : List SseEvent) (done : Bool) (c : Context) :
    (c.observeEvents done events).2.self.sseParser = c.self.sseParser := by
  induction events generalizing c done with
  | nil => rfl
  | cons event events ih =>
      rw [observeEvents]
      split
      · extract_lets c₁
        split
        · split
          · rfl
          · exact ih _ _
        · exact ih _ _
      · exact ih _ _

theorem recordTtft_ne_error {start now : Nat} (hdated : start ≤ now) (m : ProxyMetrics)
    (e : String) : m.recordTtft start now ≠ .error e := by
  unfold ProxyMetrics.recordTtft
  rw [if_neg (Nat.not_lt.mpr hdated)]
  exact fun h => nomatch h

/-- Since the request began before now, only an event `[DONE]` ends the loop with `done`. -/
theorem observeEvents_done (events : List SseEvent) (done : Bool) (c : Context)
    (hdated : c.self.requestStart.getD 0 ≤ c.clock) :
    (c.observeEvents done events).1 = (done || events.any SseEvent.isDone) := by
  induction events generalizing c done with
  | nil => exact (Bool.or_false done).symm
  | cons event events ih =>
      rw [observeEvents, List.any_cons, ← Bool.or_assoc]
      split
      · extract_lets c₁
        split
        · split
          · rename_i hthrown
            -- the metrics throw only for a request that begins in the future
            exact absurd hthrown (recordTtft_ne_error hdated _ _)
          · exact ih _ _ hdated
        · exact ih _ _ hdated
      · exact ih _ _ hdated

theorem observeSseChunk_sseParser (chunk : Bytes) (c : Context) :
    (c.observeSseChunk chunk).2.self.sseParser = (c.self.sseParser.feed chunk).1 := by
  unfold observeSseChunk
  extract_lets fed c₁
  split
  · rfl
  · exact observeEvents_sseParser ..

theorem observeSseChunk_done (chunk : Bytes) (hdated : c.self.requestStart.getD 0 ≤ c.clock) :
    (c.observeSseChunk chunk).1 =
      (threw (c.self.sseParser.feed chunk).2 || sawDone (c.self.sseParser.feed chunk).2) := by
  unfold observeSseChunk
  extract_lets fed s₁ c₁
  cases hresult : fed.2 with
  | error e => rfl
  | ok events =>
      rw [threw, sawDone, Bool.false_or]
      exact (observeEvents_done events false c₁ hdated).trans (Bool.false_or _)

/-- The handler of an operation of the relay: how it goes on, and for each way to finish the request
the reason. -/
inductive Proceeds (op : Op) (r : Outcome) (c : Context) : Context → Prop where
  | failed (c' : Context) (hends : Ends .failed c c') (hread : op = .readBody → r.isData = false) :
      Proceeds op r c c'
  | headerLost (header : Bytes) (hop : op = .writeSseHeader header) (hec : r.ec.isSome = true) :
      Proceeds op r c c.finishRequest
  | bodyEnded (hop : op = .readBody) (hended : r.endsBody = true) : Proceeds op r c c.finishRequest
  | lastWritten (payload : Bytes) (hop : op = .writeBody payload true) (hec : r.ec = none) :
      Proceeds op r c c.finishRequest
  | nothingLeft (hop : op = .readBody) (hdata : r.isData = true)
      (hempty : c.self.upstreamBodyBuffer.take (bodyBufferSize - c.self.bodySize) = [])
      (hdone : (c.observeSseChunk []).1 = true) :
      Proceeds op r c (c.observeSseChunk []).2.finishRequest
  | relayed (c₁ : Context) (next : Op) (hrelay : Relay op r c c₁ next) :
      Proceeds op r c (c₁.start next)

theorem proceeds_fail (hop : op ≠ .readBody) (status : HttpStatus) (error : String) :
    Proceeds op r c (c.failWithStatus status error) :=
  .failed _ (failWithStatus_ends ..) fun hread => absurd hread hop

theorem onReadBody_proceeds (r : Outcome) (c : Context) :
    Proceeds .readBody r c (c.onReadBody r.ec r.isDone) := by
  unfold onReadBody
  split
  · rename_i hfull
    unfold readUpstreamBody
    split
    · rename_i halive
      exact .relayed _ _ (.bufferFull rfl hfull halive)
    · exact .failed _ (failWithStatus_ends ..) fun _ =>
        Outcome.isData_of_fillsBuffer (decide_eq_true hfull)
  · rename_i hfull
    split
    · rename_i hend
      refine .bodyEnded rfl ?_
      rw [Outcome.endsBody, Outcome.fillsBuffer, decide_eq_false hfull]
      exact hend
    · rename_i hend
      simp only [Bool.or_eq_true, not_or, Bool.not_eq_true] at hend
      split
      · rename_i hec
        refine .failed _ (failWithStatus_ends ..) fun _ => ?_
        rw [Outcome.isData, Option.isNone_eq_false_iff.mpr hec, Bool.false_and]
      · rename_i hec
        rw [Option.not_isSome_iff_eq_none] at hec
        extract_lets remaining consumed chunk observed
        unfold writeDownstreamBody
        split
        · rename_i hnothing
          rw [Bool.and_eq_true, List.isEmpty_iff] at hnothing
          -- no bytes were copied, and yet the stream counts as finished
          have hchunk : chunk = [] := hnothing.1
          have hobserved : observed = c.observeSseChunk [] := congrArg c.observeSseChunk hchunk
          rw [hobserved] at hnothing ⊢
          refine .nothingLeft rfl ?_ hchunk hnothing.2
          rw [Outcome.isData, hec, hend.2]
          rfl
        · exact .relayed _ _ (.chunk _ _ rfl hec hend.2 rfl)

theorem handle_proceeds (hop : op.isRelay = true) (r : Outcome) (c : Context) :
    Proceeds op r c (c.handle op r) := by
  cases op with
  | readBody => exact onReadBody_proceeds r c
  | writeSseHeader header =>
      show Proceeds _ r c (c.onWriteSseHeader r.ec)
      unfold onWriteSseHeader readUpstreamBody
      split
      · rename_i hec
        exact .headerLost header rfl hec
      · rename_i hec
        split
        · rename_i halive
          exact .relayed _ _ (.headerWritten header rfl (by simpa using hec) halive)
        · exact proceeds_fail (by simp) ..
  | writeBody payload done =>
      show Proceeds _ r c (c.onWriteBody r.ec done)
      unfold onWriteBody
      split
      · exact proceeds_fail (by simp) ..
      · rename_i hec
        rw [Option.not_isSome_iff_eq_none] at hec
        cases done with
        | true => exact .lastWritten payload rfl hec
        | false =>
            rw [if_neg Bool.false_ne_true]
            unfold readUpstreamBody
            split
            · rename_i halive
              exact .relayed _ _ (.bodyWritten payload rfl hec halive)
            · -- the server is gone, so the body is not read on
              exact proceeds_fail (by simp) ..
  -- up to the response header only the order of the steps matters
  | resolve host service =>
      show Proceeds _ r c (c.onResolve r.ec)
      unfold onResolve connectUpstream
      split
      · exact proceeds_fail (by simp) ..
      · rename_i hec
        split
        · rename_i halive
          exact .relayed _ _ (.resolved host service rfl (by simpa using hec) halive)
        · exact proceeds_fail (by simp) ..
  | connect =>
      show Proceeds _ r c (c.onConnect r.ec)
      unfold onConnect writeUpstreamRequest
      split
      · exact proceeds_fail (by simp) ..
      · rename_i hec
        split
        · rename_i halive
          exact .relayed _ _ (.connected _ rfl (by simpa using hec) halive)
        · exact proceeds_fail (by simp) ..
  | writeUpstream request =>
      show Proceeds _ r c (c.onWriteUpstream r.ec)
      unfold onWriteUpstream
      split
      · exact proceeds_fail (by simp) ..
      · rename_i hec
        exact .relayed _ _ (.requestWritten request rfl (by simpa using hec))
  | readHeader =>
      show Proceeds _ r c (c.onReadHeader r.ec r.status)
      unfold onReadHeader
      split
      · exact proceeds_fail (by simp) ..
      · rename_i hec
        split
        · exact proceeds_fail (by simp) ..
        · rename_i hstatus
          exact .relayed _ _ (.headerRead rfl (by simpa using hec) (by simpa using hstatus))
  | _ => cases hop

/-- A change beside the relay that records no completed request. -/
structure Keeps (c c' : Context) : Prop extends Beside c c' where
  sseParser : c'.self.sseParser = c.self.sseParser
  completed : .recordCompleted ∈ c'.self.calls → .recordCompleted ∈ c.self.calls
  finished : c.self.finished = true → c'.self.finished = true

theorem Keeps.trans (h : Keeps c c₁) (h' : Keeps c₁ c') : Keeps c c' :=
  ⟨h.toBeside.trans h'.toBeside, h'.sseParser.trans h.sseParser,
    fun hmem => h.completed (h'.completed hmem), fun hover => h'.finished (h.finished hover)⟩

theorem Keeps.of_beside (h : Beside c c') (more : List Call)
    (hcalls : c'.self.calls = c.self.calls ++ more) (hmore : .recordCompleted ∉ more)
    (hparser : c'.self.sseParser = c.self.sseParser)
    (hfinished : c.self.finished = true → c'.self.finished = true) : Keeps c c' := by
  refine ⟨h, hparser, fun hmem => ?_, hfinished⟩
  rw [hcalls, List.mem_append] at hmem
  exact hmem.resolve_right hmore

theorem Keeps.refl (c : Context) : Keeps c c :=
  ⟨⟨rfl, rfl, fun _ hmem _ => hmem, rfl, rfl, rfl, rfl⟩, rfl, fun hmem => hmem, fun hover => hover⟩

theorem finished_keeps (c : Context) :
    Keeps c (c.setSelf { c.self with finished := true }) :=
  ⟨finished_beside c, rfl, fun hmem => hmem, fun _ => rfl⟩

theorem clientRequest_keeps (c : Context) (request : HttpRequest) :
    Keeps c (c.setSelf { c.self with clientRequest := request }) :=
  ⟨clientRequest_beside c request, rfl, fun hmem => hmem, fun hover => hover⟩

theorem note_keeps {call : Call} (hpayload : payload call = []) (hcall : .recordCompleted ≠ call) :
    Keeps c (c.note call) :=
  .of_beside (note_beside hpayload) [call] rfl (by simpa using hcall) rfl fun hover => hover

theorem start_keeps (hop : op.isRelay = false) : Keeps c (c.start op) :=
  .of_beside (start_beside hop) [.start op c.self.permitValid] rfl (by simp) rfl
    fun hover => hover

theorem settle_keeps : Keeps c (c.settle .failed) := by
  refine .of_beside (settle_beside .failed) (c.endingCalls .failed) (by rw [settle_eq]) ?_
    (by rw [settle_eq]) fun _ => by rw [settle_eq]
  unfold endingCalls
  split <;> simp [Ending.call]

theorem Ends.keeps (h : Ends .failed c c') : Keeps c c' := by
  cases h with
  | already => exact .refl c
  | quietly => exact settle_keeps.trans (note_keeps rfl (by simp))
  | withError => exact settle_keeps.trans (start_keeps rfl)

theorem timeOut_keeps : Keeps c c.timeOut := by
  refine .of_beside timeOut_beside [] ?_ (by simp) ?_ ?_
  · rw [timeOut_self, List.append_nil]
  · rw [timeOut_self]
  · rw [timeOut_self]
    exact fun hover => hover

theorem counted_keeps : Keeps c c.counted :=
  .of_beside counted_beside [.recordStarted] rfl (by simp) rfl fun hover => hover

end Context

namespace ProxySession

variable {s : ProxySession} {op : Op} {r : Outcome}

theorem dataChunks_deliver (s : ProxySession) (op : Op) (r : Outcome) :
    (World.deliver s op r).dataChunks =
      s.dataChunks ++ if op = .readBody ∧ r.isData = true then [r.copied] else [] := by
  unfold dataChunks
  rw [bodyReads_deliver, List.filter_append, List.map_append]
  by_cases hop : op = .readBody
  · rw [hop]
    cases hdata : r.isData <;> simp [bodyRead, hdata]
  · rw [bodyRead_of_not_read hop, if_neg fun hboth => hop hboth.1]
    rfl

theorem sseParser_deliver (s : ProxySession) (op : Op) (r : Outcome) :
    (World.deliver s op r).sseParser = s.sseParser := by
  cases op <;> rfl

/-- A completion that brings no chunk. -/
theorem Watches.deliver (h : s.Watches) (hnone : op = .readBody → r.isData = false) :
    (World.deliver s op r).Watches := by
  refine h.of_pending (sseParser_deliver s op r) ?_ fun op' hmem _ => .inl ?_
  · rw [dataChunks_deliver, if_neg, List.append_nil]
    rintro ⟨hop, hdata⟩
    rw [hnone hop] at hdata
    cases hdata
  · rw [World.deliver_pending] at hmem
    exact List.mem_of_mem_erase hmem

theorem Watches.watching (h : s.Watches) (hok : s.parserThrew = false) :
    ∃ emitted, Watching s.sseParser s.dataChunks.flatten emitted := by
  obtain ⟨emitted, hwatching⟩ := (Watching.reset s.sseParser).fedAll hok
  rw [← h.parser] at hwatching
  exact ⟨emitted, hwatching⟩

theorem watched_deliver (hnone : op = .readBody → r.isData = false) :
    (World.deliver s op r).watched = s.watched := by
  unfold watched
  rw [sseParser_deliver, dataChunks_deliver, if_neg, List.append_nil]
  rintro ⟨hop, hdata⟩
  rw [hnone hop] at hdata
  cases hdata

theorem dataChunks_congr {s s' : ProxySession} (h : s'.delivered = s.delivered) :
    s'.dataChunks = s.dataChunks := by
  unfold dataChunks bodyReads
  rw [h]

end ProxySession

namespace Context

variable {c c' c₁ : Context} {op next : Op} {r : Outcome} {ending : Ending}

theorem Beside.watches (h : Beside c c') (hparser : c'.self.sseParser = c.self.sseParser)
    (hs : c.self.Watches) : c'.self.Watches :=
  hs.of_pending hparser (dataChunks_congr h.delivered)
    fun op hmem hrelay => .inl (h.relays op hmem hrelay)

theorem Keeps.watches (h : Keeps c c') (hs : c.self.Watches) : c'.self.Watches :=
  h.toBeside.watches h.sseParser hs

theorem Ends.sseParser (h : Ends ending c c') : c'.self.sseParser = c.self.sseParser := by
  have hsettle : (c.settle ending).self.sseParser = c.self.sseParser := by rw [settle_eq]
  cases h with
  | already => rfl
  | quietly => exact hsettle
  | withError => exact hsettle

theorem finishRequest_watches (hs : c.self.Watches) : c.finishRequest.self.Watches :=
  (finishRequest_ends c).beside.watches (finishRequest_ends c).sseParser hs

/-- What has watched nothing yet. -/
theorem watched_of_unstarted {s : ProxySession} (hs : s.Relays) (hnone : s.requestStart = none) :
    s.doneSeen = false ∧ s.parserThrew = false := by
  have hwatched : s.watched = [] := by
    unfold watched dataChunks
    rw [(hs.unstarted hnone).1]
    rfl
  unfold doneSeen parserThrew
  rw [hwatched]
  exact ⟨rfl, rfl⟩

theorem Requested.watches (h : Requested c c') (hidle : c.self.Idle) (hrelays : c.self.Relays)
    (hs : c.self.Watches) : c'.self.Watches := by
  cases h with
  | unread => exact ⟨hs.parser, hs.goesOn, hs.last⟩
  | refused _ hends => exact hends.keeps.watches hs
  | health => exact (start_keeps rfl).watches hs
  | admitted halive =>
      rw [startProxyRequest_eq (c := c.counted.setLimiter _) _ halive hidle.permit]
      refine hs.of_pending rfl rfl fun op hmem hrelay => ?_
      rcases List.mem_append.mp hmem with hbefore | hresolve
      · rcases List.mem_append.mp hbefore with hold | htimer
        · exact .inl hold
        · rw [List.mem_singleton.mp htimer] at hrelay
          cases hrelay
      · rw [List.mem_singleton.mp hresolve]
        exact .inr ⟨rfl, watched_of_unstarted hrelays hidle.requestStart⟩
  | queued => exact counted_keeps.watches hs
  | turnedAway _ _ hends => exact (counted_keeps.trans hends.keeps).watches hs

/-- The relay goes on with an operation other than the write of a chunk. -/
theorem Relay.watches (h : Relay op r c c₁ next) (hnone : op = .readBody → r.isData = false)
    (hopen : c.self.doneSeen = false ∧ c.self.parserThrew = false) (hs : c.self.Watches) :
    (c₁.self.start next).Watches := by
  have hnext {s : ProxySession} (hparser : s.sseParser = c.self.sseParser)
      (hdelivered : s.delivered = c.self.delivered) (hpending : s.pending = c.self.pending)
      (hnot : isLastWrite next = false) : (s.start next).Watches := by
    refine hs.of_pending hparser (dataChunks_congr hdelivered) fun op' hmem _ => ?_
    rw [start_pending, hpending, List.mem_append, List.mem_singleton] at hmem
    rcases hmem with hold | rfl
    · exact .inl hold
    · exact .inr ⟨hnot, hopen⟩
  cases h with
  | chunk _ _ hop hec hdone =>
      -- this completion brings no chunk
      have hdata := hnone hop
      rw [Outcome.isData, hec, hdone] at hdata
      cases hdata
  | _ => exact hnext rfl rfl rfl rfl

theorem Relay.isLastWrite (h : Relay op r c c₁ next) : isLastWrite op = false := by
  cases h with
  | resolved _ _ hop => rw [hop]; rfl
  | connected _ hop => rw [hop]; rfl
  | requestWritten _ hop => rw [hop]; rfl
  | headerRead hop => rw [hop]; rfl
  | headerWritten _ hop => rw [hop]; rfl
  | bodyWritten _ hop => rw [hop]; rfl
  | bufferFull hop => rw [hop]; rfl
  | chunk _ _ hop => rw [hop]; rfl

/-- A read that has brought data goes on with the write of that data. -/
theorem Relay.chunk_of_data (h : Relay op r c c₁ next) (hop : op = .readBody)
    (hdata : r.isData = true) :
    ∃ done, c.observeSseChunk (c.self.upstreamBodyBuffer.take (bodyBufferSize - c.self.bodySize)) =
      (done, c₁) ∧
      next = .writeBody (c.self.upstreamBodyBuffer.take (bodyBufferSize - c.self.bodySize))
        done := by
  cases h with
  | chunk _ done _ _ _ hobserved => exact ⟨done, hobserved, rfl⟩
  | bufferFull _ hec =>
      rw [Outcome.isData, hec] at hdata
      cases hdata
  | resolved _ _ hop' => rw [hop] at hop'; cases hop'
  | connected _ hop' => rw [hop] at hop'; cases hop'
  | requestWritten _ hop' => rw [hop] at hop'; cases hop'
  | headerRead hop' => rw [hop] at hop'; cases hop'
  | headerWritten _ hop' => rw [hop] at hop'; cases hop'
  | bodyWritten _ hop' => rw [hop] at hop'; cases hop'

/-- While the body is read the parser finds no event in an empty chunk. -/
theorem observeSseChunk_nil {s : ProxySession} (hself : c.self = World.deliver s .readBody r)
    (hmem : .readBody ∈ s.pending) (hdated : c.self.requestStart.getD 0 ≤ c.clock)
    (hs : s.Watches) : (c.observeSseChunk []).1 = false := by
  obtain ⟨emitted, hwatching⟩ := hs.watching (hs.goesOn _ hmem rfl rfl).2
  rw [observeSseChunk_done [] hdated, hself, sseParser_deliver, hwatching.feed_nil]
  rfl

/-- What an operation of the relay does to the stream as it is watched. -/
theorem Proceeds.watches {s : ProxySession} {e : Nat} (h : Proceeds op r c c')
    (hself : c.self = World.deliver s op r) (hphase : s.Phase e) (hrelays : s.Relays)
    (hmem : op ∈ s.pending) (hdeliverable : World.deliverable s op r = true)
    (hdated : c.self.requestStart.getD 0 ≤ c.clock) (hs : s.Watches) : c'.self.Watches := by
  have hnone (hread : op = .readBody → r.isData = false) : c.self.Watches := by
    rw [hself]
    exact hs.deliver hread
  have hcopied (hop : op = .readBody) :
      c.self.upstreamBodyBuffer.take (bodyBufferSize - c.self.bodySize) = r.copied := by
    subst hop
    rw [hself]
    exact hrelays.chunk_eq hmem (of_decide_eq_true hdeliverable)
  have hparser : c.self.sseParser = s.sseParser := by rw [hself, sseParser_deliver]
  cases h with
  | failed _ hends hread => exact hends.keeps.watches (hnone hread)
  | headerLost header hop => exact finishRequest_watches (hnone fun hread => by simp [hop] at hread)
  | bodyEnded _ hended =>
      exact finishRequest_watches (hnone fun _ => Outcome.isData_of_endsBody hended)
  | lastWritten payload hop =>
      exact finishRequest_watches (hnone fun hread => by simp [hop] at hread)
  | nothingLeft hop hdata _ hdone =>
      subst hop
      -- a parser that still watches finds no event in no bytes
      rw [observeSseChunk_nil hself hmem hdated hs] at hdone
      cases hdone
  | relayed c₁ next hrelay =>
      have hopen := hs.goesOn op hmem hrelay.isRelay.1 hrelay.isLastWrite
      by_cases hdata : op = .readBody ∧ r.isData = true
      · -- the chunk goes to the parser and then into the one write that is outstanding
        obtain ⟨rfl, hdata⟩ := hdata
        -- the relay has one operation at a time, so none but the new one is left
        have hold := hself ▸ not_relay_of_relay hphase hmem rfl r
        have hprep := hrelay.prepares
        obtain ⟨done, hobserved, rfl⟩ := hrelay.chunk_of_data rfl hdata
        rw [hcopied rfl] at hobserved ⊢
        refine hs.of_chunk r.copied hopen.1 hopen.2 ?_ ?_ fun op' hmem' hrelay' => ?_
        · rw [← hparser, ← observeSseChunk_sseParser, hobserved]
          rfl
        · refine (dataChunks_congr hprep.delivered).trans ?_
          rw [hself, dataChunks_deliver, if_pos ⟨rfl, hdata⟩]
        · rcases List.mem_append.mp hmem' with hbefore | hnew
          · rw [hprep.pending] at hbefore
            rw [hold op' hbefore] at hrelay'
            cases hrelay'
          · refine ⟨r.copied, done, List.mem_singleton.mp hnew, ?_⟩
            rw [← hparser, ← observeSseChunk_done _ hdated, hobserved]
      · rw [not_and, Bool.not_eq_true] at hdata
        refine hrelay.watches hdata ?_ (hnone hdata)
        unfold doneSeen parserThrew
        rw [hself, watched_deliver hdata]
        exact hopen

/-- What any other operation does. -/
theorem Handled.watches {s : ProxySession} {e : Nat} (h : Handled op r c c')
    (hop : op.isRelay = false) (hself : c.self = World.deliver s op r) (hphase : s.Phase e)
    (hmem : op ∈ s.pending) (hrelays : s.Relays) (hs : s.Watches) : c'.self.Watches := by
  have hne : op ≠ .readBody := by
    rintro rfl
    cases hop
  have hc : c.self.Watches := by
    rw [hself]
    exact hs.deliver fun hread => absurd hread hne
  have hnot (hrelay : op.isRelay = true) : c'.self.Watches := by
    rw [hop] at hrelay
    cases hrelay
  cases h with
  | timer => exact hc
  | timedOut _ _ _ _ _ hends => exact (timeOut_keeps.trans hends.keeps).watches hc
  | expired _ _ _ _ hends => exact hends.keeps.watches hc
  | read _ hread hrequested =>
      have hidle : c.self.Idle := by
        rw [hself]
        exact (hphase.of_opening hmem (by rw [hread]; rfl)).1.deliver op r
      have hc' : c.self.Relays := hself ▸ hrelays.deliver hne r
      have hread := clientRequest_keeps c r.request
      exact hrequested.watches ⟨hidle.1, hidle.2, hidle.3, hidle.4⟩ (hread.relaysKept hc')
        (hread.watches hc)
  | wroteText => exact ⟨hc.parser, hc.goesOn, hc.last⟩
  | wroteError => exact (note_keeps rfl (by simp)).watches hc
  | ended _ _ _ hrelay => exact hnot hrelay
  | relayed _ _ hrelay => exact hnot hrelay.isRelay.1

end Context

namespace Context

variable {c c' : Context} {op : Op} {r : Outcome}

theorem Requested.requestStart (h : Requested c c') (hpermit : c.self.permit = none) :
    c'.self.requestStart = c.self.requestStart ∨ c'.self.requestStart = some c.clock := by
  cases h with
  | unread => exact .inl rfl
  | refused _ hends => exact .inl hends.beside.requestStart
  | health => exact .inl rfl
  | admitted halive =>
      rw [startProxyRequest_eq (c := c.counted.setLimiter _) _ halive hpermit]
      exact .inr rfl
  | queued => exact .inl rfl
  | turnedAway _ _ hends => exact .inl (counted_beside.trans hends.beside).requestStart

theorem Handled.requestStart (h : Handled op r c c')
    (hpermit : op = .readRequest → c.self.permit = none) :
    c'.self.requestStart = c.self.requestStart ∨ c'.self.requestStart = some c.clock := by
  cases h with
  | timer => exact .inl rfl
  | timedOut _ _ _ _ _ hends => exact .inl (timeOut_beside.trans hends.beside).requestStart
  | expired _ _ _ _ hends => exact .inl hends.beside.requestStart
  | read _ hop hrequested => exact hrequested.requestStart (hpermit hop)
  | wroteText => exact .inl rfl
  | wroteError => exact .inl rfl
  | ended _ _ _ _ _ hobserves hends =>
      exact .inl (hobserves.beside.trans hends.beside).requestStart
  | relayed _ _ hrelay => exact .inl hrelay.prepares.requestStart

end Context

namespace World

variable {config : ProxyConfig} {server : ProxyServer} {w w' : World}

/-- No request has begun in the future. -/
def Dated (w : World) : Prop :=
  ∀ (i : Nat) (s : ProxySession), w.sessions[i]? = some s → s.requestStart.getD 0 ≤ w.clock

theorem Dated.put {c : Context} {s : ProxySession} (h : w.Dated) (hget : w.sessions[c.id]? = some s)
    (hstart : c.self.requestStart = s.requestStart ∨ c.self.requestStart = some w.clock) :
    (w.put c).Dated := by
  apply forall_put (p := fun _ s => s.requestStart.getD 0 ≤ w.clock) h hget
  rcases hstart with hsame | hnow
  · rw [hsame]
    exact h c.id s hget
  · rw [hnow]
    exact Nat.le_refl _

theorem Dated.quiet (h : w.Dated) (hsound : w.Sound) (hq : Quiet w w') : w'.Dated := by
  cases hq with
  | books _ hsame =>
      intro i s hi
      rw [hsame.sessions] at hi
      exact (h i s hi).trans hsame.clock
  | arrived sseParser accepting _ =>
      intro i s hi
      rcases Population.getElem?_snoc hi with hi | ⟨-, rfl⟩
      · exact h i s hi
      · exact Nat.zero_le _
  | closed i s hlock =>
      exact h.put (c := (w.context i s).closeClient) (lock_eq_some.mp hlock).1 (.inl rfl)
  | enqueued i s strand hstrand hlock =>
      obtain ⟨hget, -⟩ := lock_eq_some.mp hlock
      have hid := (startQueueTimer_frame (c := (w.takeEnqueue i strand).context i s)).id
      refine Dated.put (w := w.takeEnqueue i strand) h (by rw [hid]; exact hget) (.inl ?_)
      unfold startQueueTimer
      extract_lets c
      split <;> rfl
  | promoted i s halive hlock hqueued =>
      obtain ⟨hget, -⟩ := lock_eq_some.mp hlock
      obtain ⟨idle, -⟩ := (hsound.phase i s hget).waiting_of_queued hqueued
      rw [tryStartFromQueue_of_queued _ hqueued idle.finished,
        startProxyRequest_eq _ halive idle.permit]
      exact Dated.put (w := w.takePromoted) h hget (.inr rfl)
  | destructed i s hlock hpending =>
      obtain ⟨hget, -⟩ := lock_eq_some.mp hlock
      rw [hsound.destruct_eq hlock hpending]
      exact h.put (c := (w.context i s).setSelf { s with destroyed := true }) hget (.inl rfl)

theorem Dated.step {e : Event} (h : w.Dated) (hsound : w.Sound)
    (hstep : World.step w e = some w') : w'.Dated := by
  rcases step_cases hsound hstep with
    ⟨i, op, r, s, -, hlock, hmem, -, rfl⟩ | ⟨i, s, strand, -, -, -, hlock, rfl⟩ | hquiet
  · obtain ⟨hget, -⟩ := lock_eq_some.mp hlock
    have hhandled := handle_handled op r (w.context i (deliver s op r))
    have hstart := hhandled.requestStart fun hread => by
      show (deliver s op r).permit = none
      rw [deliver_permit]
      exact ((hsound.phase i s hget).of_opening hmem (by rw [hread]; rfl)).1.permit
    refine h.put (s := s) (by rw [hhandled.frame.id]; exact hget) ?_
    rw [← deliver_requestStart s op r]
    exact hstart
  · exact Dated.put (w := w.setStrand strand) (c := ((w.setStrand strand).context i s).closeClient)
      h (lock_eq_some.mp hlock).1 (.inl rfl)
  · clear hstep
    induction hquiet with
    | refl => exact h
    | tail hfirst hq ih => exact ih.quiet (hsound.quiets hfirst) hq

theorem watches_keptQuietly : KeptQuietly fun _ s => s.Relays ∧ s.Watches where
  created i sseParser hfresh := by
    refine ⟨relays_keptQuietly.created i sseParser hfresh, hfresh.symm, fun op hmem hrelay => ?_,
      fun op hmem hlast => ?_⟩
    · rw [List.mem_singleton.mp hmem] at hrelay
      cases hrelay
    · rw [List.mem_singleton.mp hmem] at hlast
      cases hlast
  closed i s hs := ⟨relays_keptQuietly.closed i s hs.1, hs.2.parser, hs.2.goesOn, hs.2.last⟩
  enqueued i s idle pending hs := by
    refine ⟨relays_keptQuietly.enqueued i s idle pending hs.1,
      hs.2.of_pending rfl rfl fun op hmem hrelay => ?_⟩
    rcases List.mem_append.mp hmem with hold | hnew
    · exact .inl hold
    · rw [List.mem_singleton.mp hnew] at hrelay
      cases hrelay
  promoted i s host service clock idle pending hs := by
    refine ⟨relays_keptQuietly.promoted i s host service clock idle pending hs.1,
      hs.2.of_pending rfl rfl fun op hmem hrelay => .inr ?_⟩
    have hunseen := watched_of_unstarted hs.1 idle.requestStart
    simp only [startedFromQueue, start_pending, pending, List.map_cons, List.map_nil,
      List.mem_append, List.mem_singleton] at hmem
    rcases hmem with (rfl | rfl) | rfl
    · cases hrelay
    · cases hrelay
    · exact ⟨rfl, hunseen⟩
  destroyed i s hs := ⟨relays_keptQuietly.destroyed i s hs.1, hs.2.parser, hs.2.goesOn, hs.2.last⟩

/-- What every run keeps about the streams as the sessions watch them. -/
structure Watched (w : World) : Prop where
  sound : w.Sound
  dated : w.Dated
  sessions : ∀ (i : Nat) (s : ProxySession), w.sessions[i]? = some s → s.Relays ∧ s.Watches

theorem Watched.relays (h : w.Watched) (i : Nat) (s : ProxySession)
    (hi : w.sessions[i]? = some s) : s.Relays :=
  (h.sessions i s hi).1

theorem Watched.requestStart_le {i : Nat} {s : ProxySession} (h : w.Watched)
    (hlock : w.lock i = some s) (op : Op) (r : Outcome) :
    (deliver s op r).requestStart.getD 0 ≤ w.clock := by
  rw [deliver_requestStart]
  exact h.dated i s (lock_eq_some.mp hlock).1

theorem Watched.completion {i : Nat} {op : Op} {r : Outcome} {s : ProxySession} (h : w.Watched)
    (hlock : w.lock i = some s) (hmem : op ∈ s.pending)
    (hdeliverable : deliverable s op r = true) :
    ((w.context i (deliver s op r)).handle op r).self.Watches := by
  obtain ⟨hget, -⟩ := lock_eq_some.mp hlock
  have hphase := h.sound.phase i s hget
  obtain ⟨hrelays, hwatches⟩ := h.sessions i s hget
  by_cases hop : op.isRelay = true
  · exact (handle_proceeds hop r (w.context i (deliver s op r))).watches rfl hphase hrelays hmem
      hdeliverable (h.requestStart_le hlock op r) hwatches
  · exact (handle_handled op r (w.context i (deliver s op r))).watches
      (Bool.not_eq_true _ ▸ hop) rfl hphase hmem hrelays hwatches

theorem Watched.step {e : Event} (h : w.Watched) (hstep : World.step w e = some w') :
    w'.Watched := by
  refine ⟨h.sound.step hstep, h.dated.step h.sound hstep,
    watches_keptQuietly.step h.sound hstep h.sessions ?_⟩
  intro i op r s _ hlock hmem hdeliverable
  exact ⟨completion_relays h.sound h.relays hlock hmem hdeliverable,
    h.completion hlock hmem hdeliverable⟩

theorem Watched.init (hcreate : ProxyServer.create config = .ok server) :
    (World.init server).Watched :=
  ⟨Sound.init hcreate, fun _ _ hi => (nomatch hi), fun _ _ hi => (nomatch hi)⟩

end World

end VllmSloProxy
