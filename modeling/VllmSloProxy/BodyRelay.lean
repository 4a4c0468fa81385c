import VllmSloProxy.WorldSteps

/-!
# The relay of the body

The bytes that a session passes on are the bytes copied by the reads that completed with data and
before the end of the body.  A read that filled the buffer, or one that ended the body, contributes
nothing, whatever it has copied.  This holds in every run.
-/

namespace VllmSloProxy

open Context Transition Relation

namespace Outcome

/-- `read_upstream_body` branches on the completion in this order. -/
def fillsBuffer (r : Outcome) : Bool := r.ec = some .needBuffer

def endsBody (r : Outcome) : Bool :=
  !r.fillsBuffer && (r.ec = some .endOfStream || r.isDone)

def isData (r : Outcome) : Bool := r.ec.isNone && !r.isDone

/-- After such a read the body is not read on. -/
def endsRelay (r : Outcome) : Bool := !r.fillsBuffer && !r.isData

theorem endsRelay_of_endsBody {r : Outcome} (h : r.endsBody = true) : r.endsRelay = true := by
  simp only [endsBody, endsRelay, isData, Bool.and_eq_true, Bool.or_eq_true, decide_eq_true_eq,
    Bool.not_eq_true', Bool.and_eq_false_iff, Bool.not_eq_false'] at h ⊢
  refine ⟨h.1, h.2.imp (fun hec => ?_) fun hdone => hdone⟩
  rw [hec]
  rfl

theorem isData_of_fillsBuffer {r : Outcome} (h : r.fillsBuffer = true) : r.isData = false := by
  simp only [fillsBuffer, decide_eq_true_eq] at h
  simp [isData, h]

end Outcome

namespace ProxySession

def bodyRead : Op × Outcome → Option Outcome
  | (.readBody, r) => some r
  | _ => none

/-- The reads of the upstream body that have completed, in order. -/
def bodyReads (s : ProxySession) : List Outcome := s.delivered.filterMap bodyRead

/-- What the reads have copied so far: the upstream body up to here. -/
def received (s : ProxySession) : Bytes := s.bodyReads.flatMap Outcome.copied

def payload : Call → Bytes
  | .start (.writeBody payload _) _ => payload
  | _ => []

/-- What was passed to `write_downstream_body`, in order. -/
def forwarded (s : ProxySession) : Bytes := s.calls.flatMap payload

/-- What every run keeps about the relay of the body. -/
structure Relays (s : ProxySession) : Prop where
  forwarded : s.forwarded = (s.bodyReads.filter Outcome.isData).flatMap Outcome.copied
  ended : s.bodyReads.any Outcome.endsRelay = true → ∀ op ∈ s.pending, op.isRelay = false
  offered : .readBody ∈ s.pending → s.bodyData = 0 ∧ s.bodySize = bodyBufferSize
  buffer : s.upstreamBodyBuffer.length = bodyBufferSize
  unstarted : s.requestStart = none →
    s.bodyReads = [] ∧ ∀ op ∈ s.pending, op.isRelay = false

theorem forwarded_of_calls {s s' : ProxySession} (more : List Call)
    (hcalls : s'.calls = s.calls ++ more) (hmore : ∀ call ∈ more, payload call = []) :
    s'.forwarded = s.forwarded := by
  unfold ProxySession.forwarded
  rw [hcalls, List.flatMap_append, List.flatMap_eq_nil_iff.mpr hmore, List.append_nil]

theorem forwarded_start (s : ProxySession) (op : Op) :
    (s.start op).forwarded = s.forwarded ++ payload (.start op s.permitValid) := by
  unfold ProxySession.forwarded
  rw [start_calls, List.flatMap_append, List.flatMap_singleton]

theorem bodyReads_deliver (s : ProxySession) (op : Op) (r : Outcome) :
    (World.deliver s op r).bodyReads = s.bodyReads ++ (bodyRead (op, r)).toList := by
  unfold bodyReads
  rw [World.deliver_delivered, List.filterMap_append]
  cases h : bodyRead (op, r) <;> simp [h]

theorem forwarded_deliver (s : ProxySession) (op : Op) (r : Outcome) :
    (World.deliver s op r).forwarded = s.forwarded := by
  unfold ProxySession.forwarded
  rw [World.deliver_calls]

theorem deliver_of_not_read {op : Op} (hop : op ≠ .readBody) (s : ProxySession) (r : Outcome) :
    World.deliver s op r = { s with
      pending := s.pending.erase op
      delivered := s.delivered ++ [(op, r)] } := by
  cases op <;> first | rfl | exact absurd rfl hop

theorem bodyRead_of_not_read {op : Op} (hop : op ≠ .readBody) (r : Outcome) :
    bodyRead (op, r) = none := by
  cases op <;> first | rfl | exact absurd rfl hop

/-- A completion other than a read of the body. -/
theorem Relays.deliver {s : ProxySession} {op : Op} (h : s.Relays) (hop : op ≠ .readBody)
    (r : Outcome) : (World.deliver s op r).Relays := by
  have hreads : (World.deliver s op r).bodyReads = s.bodyReads := by
    rw [bodyReads_deliver, bodyRead_of_not_read hop, Option.toList_none, List.append_nil]
  have hsub {op' : Op} (hmem : op' ∈ (World.deliver s op r).pending) : op' ∈ s.pending := by
    rw [World.deliver_pending] at hmem
    exact List.mem_of_mem_erase hmem
  constructor
  · rw [forwarded_deliver, hreads]
    exact h.forwarded
  · rw [hreads]
    exact fun hended op' hmem => h.ended hended op' (hsub hmem)
  · rw [deliver_of_not_read hop]
    exact fun hmem => h.offered (List.mem_of_mem_erase hmem)
  · rw [deliver_of_not_read hop]
    exact h.buffer
  · rw [World.deliver_requestStart, hreads]
    exact fun hnone => ⟨(h.unstarted hnone).1,
      fun op' hmem => (h.unstarted hnone).2 op' (hsub hmem)⟩

end ProxySession

open ProxySession

namespace Context

variable {c c' c₁ : Context} {op next : Op} {r : Outcome} {ending : Ending}

/-- A change that passes nothing on and starts no operation of the relay. -/
structure Beside (c c' : Context) : Prop where
  forwarded : c'.self.forwarded = c.self.forwarded
  delivered : c'.self.delivered = c.self.delivered
  relays : ∀ op ∈ c'.self.pending, op.isRelay = true → op ∈ c.self.pending
  requestStart : c'.self.requestStart = c.self.requestStart
  bodyData : c'.self.bodyData = c.self.bodyData
  bodySize : c'.self.bodySize = c.self.bodySize
  buffer : c'.self.upstreamBodyBuffer = c.self.upstreamBodyBuffer

theorem Beside.trans (h : Beside c c₁) (h' : Beside c₁ c') : Beside c c' :=
  ⟨h'.forwarded.trans h.forwarded, h'.delivered.trans h.delivered,
    fun op hmem hrelay => h.relays op (h'.relays op hmem hrelay) hrelay,
    h'.requestStart.trans h.requestStart, h'.bodyData.trans h.bodyData,
    h'.bodySize.trans h.bodySize, h'.buffer.trans h.buffer⟩

theorem Beside.bodyReads (h : Beside c c') : c'.self.bodyReads = c.self.bodyReads := by
  unfold ProxySession.bodyReads
  rw [h.delivered]

theorem Beside.noRelay (h : Beside c c') (hnone : ∀ op ∈ c.self.pending, op.isRelay = false) :
    ∀ op ∈ c'.self.pending, op.isRelay = false := by
  intro op hmem
  apply Bool.eq_false_iff.mpr
  intro hrelay
  rw [hnone op (h.relays op hmem hrelay)] at hrelay
  cases hrelay

theorem Beside.relaysKept (h : Beside c c') (hs : c.self.Relays) : c'.self.Relays := by
  constructor
  · rw [h.forwarded, h.bodyReads]
    exact hs.forwarded
  · rw [h.bodyReads]
    exact fun hended => h.noRelay (hs.ended hended)
  · rw [h.bodyData, h.bodySize]
    exact fun hmem => hs.offered (h.relays _ hmem rfl)
  · rw [h.buffer]
    exact hs.buffer
  · rw [h.requestStart, h.bodyReads]
    exact fun hstart => ⟨(hs.unstarted hstart).1, h.noRelay (hs.unstarted hstart).2⟩

theorem mem_of_mem_cancelTimer {ops : List Op} (hmem : op ∈ ops.map Op.cancelTimer)
    (hrelay : op.isRelay = true) : op ∈ ops := by
  obtain ⟨op', hmem', rfl⟩ := List.mem_map.mp hmem
  cases op' with
  | requestTimer => cases hrelay
  | queueTimer => cases hrelay
  | _ => exact hmem'

theorem endingCalls_payload (ending : Ending) :
    ∀ call ∈ c.endingCalls ending, payload call = [] := by
  unfold endingCalls
  intro call hmem
  rcases List.mem_cons.mp hmem with rfl | hmem
  · rfl
  · split at hmem
    · rw [List.mem_singleton.mp hmem]
      cases ending <;> rfl
    · cases hmem

theorem settle_beside (ending : Ending) : Beside c (c.settle ending) := by
  refine ⟨forwarded_of_calls (c.endingCalls ending) ?_ (endingCalls_payload ending),
    ?_, ?_, ?_, ?_, ?_, ?_⟩
  all_goals rw [settle_eq]
  exact fun op => mem_of_mem_cancelTimer

theorem note_beside {call : Call} (hcall : payload call = []) : Beside c (c.note call) :=
  ⟨forwarded_of_calls [call] rfl (by simpa using hcall), rfl, fun _ hmem _ => hmem, rfl,
    rfl, rfl, rfl⟩

theorem start_beside (hop : op.isRelay = false) : Beside c (c.start op) := by
  refine ⟨?_, rfl, fun op' hmem hrelay => ?_, rfl, rfl, rfl, rfl⟩
  · show (c.self.start op).forwarded = _
    rw [forwarded_start]
    cases op <;> first | exact List.append_nil _ | cases hop
  · have hmem' : op' ∈ c.self.pending ++ [op] := hmem
    rcases List.mem_append.mp hmem' with hmem' | hmem'
    · exact hmem'
    · rw [List.mem_singleton.mp hmem', hop] at hrelay
      cases hrelay

theorem Ends.beside (h : Ends ending c c') : Beside c c' := by
  cases h with
  | already => exact ⟨rfl, rfl, fun _ hmem _ => hmem, rfl, rfl, rfl, rfl⟩
  | quietly => exact (settle_beside ending).trans (note_beside rfl)
  | withError => exact (settle_beside ending).trans (start_beside rfl)

theorem Observes.beside (h : Observes c c₁) : Beside c c₁ := by
  obtain ⟨parser, seen, calls, hcalls, hself⟩ := h.self
  refine ⟨forwarded_of_calls calls (by rw [hself]) fun call hmem => ?_, ?_, ?_, ?_, ?_,
    ?_, ?_⟩
  · rw [hcalls call hmem]
    rfl
  all_goals rw [hself]
  exact fun _ hmem _ => hmem

theorem timeOut_beside : Beside c c.timeOut := by
  refine ⟨?_, ?_, ?_, ?_, ?_, ?_, ?_⟩
  · exact forwarded_of_calls [] (by rw [timeOut_self, List.append_nil]) (by simp)
  all_goals rw [timeOut_self]
  exact fun _ hmem _ => hmem

end Context

namespace ProxySession

variable {s : ProxySession} {op : Op} {r : Outcome}

/-- No read has ended the relay while an operation of it is pending. -/
theorem Relays.open_of_mem (h : s.Relays) (hmem : op ∈ s.pending) (hrelay : op.isRelay = true) :
    s.bodyReads.any Outcome.endsRelay = false ∧ s.requestStart ≠ none := by
  constructor
  · apply Bool.eq_false_iff.mpr
    intro hended
    rw [h.ended hended op hmem] at hrelay
    cases hrelay
  · intro hnone
    rw [(h.unstarted hnone).2 op hmem] at hrelay
    cases hrelay

/-- The relay goes on with an operation that passes nothing on. -/
theorem Relays.startNext {next : Op} (h : s.Relays)
    (hopen : s.bodyReads.any Outcome.endsRelay = false) (hstart : s.requestStart ≠ none)
    (hpayload : payload (.start next s.permitValid) = [])
    (hoffer : next = .readBody → s.bodyData = 0 ∧ s.bodySize = bodyBufferSize) :
    (s.start next).Relays := by
  constructor
  · rw [forwarded_start, hpayload, List.append_nil]
    exact h.forwarded
  · exact fun hended => absurd (hopen.symm.trans hended) Bool.false_ne_true
  · intro hmem
    rcases List.mem_append.mp hmem with hmem | hmem
    · exact h.offered hmem
    · exact hoffer (List.mem_singleton.mp hmem).symm
  · exact h.buffer
  · exact fun hnone => absurd hnone hstart

/-- A session that has not begun to relay starts to. -/
theorem Relays.startRelay (h : s.Relays) (hnone : s.requestStart = none) (permit : ServerPermit)
    (clock : Nat) (host service : Bytes) :
    ((({ s with permit := some permit, requestStart := some clock } : ProxySession).start
      (.requestTimer false)).start (.resolve host service)).Relays := by
  obtain ⟨hreads, hrelay⟩ := h.unstarted hnone
  have hstarted : ({ s with permit := some permit, requestStart := some clock } :
      ProxySession).Relays := by
    refine ⟨h.forwarded, h.ended, h.offered, h.buffer, fun hnone' => ?_⟩
    cases hnone'
  have hopen : s.bodyReads.any Outcome.endsRelay = false := by rw [hreads]; rfl
  refine (hstarted.startNext hopen ?_ rfl fun hop => ?_).startNext hopen ?_ rfl fun hop => ?_
  · exact Option.some_ne_none clock
  · cases hop
  · exact Option.some_ne_none clock
  · cases hop

/-- The handler of a read finds in the buffer what the read has copied. -/
theorem Relays.chunk_eq (h : s.Relays) (hmem : .readBody ∈ s.pending)
    (hroom : r.copied.length ≤ s.bodySize) :
    (World.deliver s .readBody r).upstreamBodyBuffer.take
      (bodyBufferSize - (World.deliver s .readBody r).bodySize) = r.copied := by
  obtain ⟨hdata, hsize⟩ := h.offered hmem
  show (s.upstreamBodyBuffer.take s.bodyData ++ r.copied ++ _).take
    (bodyBufferSize - (s.bodySize - r.copied.length)) = r.copied
  rw [hsize] at hroom ⊢
  rw [hdata, List.take_zero, List.nil_append, Nat.sub_sub_self hroom, List.take_left]

theorem Relays.buffer_deliver (h : s.Relays) (hmem : .readBody ∈ s.pending)
    (hroom : r.copied.length ≤ s.bodySize) :
    (World.deliver s .readBody r).upstreamBodyBuffer.length = bodyBufferSize := by
  obtain ⟨hdata, hsize⟩ := h.offered hmem
  have hbuffer := h.buffer
  show (s.upstreamBodyBuffer.take s.bodyData ++ r.copied ++
    s.upstreamBodyBuffer.drop (s.bodyData + r.copied.length)).length = _
  rw [hsize] at hroom
  rw [List.length_append, List.length_append, List.length_take, List.length_drop, hdata, hbuffer]
  omega

/-- What a read of the body leaves behind. -/
theorem Relays.of_read {s' : ProxySession} (h : s.Relays) (hmem : .readBody ∈ s.pending)
    (hreads : s'.bodyReads = s.bodyReads ++ [r])
    (hforwarded : s'.forwarded = s.forwarded ++ if r.isData then r.copied else [])
    (hended : r.endsRelay = true → ∀ op ∈ s'.pending, op.isRelay = false)
    (hoffered : .readBody ∈ s'.pending → s'.bodyData = 0 ∧ s'.bodySize = bodyBufferSize)
    (hbuffer : s'.upstreamBodyBuffer.length = bodyBufferSize)
    (hstart : s'.requestStart = s.requestStart) : s'.Relays := by
  obtain ⟨hopen, hsome⟩ := h.open_of_mem hmem rfl
  refine ⟨?_, fun hany => ?_, hoffered, hbuffer, fun hnone => absurd (hstart ▸ hnone) hsome⟩
  · rw [hforwarded, hreads, h.forwarded, List.filter_append, List.flatMap_append]
    cases hdata : r.isData <;> simp [hdata]
  · rw [hreads, List.any_append, hopen, Bool.false_or] at hany
    exact hended (by simpa using hany)

end ProxySession

namespace Context

variable {c c' c₁ : Context} {op next : Op} {r : Outcome} {ending : Ending}

/-- Everything the handler of a read can do. -/
theorem onReadBody_cases (r : Outcome) (c : Context) :
    (r.fillsBuffer = true ∧ c.onReadBody r.ec r.isDone = c.offerBuffer.start .readBody) ∨
    (∃ ending c₁, Observes c c₁ ∧ Ends ending c₁ (c.onReadBody r.ec r.isDone) ∧
      (r.isData = true →
        c.self.upstreamBodyBuffer.take (bodyBufferSize - c.self.bodySize) = [])) ∨
    (r.isData = true ∧ ∃ done c₁, Observes c c₁ ∧ c.onReadBody r.ec r.isDone =
      c₁.start (.writeBody
        (c.self.upstreamBodyBuffer.take (bodyBufferSize - c.self.bodySize)) done)) := by
  unfold onReadBody
  by_cases hfull : r.ec = some .needBuffer
  · rw [if_pos hfull]
    unfold readUpstreamBody
    split
    · exact .inl ⟨decide_eq_true hfull, rfl⟩
    · refine .inr (.inl ⟨.failed, c, .refl c, failWithStatus_ends .., fun hdata => ?_⟩)
      simp [Outcome.isData, hfull] at hdata
  · rw [if_neg hfull]
    by_cases hend : (r.ec = some .endOfStream || r.isDone) = true
    · rw [if_pos hend]
      refine .inr (.inl ⟨.completed, c, .refl c, finishRequest_ends c, fun hdata => ?_⟩)
      simp only [Outcome.isData, Bool.and_eq_true, Option.isNone_iff_eq_none,
        Bool.not_eq_true'] at hdata
      simp [hdata] at hend
    · rw [if_neg hend]
      by_cases hec : r.ec.isSome = true
      · rw [if_pos hec]
        refine .inr (.inl ⟨.failed, c, .refl c, failWithStatus_ends .., fun hdata => ?_⟩)
        simp only [Outcome.isData, Bool.and_eq_true, Option.isNone_iff_eq_none] at hdata
        simp [hdata.1] at hec
      · rw [if_neg hec]
        extract_lets remaining consumed chunk observed
        have hobserves : Observes c observed.2 := observeSseChunk_observes chunk c
        unfold writeDownstreamBody
        split
        · rename_i hempty
          rw [Bool.and_eq_true, List.isEmpty_iff] at hempty
          exact .inr (.inl ⟨.completed, _, hobserves, finishRequest_ends _, fun _ => hempty.1⟩)
        · refine .inr (.inr ⟨?_, _, _, hobserves, rfl⟩)
          simp only [Bool.or_eq_true, not_or, Bool.not_eq_true] at hend
          simp [Outcome.isData, hend.2, Option.not_isSome_iff_eq_none.mp hec]

/-- After a completion of the relay only what the handler starts belongs to it. -/
theorem not_relay_of_relay {s : ProxySession} {e : Nat} (hphase : s.Phase e) (hmem : op ∈ s.pending)
    (hrelay : op.isRelay = true) (r : Outcome) :
    ∀ op' ∈ (World.deliver s op r).pending, op'.isRelay = false := by
  intro op' hop
  apply Bool.eq_false_iff.mpr
  intro hrelay'
  have hcontrol : op' ∈ (World.deliver s op r).control :=
    List.mem_filter.mpr ⟨hop, by rw [Op.isTimer_of_isRelay hrelay']; rfl⟩
  have hmem' : op ∈ s.control :=
    List.mem_filter.mpr ⟨hmem, by rw [Op.isTimer_of_isRelay hrelay]; rfl⟩
  rw [World.deliver_control, Op.isTimer_of_isRelay hrelay, if_neg Bool.false_ne_true] at hcontrol
  rcases hphase.of_relay hmem hrelay with hrunning | hover
  · -- a running request has one operation besides its timers, the one that completes
    rw [hrunning.control, List.erase_cons_head] at hcontrol
    cases hcontrol
  · -- after the end at most one operation of the relay is left to complete
    have hone : (s.control.erase op).countP Op.isRelay = 0 := by
      rw [List.countP_erase, if_pos ⟨hmem', hrelay⟩]
      have := hover.relays
      omega
    exact List.countP_eq_zero.mp hone op' hcontrol hrelay'

theorem readBody_relaysKept {s : ProxySession} {e : Nat} (hphase : s.Phase e) (hs : s.Relays)
    (hself : c.self = World.deliver s .readBody r) (hmem : .readBody ∈ s.pending)
    (hroom : r.copied.length ≤ s.bodySize) : (c.onReadBody r.ec r.isDone).self.Relays := by
  have hchunk := hs.chunk_eq hmem hroom
  rw [← hself] at hchunk
  have hbuffer := hs.buffer_deliver hmem hroom
  rw [← hself] at hbuffer
  have hreads : c.self.bodyReads = s.bodyReads ++ [r] := by
    rw [hself, bodyReads_deliver]
    rfl
  have hforwarded : c.self.forwarded = s.forwarded := by rw [hself, forwarded_deliver]
  have hstart : c.self.requestStart = s.requestStart := by rw [hself, World.deliver_requestStart]
  have hnone : ∀ op ∈ c.self.pending, op.isRelay = false :=
    hself ▸ not_relay_of_relay hphase hmem rfl r
  rcases onReadBody_cases r c with
    ⟨hfull, heq⟩ | ⟨ending, c₁, hobserves, hends, hempty⟩ | ⟨hdata, done, c₁, hobserves, heq⟩
  · rw [heq]
    -- a full buffer is offered again, and nothing counts as read
    have hdata : r.isData = false := Outcome.isData_of_fillsBuffer hfull
    refine hs.of_read hmem hreads ?_ (fun hended => ?_) (fun _ => ⟨rfl, rfl⟩) hbuffer hstart
    · show (c.offerBuffer.self.start .readBody).forwarded = _
      rw [forwarded_start, hdata]
      exact congrArg (· ++ _) hforwarded
    · rw [Outcome.endsRelay, hfull] at hended
      cases hended
  · -- the handler ends the request; if the read brought data, it was of length zero
    have hbeside : Beside c (c.onReadBody r.ec r.isDone) := hobserves.beside.trans hends.beside
    refine hs.of_read hmem (hbeside.bodyReads.trans hreads) ?_ (fun _ => hbeside.noRelay hnone)
      (fun hread => ?_) (by rw [hbeside.buffer, hbuffer]) (hbeside.requestStart.trans hstart)
    · rw [hbeside.forwarded, hforwarded]
      split
      · rename_i hdata
        rw [← hchunk, hempty hdata, List.append_nil]
      · exact (List.append_nil _).symm
    · cases hbeside.noRelay hnone _ hread
  · -- the chunk that was copied is the one that is written
    rw [heq, hchunk]
    have hbeside := hobserves.beside
    refine hs.of_read hmem (hbeside.bodyReads.trans hreads) ?_ (fun hended => ?_) (fun hread => ?_)
      (hbeside.buffer ▸ hbuffer) (hbeside.requestStart.trans hstart)
    · show (c₁.self.start _).forwarded = _
      rw [forwarded_start, hbeside.forwarded, hforwarded, if_pos hdata]
      rfl
    · rw [Outcome.endsRelay, hdata, Bool.not_true, Bool.and_false] at hended
      cases hended
    · rcases List.mem_append.mp hread with hread | hread
      · cases hbeside.noRelay hnone _ hread
      · cases List.mem_singleton.mp hread

theorem setSelf_beside {s : ProxySession} (hcalls : s.calls = c.self.calls)
    (hdelivered : s.delivered = c.self.delivered) (hpending : s.pending = c.self.pending)
    (hstart : s.requestStart = c.self.requestStart) (hdata : s.bodyData = c.self.bodyData)
    (hsize : s.bodySize = c.self.bodySize)
    (hbuffer : s.upstreamBodyBuffer = c.self.upstreamBodyBuffer) : Beside c (c.setSelf s) := by
  refine ⟨?_, hdelivered, fun op hmem _ => ?_, hstart, hdata, hsize, hbuffer⟩
  · exact congrArg (List.flatMap payload) hcalls
  · exact hpending ▸ hmem

theorem finished_beside (c : Context) :
    Beside c (c.setSelf { c.self with finished := true }) :=
  setSelf_beside rfl rfl rfl rfl rfl rfl rfl

theorem clientRequest_beside (c : Context) (request : HttpRequest) :
    Beside c (c.setSelf { c.self with clientRequest := request }) :=
  setSelf_beside rfl rfl rfl rfl rfl rfl rfl

theorem counted_beside : Beside c c.counted :=
  (show Beside c (c.note .recordStarted) from note_beside rfl).trans
    ⟨rfl, rfl, fun _ hmem _ => hmem, rfl, rfl, rfl, rfl⟩

theorem Requested.relaysKept (h : Requested c c') (hs : c.self.Relays)
    (hidle : c.self.Idle) : c'.self.Relays := by
  cases h with
  | unread =>
      exact (finished_beside c).relaysKept hs
  | refused _ hends => exact hends.beside.relaysKept hs
  | health => exact (start_beside rfl).relaysKept hs
  | admitted halive =>
      rw [startProxyRequest_eq (c := c.counted.setLimiter _) _ halive hidle.permit]
      have hcounted : c.counted.self.Relays := counted_beside.relaysKept hs
      exact hcounted.startRelay hidle.requestStart ..
  | queued => exact counted_beside.relaysKept hs
  | turnedAway _ _ hends => exact (counted_beside.trans hends.beside).relaysKept hs

theorem Relay.relaysKept (h : Relay op r c c₁ next) (hop : op ≠ .readBody) (hs : c.self.Relays)
    (hopen : c.self.bodyReads.any Outcome.endsRelay = false) (hstart : c.self.requestStart ≠ none) :
    (c₁.self.start next).Relays := by
  have hoffered : c.offerBuffer.self.Relays :=
    ⟨hs.forwarded, hs.ended, fun _ => ⟨rfl, rfl⟩, hs.buffer, hs.unstarted⟩
  cases h with
  | resolved => exact hs.startNext hopen hstart rfl fun h => nomatch h
  | connected request =>
      have hset : Beside c (c.setSelf { c.self with upstreamRequest := request }) :=
        setSelf_beside rfl rfl rfl rfl rfl rfl rfl
      exact (hset.relaysKept hs).startNext hopen hstart rfl fun h => nomatch h
  | requestWritten => exact hoffered.startNext hopen hstart rfl fun h => nomatch h
  | headerRead =>
      have hset : Beside c (c.setSelf { c.self with responseStarted := true }) :=
        setSelf_beside rfl rfl rfl rfl rfl rfl rfl
      exact (hset.relaysKept hs).startNext hopen hstart rfl fun h => nomatch h
  | headerWritten => exact hoffered.startNext hopen hstart rfl fun _ => ⟨rfl, rfl⟩
  | bodyWritten => exact hoffered.startNext hopen hstart rfl fun _ => ⟨rfl, rfl⟩
  | bufferFull h => exact absurd h hop
  | chunk _ _ h => exact absurd h hop

theorem Handled.relaysKept {s : ProxySession} {e : Nat} (h : Handled op r c c')
    (hphase : s.Phase e) (hop : op ≠ .readBody) (hself : c.self = World.deliver s op r)
    (hmem : op ∈ s.pending) (hs : s.Relays) : c'.self.Relays := by
  have hc : c.self.Relays := hself ▸ hs.deliver hop r
  cases h with
  | timer => exact hc
  | timedOut _ _ _ _ _ hends => exact (timeOut_beside.trans hends.beside).relaysKept hc
  | expired _ _ _ _ hends => exact hends.beside.relaysKept hc
  | read _ hread hrequested =>
      have hidle : c.self.Idle := by
        rw [hself]
        exact (hphase.of_opening hmem (by rw [hread]; rfl)).1.deliver op r
      exact hrequested.relaysKept ((clientRequest_beside c r.request).relaysKept hc)
        ⟨hidle.1, hidle.2, hidle.3, hidle.4⟩
  | wroteText =>
      exact ((finished_beside c).trans (note_beside rfl)).relaysKept hc
  | wroteError => exact (note_beside rfl).relaysKept hc
  | ended _ _ _ _ _ hobserves hends => exact (hobserves.beside.trans hends.beside).relaysKept hc
  | relayed _ _ hrelay =>
      obtain ⟨hopen, hstart⟩ := hs.open_of_mem hmem hrelay.isRelay.1
      refine hrelay.relaysKept hop hc ?_ ?_
      · rw [hself, bodyReads_deliver, bodyRead_of_not_read hop, Option.toList_none,
          List.append_nil]
        exact hopen
      · rw [hself, World.deliver_requestStart]
        exact hstart

/-- No handler delivers, and a chunk is written only by the handler of the read that copied it. -/
structure Passes (op : Op) (r : Outcome) (c c' : Context) : Prop where
  delivered : c'.self.delivered = c.self.delivered
  writes : ∀ payload done, .writeBody payload done ∈ c'.self.pending →
    .writeBody payload done ∈ c.self.pending ∨ op = .readBody ∧ r.isData = true ∧
      payload = c.self.upstreamBodyBuffer.take (bodyBufferSize - c.self.bodySize)

theorem Beside.passes (h : Beside c c') : Passes op r c c' :=
  ⟨h.delivered, fun _ _ hmem => .inl (h.relays _ hmem rfl)⟩

theorem passes_of_start {s : ProxySession} (hself : c'.self = s.start next)
    (hdelivered : s.delivered = c.self.delivered)
    (hpending : ∀ op ∈ s.pending, op.isRelay = true → op ∈ c.self.pending)
    (hnext : ∀ payload done, next ≠ .writeBody payload done) : Passes op r c c' := by
  refine ⟨by rw [hself, start_delivered, hdelivered], fun payload done hmem => ?_⟩
  rw [hself, start_pending] at hmem
  rcases List.mem_append.mp hmem with hmem | hmem
  · exact .inl (hpending _ hmem rfl)
  · exact absurd (List.mem_singleton.mp hmem).symm (hnext payload done)

theorem Relay.passes (h : Relay op r c c₁ next) : Passes op r c (c₁.start next) := by
  have hprep := h.prepares
  refine ⟨hprep.delivered, fun payload done hmem => ?_⟩
  rcases List.mem_append.mp hmem with hold | hnew
  · exact .inl (hprep.pending ▸ hold)
  · have hnext := List.mem_singleton.mp hnew
    clear hmem hnew hprep
    cases h with
    | chunk _ done hop hec hdone =>
        cases hnext
        exact .inr ⟨hop, by simp [Outcome.isData, hec, hdone], rfl⟩
    | _ => cases hnext

theorem Requested.passes (h : Requested c c') (hpermit : c.self.permit = none) :
    Passes op r c c' := by
  cases h with
  | unread => exact ⟨rfl, fun _ _ hmem => .inl hmem⟩
  | refused _ hends => exact hends.beside.passes
  | health => exact (start_beside rfl).passes
  | admitted halive =>
      rw [startProxyRequest_eq (c := c.counted.setLimiter _) _ halive hpermit]
      refine passes_of_start rfl rfl (fun op hmem hrelay => ?_) fun _ _ h => nomatch h
      rcases List.mem_append.mp hmem with hmem | hmem
      · exact hmem
      · rw [List.mem_singleton.mp hmem] at hrelay
        cases hrelay
  | queued => exact ⟨rfl, fun _ _ hmem => .inl hmem⟩
  | turnedAway _ _ hends => exact (counted_beside.trans hends.beside).passes

theorem Handled.passes (h : Handled op r c c') (hread : op = .readRequest → c.self.permit = none) :
    Passes op r c c' := by
  cases h with
  | timer => exact ⟨rfl, fun _ _ hmem => .inl hmem⟩
  | timedOut _ _ _ _ _ hends => exact (timeOut_beside.trans hends.beside).passes
  | expired _ _ _ _ hends => exact hends.beside.passes
  | read _ hop hrequested =>
      have hpasses : Passes op r (c.setSelf { c.self with clientRequest := r.request }) c' :=
        hrequested.passes (hread hop)
      exact ⟨hpasses.delivered, hpasses.writes⟩
  | wroteText => exact ⟨rfl, fun _ _ hmem => .inl hmem⟩
  | wroteError => exact ⟨rfl, fun _ _ hmem => .inl hmem⟩
  | ended _ _ _ _ _ hobserves hends => exact (hobserves.beside.trans hends.beside).passes
  | relayed _ _ hrelay => exact hrelay.passes

end Context

namespace World

variable {config : ProxyConfig} {server : ProxyServer} {w w' : World}

theorem relays_keptQuietly : KeptQuietly fun _ => Relays := by
  constructor
  case created =>
    intro _ sseParser _
    refine ⟨rfl, fun h => (nomatch h), fun h => ?_, List.length_replicate, fun _ => ⟨rfl, ?_⟩⟩
    · cases List.mem_singleton.mp h
    · intro op hmem
      rw [List.mem_singleton.mp hmem]
      rfl
  case closed =>
    intro _ s hs
    refine ⟨?_, hs.ended, hs.offered, hs.buffer, hs.unstarted⟩
    rw [forwarded_of_calls (s := s) [.closeClient] rfl (by simp [payload])]
    exact hs.forwarded
  case enqueued =>
    intro _ s idle pending hs
    have hmem {op : Op} (hop : op ∈ s.pending ++ [.queueTimer false]) :
        op = .queueTimer false := by simpa [pending] using hop
    refine ⟨?_, fun _ op hop => ?_, fun hop => ?_, hs.buffer, fun hnone => ⟨?_, fun op hop => ?_⟩⟩
    · rw [forwarded_start]
      exact (List.append_nil _).trans hs.forwarded
    · rw [hmem hop]
      rfl
    · cases hmem hop
    · exact (hs.unstarted hnone).1
    · rw [hmem hop]
      rfl
  case promoted =>
    intro _ s host service clock idle pending hs
    have hnot {op : Op} (hop : op ∈ s.pending.map Op.cancelQueueTimer) : op.isRelay = false := by
      rw [pending, List.map_singleton, List.mem_singleton] at hop
      rw [hop]
      rfl
    have hdequeued : ({ s with
        queued := false
        pending := s.pending.map Op.cancelQueueTimer } : ProxySession).Relays := by
      refine ⟨hs.forwarded, fun _ _ => hnot, fun hop => ?_, hs.buffer, fun hnone => ?_⟩
      · cases hnot hop
      · exact ⟨(hs.unstarted hnone).1, fun _ => hnot⟩
    exact hdequeued.startRelay idle.requestStart ..
  case destroyed =>
    intro _ s hs
    exact ⟨hs.forwarded, hs.ended, hs.offered, hs.buffer, hs.unstarted⟩

theorem completion_relays {i : Nat} {op : Op} {r : Outcome} {s : ProxySession} (h : w.Sound)
    (hall : ∀ (i : Nat) (s : ProxySession), w.sessions[i]? = some s → s.Relays)
    (hlock : w.lock i = some s) (hmem : op ∈ s.pending) (hdeliverable : deliverable s op r = true) :
    ((w.context i (deliver s op r)).handle op r).self.Relays := by
  obtain ⟨hget, -⟩ := lock_eq_some.mp hlock
  have hphase := h.phase i s hget
  by_cases hop : op = .readBody
  · obtain rfl := hop
    have hroom : r.copied.length ≤ s.bodySize := of_decide_eq_true hdeliverable
    exact readBody_relaysKept (c := w.context i (deliver s .readBody r)) hphase (hall i s hget) rfl
      hmem hroom
  · exact (handle_handled op r (w.context i (deliver s op r))).relaysKept hphase hop rfl hmem
      (hall i s hget)

/-- A step keeps the relay of every session in order. -/
theorem relays_step {e : Event} (h : w.Sound) (hstep : World.step w e = some w')
    (hall : ∀ (i : Nat) (s : ProxySession), w.sessions[i]? = some s → s.Relays) :
    ∀ (i : Nat) (s : ProxySession), w'.sessions[i]? = some s → s.Relays :=
  relays_keptQuietly.step h hstep hall fun _ _ _ _ _ hlock hmem hdeliverable =>
    completion_relays h hall hlock hmem hdeliverable

theorem relays_run (hcreate : ProxyServer.create config = .ok server) {events : List Event}
    (hrun : run World.step (World.init server) events = some w) :
    ∀ (i : Nat) (s : ProxySession), w.sessions[i]? = some s → s.Relays := by
  refine (run_induct (p := fun w => w.Sound ∧
    ∀ (i : Nat) (s : ProxySession), w.sessions[i]? = some s → s.Relays) hrun ?_ ?_).2
  · exact ⟨Sound.init hcreate, fun _ _ hi => (nomatch hi)⟩
  · exact fun _ _ _ h hstep => ⟨h.1.step hstep, relays_step h.1 hstep h.2⟩

/-- What the bytes of a session show of one completion. -/
structure Advances (s : ProxySession) (op : Op) (r : Outcome) (s' : ProxySession) : Prop where
  bodyReads : s'.bodyReads = s.bodyReads ++ (bodyRead (op, r)).toList
  forwarded : s'.forwarded = s.forwarded ++ if op = .readBody ∧ r.isData then r.copied else []
  writes : ∀ payload done, .writeBody payload done ∈ s'.pending →
    op ≠ .readBody ∧ .writeBody payload done ∈ s.pending ∨
      op = .readBody ∧ r.isData = true ∧ payload = r.copied

theorem Advances.received {s s' : ProxySession} {op : Op} {r : Outcome} (h : Advances s op r s') :
    s'.received = s.received ++ if op = .readBody then r.copied else [] := by
  unfold ProxySession.received
  rw [h.bodyReads, List.flatMap_append]
  by_cases hop : op = .readBody
  · rw [if_pos hop, hop]
    exact congrArg (_ ++ ·) (List.append_nil _)
  · rw [if_neg hop, bodyRead_of_not_read hop]
    rfl

theorem complete_passes {i : Nat} {op : Op} {s : ProxySession} (h : w.Sound)
    (hlock : w.lock i = some s) (hmem : op ∈ s.pending) (r : Outcome) :
    Passes op r (w.context i (deliver s op r)) ((w.context i (deliver s op r)).handle op r) := by
  obtain ⟨hget, -⟩ := lock_eq_some.mp hlock
  apply (handle_handled op r (w.context i (deliver s op r))).passes
  intro hread
  show (deliver s op r).permit = none
  rw [deliver_permit]
  exact ((h.phase i s hget).of_opening hmem (by rw [hread]; rfl)).1.permit

theorem complete_delivered {i : Nat} {op : Op} {r : Outcome} {s : ProxySession} (h : w.Sound)
    (hlock : w.lock i = some s) (hmem : op ∈ s.pending) :
    ((w.context i (deliver s op r)).handle op r).self.delivered =
      s.delivered ++ [(op, r)] := by
  rw [← deliver_delivered]
  exact (complete_passes h hlock hmem r).delivered

theorem complete_advances {i : Nat} {op : Op} {r : Outcome} {s : ProxySession} (h : w.Sound)
    (hall : ∀ (i : Nat) (s : ProxySession), w.sessions[i]? = some s → s.Relays)
    (hlock : w.lock i = some s) (hmem : op ∈ s.pending) (hdeliverable : deliverable s op r = true) :
    Advances s op r ((w.context i (deliver s op r)).handle op r).self := by
  obtain ⟨hget, -⟩ := lock_eq_some.mp hlock
  have hphase := h.phase i s hget
  have hs := hall i s hget
  have hpasses := complete_passes h hlock hmem r
  have hreads : ((w.context i (deliver s op r)).handle op r).self.bodyReads =
      s.bodyReads ++ (bodyRead (op, r)).toList := by
    rw [← bodyReads_deliver]
    exact congrArg (List.filterMap bodyRead) hpasses.delivered
  have hafter := completion_relays h hall hlock hmem hdeliverable
  refine ⟨hreads, ?_, fun payload done hwrite => ?_⟩
  · rw [hafter.forwarded, hreads, hs.forwarded, List.filter_append, List.flatMap_append]
    by_cases hop : op = .readBody
    · obtain rfl := hop
      cases hdata : r.isData <;> simp [bodyRead, hdata]
    · simp [hop, bodyRead_of_not_read hop]
  · rcases hpasses.writes payload done hwrite with hold | ⟨hop, hdata, hpayload⟩
    · have hold' : .writeBody payload done ∈ (deliver s op r).pending := hold
      by_cases hop : op = .readBody
      · obtain rfl := hop
        cases not_relay_of_relay hphase hmem rfl r _ hold'
      · rw [deliver_pending] at hold'
        exact .inl ⟨hop, List.mem_of_mem_erase hold'⟩
    · obtain rfl := hop
      exact .inr ⟨rfl, hdata, hpayload.trans (hs.chunk_eq hmem (of_decide_eq_true hdeliverable))⟩

end World

end VllmSloProxy
