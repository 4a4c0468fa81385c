import Mathlib.Data.List.Flatten
import VllmSloProxy.BodyRelay

/-!
# The integrity of the stream

What the client is sent is to be an initial part of the upstream body, byte for byte in its place.
A read that fills the buffer is read over without its bytes being passed on, so a run keeps this
exactly when no data follows such a read.
-/

namespace VllmSloProxy

open Context Transition Relation

namespace ProxySession

/-- What was passed on is an initial part of the body, and a chunk that is being written ends in
the stream to the client where it ended in the body. -/
structure StreamIntact (body : Bytes) (s : ProxySession) : Prop where
  initial : s.forwarded <+: body
  inPlace : ∀ payload done, .writeBody payload done ∈ s.pending → payload ≠ [] →
    s.forwarded.length = s.received.length

end ProxySession

namespace Outcome

/-- A read that filled the buffer and whose bytes are lost with it. -/
def losesBytes (r : Outcome) : Bool := r.fillsBuffer && !r.copied.isEmpty

end Outcome

open ProxySession

namespace ProxySession

variable {s : ProxySession}

theorem flatMap_filter_data {reads : List Outcome}
    (h : ∀ r ∈ reads, r.isData = false → r.copied = []) :
    (reads.filter Outcome.isData).flatMap Outcome.copied = reads.flatMap Outcome.copied := by
  induction reads with
  | nil => rfl
  | cons r reads ih =>
      have ih' := ih fun r' hmem => h r' (List.mem_cons_of_mem _ hmem)
      rw [List.flatMap_cons, List.filter_cons]
      cases hdata : r.isData with
      | true => rw [if_pos rfl, List.flatMap_cons, ih']
      | false =>
          rw [if_neg Bool.false_ne_true, ih', h r List.mem_cons_self hdata, List.nil_append]

theorem length_filter_data_lt {reads : List Outcome} {r : Outcome} (hmem : r ∈ reads)
    (hdata : r.isData = false) (hcopied : r.copied ≠ []) :
    ((reads.filter Outcome.isData).flatMap Outcome.copied).length <
      (reads.flatMap Outcome.copied).length := by
  have hle (reads : List Outcome) :
      ((reads.filter Outcome.isData).flatMap Outcome.copied).length ≤
        (reads.flatMap Outcome.copied).length :=
    (List.filter_sublist.flatMap _).length_le
  have hpos : 0 < r.copied.length := List.length_pos_iff.mpr hcopied
  obtain ⟨before, after, rfl⟩ := List.append_of_mem hmem
  have hbefore := hle before
  have hafter := hle after
  simp only [List.filter_append, List.filter_cons, hdata, Bool.false_eq_true, if_false,
    List.flatMap_append, List.flatMap_cons, List.length_append]
  omega

/-- As long as no bytes were lost and the body has not ended, everything received was passed on. -/
theorem Relays.forwarded_eq (h : s.Relays) (hopen : s.bodyReads.any Outcome.endsRelay = false)
    (hloss : s.bodyReads.any Outcome.losesBytes = false) : s.forwarded = s.received := by
  rw [h.forwarded]
  apply flatMap_filter_data
  intro r hmem hdata
  have hkept := List.any_eq_false.mp hopen r hmem
  have hlost := List.any_eq_false.mp hloss r hmem
  have hfull : r.fillsBuffer = true := by simpa [Outcome.endsRelay, hdata] using hkept
  simpa [Outcome.losesBytes, hfull] using hlost

/-- A read that completed with data is written to the client. -/
theorem Relays.data_writes {r : Outcome} {c : Context} (hs : s.Relays)
    (hself : c.self = World.deliver s .readBody r) (hmem : .readBody ∈ s.pending)
    (hroom : r.copied.length ≤ s.bodySize) (hdata : r.isData = true) (hcopied : r.copied ≠ []) :
    ∃ done, .writeBody r.copied done ∈ (c.onReadBody r.ec r.isDone).self.pending := by
  have hchunk := hs.chunk_eq hmem hroom
  rw [← hself] at hchunk
  rcases onReadBody_cases r c with ⟨hfull, -⟩ | ⟨-, -, -, -, hempty⟩ | ⟨-, done, c₁, -, heq⟩
  · rw [Outcome.isData_of_fillsBuffer hfull] at hdata
    cases hdata
  · exact absurd (hchunk.symm.trans (hempty hdata)) hcopied
  · refine ⟨done, ?_⟩
    rw [heq, hchunk]
    exact List.mem_append_right _ (List.mem_singleton_self _)

end ProxySession

namespace World

variable {config : ProxyConfig} {server : ProxyServer} {w w' : World} {body : Nat → Bytes}

/-- Beast copies the next bytes of the upstream body. -/
def copiesNext (body : Nat → Bytes) (w : World) : Event → Bool
  | .complete i .readBody r => (w.lock i).all fun s => s.received ++ r.copied <+: body i
  | _ => true

/-- Data is passed on after a read whose bytes were lost. -/
def forwardsAfterLoss (w : World) : Event → Bool
  | .complete i .readBody r => r.isData && !r.copied.isEmpty &&
      (w.lock i).any fun s => s.bodyReads.any Outcome.losesBytes
  | _ => false

/-- What keeps the streams intact from one step to the next. -/
structure Streaming (body : Nat → Bytes) (w : World) : Prop where
  sound : w.Sound
  relays : ∀ (i : Nat) (s : ProxySession), w.sessions[i]? = some s → s.Relays
  received : ∀ (i : Nat) (s : ProxySession), w.sessions[i]? = some s → s.received <+: body i
  intact : ∀ (i : Nat) (s : ProxySession), w.sessions[i]? = some s → s.StreamIntact s.received

theorem Streaming.streamIntact (h : Streaming body w) (i : Nat) (s : ProxySession)
    (hi : w.sessions[i]? = some s) : s.StreamIntact (body i) :=
  ⟨(h.intact i s hi).initial.trans (h.received i s hi), (h.intact i s hi).inPlace⟩

theorem received_keptQuietly : KeptQuietly fun i s => s.received <+: body i where
  created _ _ _ := List.nil_prefix
  closed _ _ hs := hs
  enqueued _ _ _ _ hs := hs
  promoted _ _ _ _ _ _ _ hs := hs
  destroyed _ _ hs := hs

theorem intact_keptQuietly : KeptQuietly fun _ s => s.StreamIntact s.received := by
  have hkeep {s s' : ProxySession} (hs : s.StreamIntact s.received)
      (hforwarded : s'.forwarded = s.forwarded) (hreceived : s'.received = s.received)
      (hwrites : ∀ op ∈ s'.pending, op ∈ s.pending ∨ op.isBody = false) :
      s'.StreamIntact s'.received := by
    refine ⟨by rw [hforwarded, hreceived]; exact hs.initial, fun payload done hmem => ?_⟩
    rw [hforwarded, hreceived]
    rcases hwrites _ hmem with hold | hnot
    · exact hs.inPlace payload done hold
    · cases hnot
  constructor
  case created =>
    intro _ sseParser _
    refine ⟨List.nil_prefix, fun payload done hmem => ?_⟩
    cases List.mem_singleton.mp hmem
  case closed =>
    intro _ s hs
    exact hkeep hs (forwarded_of_calls [.closeClient] rfl (by simp [payload])) rfl
      fun _ => .inl
  case enqueued =>
    intro _ s _ _ hs
    refine hkeep hs ?_ rfl fun op hmem => ?_
    · rw [forwarded_start]
      exact List.append_nil _
    · rcases List.mem_append.mp hmem with hmem | hmem
      · exact .inl hmem
      · rw [List.mem_singleton.mp hmem]
        exact .inr rfl
  case promoted =>
    intro _ s host service clock _ pending hs
    refine hkeep hs ?_ rfl fun op hmem => .inr ?_
    · unfold startedFromQueue
      rw [forwarded_start, forwarded_start]
      exact (List.append_nil _).trans (List.append_nil _)
    · simp only [startedFromQueue, start_pending, pending, List.map_cons, List.map_nil,
        List.mem_append, List.mem_singleton] at hmem
      rcases hmem with (rfl | rfl) | rfl <;> rfl
  case destroyed =>
    intro _ s hs
    exact ⟨hs.initial, hs.inPlace⟩

/-- A completion keeps a stream intact unless it passes data on after a loss. -/
theorem Advances.streamIntact {s s' : ProxySession} {op : Op} {r : Outcome}
    (h : Advances s op r s') (hs : s.Relays) (hmem : op ∈ s.pending)
    (hok : op = .readBody → r.isData = true → r.copied ≠ [] →
      s.bodyReads.any Outcome.losesBytes = false)
    (hintact : s.StreamIntact s.received) : s'.StreamIntact s'.received := by
  have hforwarded := h.forwarded
  have hreceived := h.received
  by_cases hnew : op = .readBody ∧ r.isData = true ∧ r.copied ≠ []
  · -- no bytes were lost before, so everything received so far was passed on
    obtain ⟨hop, hdata, hcopied⟩ := hnew
    have hopen := (hs.open_of_mem hmem (by rw [hop]; rfl)).1
    have heq := hs.forwarded_eq hopen (hok hop hdata hcopied)
    rw [if_pos hop] at hreceived
    rw [if_pos ⟨hop, hdata⟩, heq, ← hreceived] at hforwarded
    refine ⟨?_, fun _ _ _ _ => ?_⟩
    · exact hforwarded ▸ List.prefix_refl _
    · rw [hforwarded]
  · -- nothing is passed on
    have hnone : (if op = .readBody ∧ r.isData = true then r.copied else []) = [] := by
      split
      · rename_i hboth
        by_contra hcopied
        exact hnew ⟨hboth.1, hboth.2, hcopied⟩
      · rfl
    rw [hnone, List.append_nil] at hforwarded
    refine ⟨?_, fun payload done hwrite hne => ?_⟩
    · rw [hforwarded, hreceived]
      exact hintact.initial.trans (List.prefix_append _ _)
    · rcases h.writes payload done hwrite with ⟨hop, hold⟩ | ⟨hop, hdata, hpayload⟩
      · rw [if_neg hop, List.append_nil] at hreceived
        rw [hforwarded, hreceived]
        exact hintact.inPlace payload done hold hne
      · exact absurd ⟨hop, hdata, hpayload ▸ hne⟩ hnew

theorem Streaming.step {e : Event} (h : Streaming body w) (hcopies : copiesNext body w e = true)
    (hok : forwardsAfterLoss w e = false) (hstep : World.step w e = some w') :
    Streaming body w' := by
  refine ⟨h.sound.step hstep, relays_step h.sound hstep h.relays,
    received_keptQuietly.step h.sound hstep h.received ?_,
    intact_keptQuietly.step h.sound hstep h.intact ?_⟩
  · rintro i op r s rfl hlock hmem hdeliverable
    obtain ⟨hget, -⟩ := lock_eq_some.mp hlock
    rw [(complete_advances h.sound h.relays hlock hmem hdeliverable).received]
    split
    · rename_i hop
      rw [hop, copiesNext, hlock] at hcopies
      exact of_decide_eq_true hcopies
    · rw [List.append_nil]
      exact h.received i s hget
  · rintro i op r s rfl hlock hmem hdeliverable
    obtain ⟨hget, -⟩ := lock_eq_some.mp hlock
    apply (complete_advances h.sound h.relays hlock hmem hdeliverable).streamIntact
      (h.relays i s hget) hmem _ (h.intact i s hget)
    rintro rfl hdata hcopied
    rw [forwardsAfterLoss, hlock, hdata] at hok
    simpa [hcopied] using hok

/-- Data after a loss is passed on ahead of its place. -/
theorem forwardsAfterLoss_breaks {e : Event} (h : Streaming body w)
    (hbad : forwardsAfterLoss w e = true) (hstep : World.step w e = some w') :
    ¬ ∀ (i : Nat) (s : ProxySession), w'.sessions[i]? = some s → s.StreamIntact (body i) := by
  unfold forwardsAfterLoss at hbad
  split at hbad
  · rename_i i r
    obtain ⟨s, hlock, hmem, hdeliverable, rfl⟩ := complete_eq_some hstep
    simp only [hlock, Option.any_some, Bool.and_eq_true, Bool.not_eq_true',
      List.isEmpty_eq_false_iff, List.any_eq_true] at hbad
    obtain ⟨⟨hdata, hcopied⟩, lost, hlost, hloses⟩ := hbad
    obtain ⟨hget, -⟩ := lock_eq_some.mp hlock
    have hs := h.relays i s hget
    have hafter := completion_relays h.sound h.relays hlock hmem hdeliverable
    have hreads := (complete_advances h.sound h.relays hlock hmem hdeliverable).bodyReads
    have hid : ((w.context i (deliver s .readBody r)).handle .readBody r).id = i :=
      (handle_handled .readBody r (w.context i (deliver s .readBody r))).frame.id
    obtain ⟨done, hwrite⟩ := hs.data_writes (c := w.context i (deliver s .readBody r)) rfl hmem
      (of_decide_eq_true hdeliverable) hdata hcopied
    intro hintact
    have hnew := put_getElem? (w := w) (by rw [hid]; exact hget) i
    rw [if_pos hid] at hnew
    have hlength := (hintact i _ hnew).inPlace _ done hwrite hcopied
    have hlost' :
        lost ∈ ((w.context i (deliver s .readBody r)).handle .readBody r).self.bodyReads := by
      rw [hreads]
      exact List.mem_append_left _ hlost
    rw [Outcome.losesBytes, Bool.and_eq_true, Bool.not_eq_true',
      List.isEmpty_eq_false_iff] at hloses
    have hlt := length_filter_data_lt hlost' (Outcome.isData_of_fillsBuffer hloses.1) hloses.2
    rw [← hafter.forwarded] at hlt
    exact absurd hlength (Nat.ne_of_lt hlt)
  · cases hbad

theorem Streaming.init (hcreate : ProxyServer.create config = .ok server) :
    Streaming body (World.init server) :=
  ⟨Sound.init hcreate, fun _ _ hi => (nomatch hi), fun _ _ hi => (nomatch hi),
    fun _ _ hi => (nomatch hi)⟩

/-- In every state of a run what each client is sent is an initial part of its upstream body,
exactly when no data is passed on after a loss in the run. -/
theorem streamIntact_iff (body : Nat → Bytes) {events : List Event}
    (hcreate : ProxyServer.create config = .ok server)
    (hrun : run World.step (World.init server) events = some w)
    (hcopies : Meets World.step (fun w e => copiesNext body w e = true)
      (World.init server) events) :
    Always World.step (fun w => ∀ (i : Nat) (s : ProxySession), w.sessions[i]? = some s →
        s.StreamIntact (body i)) (World.init server) events ↔
      Meets World.step (fun w e => forwardsAfterLoss w e = false) (World.init server) events := by
  refine always_iff_meets_of hrun hcopies (Streaming.init hcreate) (fun _ h => h.streamIntact)
    (fun _ _ _ h hcopies hok hstep => h.step hcopies hok hstep)
    fun _ _ _ h _ hbad hstep => ?_
  exact forwardsAfterLoss_breaks h (by simpa using hbad) hstep

/-- A request that is admitted and connected, up to the first read of the body. -/
def toFirstRead : List Event :=
  [.accept, .complete 0 .readRequest { request := chatRequest },
    .complete 0 (.resolve (bytes "127.0.0.1") (bytes "8000")) {}, .complete 0 .connect {},
    .complete 0 (.writeUpstream (upstreamRequestOf oneSlotConfig {} chatRequest)) {},
    .complete 0 .readHeader {}, .complete 0 (.writeSseHeader sseHeader) {}]

/-- A burst that fills the buffer, and then one more byte. -/
def readPastBurst : List Event := toFirstRead ++
  [.complete 0 .readBody { ec := some .needBuffer, copied := List.replicate bodyBufferSize 97 },
    .complete 0 .readBody { copied := [98] }]

def burstBody : Bytes := List.replicate bodyBufferSize 97 ++ [98]

theorem streamIntact_readPastBurst :
    Meets World.step (fun w e => copiesNext (fun _ => burstBody) w e = true)
        (World.init oneSlotServer) readPastBurst ∧
      (run World.step (World.init oneSlotServer) readPastBurst).map
        (fun w => w.sessions.map fun s => decide (s.forwarded <+: burstBody)) = some [false] := by
  decide +kernel

/-- Two small reads, each passed on. -/
def readInTurn : List Event := toFirstRead ++
  [.complete 0 .readBody { copied := [97] }, .complete 0 (.writeBody [97] false) {},
    .complete 0 .readBody { copied := [98] }]

theorem streamIntact_readInTurn :
    Always World.step (fun w => ∀ (i : Nat) (s : ProxySession), w.sessions[i]? = some s →
      s.StreamIntact [97, 98]) (World.init oneSlotServer) readInTurn :=
  have hrun : (run World.step (World.init oneSlotServer) readInTurn).isSome = true := by decide
  (streamIntact_iff (fun _ => [97, 98]) oneSlotServer_create
    (Option.some_get hrun).symm (by decide)).mpr (by decide)

end World

end VllmSloProxy
