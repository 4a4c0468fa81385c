import VllmSloProxy.StreamIntegrity

/-!
# The end of the stream

When the upstream body ends the session finishes, and the client is to have been sent the whole
body.  The branch that handles the end passes nothing on, so a run keeps this exactly when every
read that ends a body has copied no bytes.
-/

namespace VllmSloProxy

open Context Transition Relation

namespace ProxySession

def timerFires : Op × Outcome → Bool
  | (.requestTimer _, r) => r.ec.isNone
  | _ => false

/-- The body ends or the request timer fires, whichever comes first. -/
def decides : Op × Outcome → Bool
  | (.readBody, r) => r.endsBody
  | completion => timerFires completion

/-- The body ended before the request timer fired, so that the session ended through
`finish_request`. -/
def bodyEnded (s : ProxySession) : Bool :=
  (s.delivered.find? decides).any fun completion => completion.1 = .readBody

/-- When the body has ended and no read has filled the buffer, all of it was passed on. -/
def WholeBody (body : Bytes) (s : ProxySession) : Prop :=
  s.bodyReads.any Outcome.fillsBuffer = false → s.bodyEnded = true → s.forwarded = body

def timerFired (s : ProxySession) : Bool := s.delivered.any timerFires

/-- A session that is finished while its relay goes on was finished by its request timer. -/
structure Timed (s : ProxySession) : Prop where
  running : s.finished = false → s.timerFired = false
  ended : s.finished = true → ∀ op ∈ s.pending, op.isRelay = true → s.timerFired = true

variable {s s' : ProxySession} {op : Op} {r : Outcome}

theorem timerFired_snoc (hdelivered : s'.delivered = s.delivered ++ [(op, r)]) :
    s'.timerFired = (s.timerFired || timerFires (op, r)) := by
  unfold timerFired
  rw [hdelivered, List.any_append, List.any_cons, List.any_nil, Bool.or_false]

/-- Nothing of the relay is pending on a session that ends. -/
theorem Timed.of_over (hover : s.finished = true) (hnone : ∀ op ∈ s.pending, op.isRelay = false) :
    s.Timed := by
  refine ⟨fun hopen => ?_, fun _ op hop hrelay => ?_⟩
  · rw [hover] at hopen
    cases hopen
  · rw [hnone op hop] at hrelay
    cases hrelay

/-- The flag has not changed, and a relay that goes on was going on before. -/
theorem Timed.of_same (h : s.Timed) (hdelivered : s'.delivered = s.delivered ++ [(op, r)])
    (hflag : s'.finished = s.finished) (hquiet : s.finished = false → timerFires (op, r) = false)
    (hrelays : s.finished = true → ∀ op ∈ s'.pending, op.isRelay = true →
      ∃ op' ∈ s.pending, op'.isRelay = true) : s'.Timed := by
  have hfired := timerFired_snoc hdelivered
  refine ⟨fun hopen => ?_, fun hover op hop hrelay => ?_⟩
  · rw [hfired, h.running (hflag ▸ hopen), hquiet (hflag ▸ hopen)]
    rfl
  · obtain ⟨op', hop', hrelay'⟩ := hrelays (hflag ▸ hover) op hop hrelay
    rw [hfired, h.ended (hflag ▸ hover) op' hop' hrelay']
    rfl

end ProxySession

open ProxySession

namespace Context

variable {c c' c₁ : Context} {op next : Op} {r : Outcome} {ending : Ending}

theorem timerFires_of_relay (hop : op.isRelay = true) (r : Outcome) :
    timerFires (op, r) = false := by
  cases op <;> first | rfl | cases hop

/-- A request either ends its session, or leaves the flag as it is. -/
theorem Requested.timed (h : Requested c c') (hnone : ∀ op ∈ c.self.pending, op.isRelay = false)
    (hpermit : c.self.permit = none)
    (hsame : c'.self.finished = c.self.finished → c'.self.Timed) : c'.self.Timed := by
  cases h with
  | unread => exact .of_over rfl hnone
  | refused _ hends => exact .of_over hends.finished (hends.beside.noRelay hnone)
  | health => exact hsame rfl
  | admitted halive =>
      apply hsame
      rw [startProxyRequest_eq (c := c.counted.setLimiter _) _ halive hpermit]
      rfl
  | queued => exact hsame rfl
  | turnedAway _ _ hends =>
      exact .of_over hends.finished ((counted_beside.trans hends.beside).noRelay hnone)

/-- What a completion does to the session that is timed: `c'` is what the handler leaves. -/
theorem Handled.timed {s : ProxySession} {e : Nat} (h : Handled op r c c') (hphase : s.Phase e)
    (hself : c.self = World.deliver s op r) (hmem : op ∈ s.pending)
    (hdelivered : c'.self.delivered = s.delivered ++ [(op, r)]) (hs : s.Timed) :
    c'.self.Timed := by
  have hbefore : c.self.finished = s.finished := by rw [hself, World.deliver_finished]
  have hsub {op' : Op} (hop : op' ∈ c.self.pending) : op' ∈ s.pending := by
    rw [hself, World.deliver_pending] at hop
    exact List.mem_of_mem_erase hop
  have hnil (hopening : op.isOpening = true) : ∀ op' ∈ c.self.pending, op'.isRelay = false := by
    obtain ⟨-, -, pending⟩ := hphase.of_opening hmem hopening
    intro op' hop
    rw [hself, World.deliver_pending, pending, List.erase_cons_head] at hop
    cases hop
  cases h with
  | timer hop hrequest =>
      refine hs.of_same hdelivered hbefore (fun hopen => ?_)
        fun _ op' hop' hrelay => ⟨op', hsub hop', hrelay⟩
      -- a timer handler that returns at once has not fired
      cases op with
      | requestTimer b =>
          rcases hrequest b rfl with hec | hover
          · rw [timerFires, Option.isNone_eq_false_iff]
            exact hec
          · rw [hbefore, hopen] at hover
            cases hover
      | queueTimer b => rfl
      | _ => cases hop
  | timedOut b _ hop _ hqueued hends =>
      refine .of_over hends.finished ((timeOut_beside.trans hends.beside).noRelay ?_)
      rw [hself, World.deliver_queued] at hqueued
      -- a queued session has nothing of the relay under way
      obtain ⟨-, -, pending, -⟩ := hphase.waiting_of_queued hqueued
      intro op' hop'
      have hop'' := hsub hop'
      rw [pending, List.mem_singleton] at hop''
      rw [hop'']
      rfl
  | expired b _ hop hec hends =>
      -- the request timer has fired, and that is in the history
      refine ⟨fun hopen => ?_, fun _ _ _ _ => ?_⟩
      · rw [hends.finished] at hopen
        cases hopen
      · rw [timerFired_snoc hdelivered, hop, timerFires, hec]
        exact Bool.or_true _
  | read _ hop hrequested =>
      have hidle := (hphase.of_opening hmem (by rw [hop]; rfl)).1
      have hpermit : c.self.permit = none := by rw [hself, World.deliver_permit, hidle.permit]
      refine hrequested.timed (hnil (by rw [hop]; rfl)) hpermit fun hflag => ?_
      refine hs.of_same hdelivered (hflag.trans hbefore) (fun _ => by rw [hop]; rfl) fun hover => ?_
      exact absurd (hidle.finished.symm.trans hover) Bool.false_ne_true
  | wroteText _ hop => exact .of_over rfl (hnil (by rw [hop]; rfl))
  | wroteError response hop =>
      exact hs.of_same hdelivered hbefore (fun _ => by rw [hop]; rfl)
        fun _ op' hop' hrelay => ⟨op', hsub hop', hrelay⟩
  | ended _ _ _ hrelay _ hobserves hends =>
      refine .of_over hends.finished ((hobserves.beside.trans hends.beside).noRelay ?_)
      rw [hself]
      exact not_relay_of_relay hphase hmem hrelay r
  | relayed c₁ next hrelay =>
      exact hs.of_same hdelivered (hrelay.prepares.finished.trans hbefore)
        (fun _ => timerFires_of_relay hrelay.isRelay.1 r)
        fun _ _ _ _ => ⟨op, hmem, hrelay.isRelay.1⟩

end Context

namespace Outcome

theorem isData_of_endsBody {r : Outcome} (h : r.endsBody = true) : r.isData = false := by
  have hends := endsRelay_of_endsBody h
  rw [endsRelay, Bool.and_eq_true, Bool.not_eq_true', Bool.not_eq_true'] at hends
  exact hends.2

theorem fillsBuffer_of_endsBody {r : Outcome} (h : r.endsBody = true) : r.fillsBuffer = false := by
  rw [endsBody, Bool.and_eq_true, Bool.not_eq_true'] at h
  exact h.1

end Outcome

namespace ProxySession

variable {s s' : ProxySession} {op : Op} {r : Outcome}

/-- Nothing is decided while the relay goes on and the timer has not fired. -/
theorem find?_decides_eq_none (hopen : s.bodyReads.any Outcome.endsRelay = false)
    (htimer : s.timerFired = false) : s.delivered.find? decides = none := by
  apply List.find?_eq_none.mpr
  rintro ⟨op, r⟩ hmem hdecides
  have hquiet := List.any_eq_false.mp htimer _ hmem
  by_cases hop : op = .readBody
  · obtain rfl := hop
    have hread : r ∈ s.bodyReads := List.mem_filterMap.mpr ⟨_, hmem, rfl⟩
    exact List.any_eq_false.mp hopen r hread (Outcome.endsRelay_of_endsBody hdecides)
  · cases op <;> first | exact hquiet hdecides | exact hop rfl

theorem any_endsRelay_of_bodyEnded (h : s.bodyEnded = true) :
    s.bodyReads.any Outcome.endsRelay = true := by
  unfold bodyEnded at h
  obtain ⟨⟨op, r⟩, hfind, hop⟩ := Option.any_eq_true _ _ |>.mp h
  obtain rfl : op = .readBody := of_decide_eq_true hop
  have hmem : (Op.readBody, r) ∈ s.delivered := List.mem_of_find?_eq_some hfind
  have hdecides : decides (.readBody, r) = true := List.find?_some hfind
  exact List.any_eq_true.mpr ⟨r, List.mem_filterMap.mpr ⟨_, hmem, rfl⟩,
    Outcome.endsRelay_of_endsBody hdecides⟩

theorem bodyEnded_snoc (hdelivered : s'.delivered = s.delivered ++ [(op, r)]) :
    s'.bodyEnded = if s.delivered.find? decides = none then
      decide (op = .readBody) && decides (op, r) else s.bodyEnded := by
  unfold bodyEnded
  rw [hdelivered, List.find?_append]
  cases hfind : s.delivered.find? decides with
  | none =>
      rw [if_pos rfl, Option.none_or]
      cases hdecides : decides (op, r) with
      | true => simp [hdecides]
      | false => simp [hdecides]
  | some completion => rfl

end ProxySession

namespace World

variable {config : ProxyConfig} {server : ProxyServer} {w w' : World} {body : Nat → Bytes}

/-- Beast reports the end of a body when all of it was copied. -/
def endsWhole (body : Nat → Bytes) (w : World) : Event → Bool
  | .complete i .readBody r => (w.lock i).all fun s =>
      !r.endsBody || s.received ++ r.copied = body i
  | _ => true

/-- The body of a running session ends with a read that has copied bytes. -/
def endsWithBytes (w : World) : Event → Bool
  | .complete i .readBody r => r.endsBody && !r.copied.isEmpty && (w.lock i).any fun s =>
      !s.finished && !s.bodyReads.any Outcome.fillsBuffer
  | _ => false

/-- What keeps the deliveries whole from one step to the next. -/
structure Ending (body : Nat → Bytes) (w : World) : Prop where
  sound : w.Sound
  relays : ∀ (i : Nat) (s : ProxySession), w.sessions[i]? = some s → s.Relays
  timed : ∀ (i : Nat) (s : ProxySession), w.sessions[i]? = some s → s.Timed
  whole : ∀ (i : Nat) (s : ProxySession), w.sessions[i]? = some s → s.WholeBody (body i)

theorem timed_keptQuietly : KeptQuietly fun _ => Timed := by
  constructor
  case created =>
    intro _ sseParser _
    exact ⟨fun _ => rfl, fun h => (nomatch h)⟩
  case closed => exact fun _ s hs => ⟨hs.running, hs.ended⟩
  case enqueued =>
    intro _ s idle _ hs
    exact ⟨hs.running, fun h => absurd (idle.finished.symm.trans h) Bool.false_ne_true⟩
  case promoted =>
    intro _ s host service clock idle _ hs
    exact ⟨hs.running, fun h => absurd (idle.finished.symm.trans h) Bool.false_ne_true⟩
  case destroyed => exact fun _ s hs => ⟨hs.running, hs.ended⟩

theorem whole_keptQuietly : KeptQuietly fun i s => s.WholeBody (body i) := by
  have hkeep {s s' : ProxySession} {b : Bytes} (hs : s.WholeBody b)
      (hforwarded : s'.forwarded = s.forwarded) (hdelivered : s'.delivered = s.delivered) :
      s'.WholeBody b := by
    intro hfills hended
    rw [hforwarded]
    refine hs ?_ ?_
    · unfold bodyReads at hfills ⊢
      exact hdelivered ▸ hfills
    · unfold bodyEnded at hended ⊢
      exact hdelivered ▸ hended
  constructor
  case created => exact fun _ _ _ _ hended => (nomatch hended)
  case closed =>
    exact fun _ s hs => hkeep hs (forwarded_of_calls [.closeClient] rfl
      (by simp [payload])) rfl
  case enqueued =>
    intro _ s _ _ hs
    refine hkeep hs ?_ rfl
    rw [forwarded_start]
    exact List.append_nil _
  case promoted =>
    intro _ s host service clock _ _ hs
    refine hkeep hs ?_ rfl
    unfold startedFromQueue
    rw [forwarded_start, forwarded_start]
    exact (List.append_nil _).trans (List.append_nil _)
  case destroyed => exact fun _ _ hs => hs

/-- When the body of a running session ends, nothing has been lost before. -/
theorem received_of_end {s : ProxySession} (hrelays : s.Relays) (hmem : .readBody ∈ s.pending)
    (hfills : s.bodyReads.any Outcome.fillsBuffer = false) : s.forwarded = s.received := by
  apply hrelays.forwarded_eq (hrelays.open_of_mem hmem rfl).1
  apply List.any_eq_false.mpr
  intro r hread hloses
  rw [Outcome.losesBytes, Bool.and_eq_true] at hloses
  exact List.any_eq_false.mp hfills r hread hloses.1

theorem Advances.wholeBody {s s' : ProxySession} {op : Op} {r : Outcome} {b : Bytes}
    (h : Advances s op r s') (hdelivered : s'.delivered = s.delivered ++ [(op, r)])
    (hrelays : s.Relays) (htimed : s.Timed) (hmem : op ∈ s.pending)
    (hwhole : op = .readBody → r.endsBody = true → s.received ++ r.copied = b)
    (hok : op = .readBody → r.endsBody = true → s.finished = false →
      s.bodyReads.any Outcome.fillsBuffer = false → r.copied = [])
    (hs : s.WholeBody b) : s'.WholeBody b := by
  intro hfills hended
  rw [h.bodyReads, List.any_append, Bool.or_eq_false_iff] at hfills
  rw [bodyEnded_snoc hdelivered] at hended
  rw [h.forwarded]
  by_cases hop : op = .readBody
  · obtain rfl := hop
    have hopen := (hrelays.open_of_mem hmem rfl).1
    split at hended
    · rename_i hnone
      rw [Bool.and_eq_true] at hended
      have hends : r.endsBody = true := hended.2
      -- were the session finished, its timer would have fired
      have hrunning : s.finished = false := by
        apply Bool.eq_false_iff.mpr
        intro hover
        obtain ⟨completion, hfired, hfires⟩ := List.any_eq_true.mp (htimed.ended hover _ hmem rfl)
        refine List.find?_eq_none.mp hnone completion hfired ?_
        obtain ⟨op, r⟩ := completion
        cases op <;> first | exact hfires | cases hfires
      have hcopied := hok rfl hends hrunning hfills.1
      have hbody := hwhole rfl hends
      rw [hcopied, List.append_nil] at hbody
      rw [if_neg (by simp [Outcome.isData_of_endsBody hends]), List.append_nil,
        received_of_end hrelays hmem hfills.1, hbody]
    · exact absurd ((any_endsRelay_of_bodyEnded hended).symm.trans hopen) (by decide)
  · rw [if_neg (fun hboth => hop hboth.1), List.append_nil]
    apply hs hfills.1
    split at hended
    · rw [decide_eq_false hop] at hended
      cases hended
    · exact hended

theorem Ending.step {e : Event} (h : Ending body w) (hasm : endsWhole body w e = true)
    (hok : endsWithBytes w e = false) (hstep : World.step w e = some w') : Ending body w' := by
  refine ⟨h.sound.step hstep, relays_step h.sound hstep h.relays,
    timed_keptQuietly.step h.sound hstep h.timed ?_,
    whole_keptQuietly.step h.sound hstep h.whole ?_⟩
  · rintro i op r s - hlock hmem hdeliverable
    obtain ⟨hget, -⟩ := lock_eq_some.mp hlock
    exact (handle_handled op r (w.context i (deliver s op r))).timed (h.sound.phase i s hget) rfl
      hmem (complete_delivered h.sound hlock hmem) (h.timed i s hget)
  · rintro i op r s rfl hlock hmem hdeliverable
    obtain ⟨hget, -⟩ := lock_eq_some.mp hlock
    refine (complete_advances h.sound h.relays hlock hmem hdeliverable).wholeBody
      (complete_delivered h.sound hlock hmem) (h.relays i s hget) (h.timed i s hget) hmem ?_ ?_
      (h.whole i s hget)
    · rintro rfl hends
      rw [endsWhole, hlock, Option.all_some, hends] at hasm
      simpa using hasm
    · rintro rfl hends hrunning hfills
      rw [endsWithBytes, hlock, Option.any_some, hends, hrunning, hfills] at hok
      simpa using hok

/-- The bytes of the read that ends the body are not passed on. -/
theorem endsWithBytes_breaks {e : Event} (h : Ending body w) (hasm : endsWhole body w e = true)
    (hbad : endsWithBytes w e = true) (hstep : World.step w e = some w') :
    ¬ ∀ (i : Nat) (s : ProxySession), w'.sessions[i]? = some s → s.WholeBody (body i) := by
  unfold endsWithBytes at hbad
  split at hbad
  · rename_i i r
    obtain ⟨s, hlock, hmem, hdeliverable, rfl⟩ := complete_eq_some hstep
    simp only [hlock, Option.any_some, Bool.and_eq_true, Bool.not_eq_true',
      List.isEmpty_eq_false_iff] at hbad
    obtain ⟨⟨hends, hcopied⟩, hrunning, hfills⟩ := hbad
    rw [endsWhole, hlock, Option.all_some, hends, Bool.not_true, Bool.false_or] at hasm
    have hbody : s.received ++ r.copied = body i := of_decide_eq_true hasm
    obtain ⟨hget, -⟩ := lock_eq_some.mp hlock
    have hrelays := h.relays i s hget
    have hadvances := complete_advances h.sound h.relays hlock hmem hdeliverable
    have hid : ((w.context i (deliver s .readBody r)).handle .readBody r).id = i :=
      (handle_handled .readBody r (w.context i (deliver s .readBody r))).frame.id
    have hnew := put_getElem? (w := w) (by rw [hid]; exact hget) i
    rw [if_pos hid] at hnew
    intro hwhole
    have hforwarded := hwhole i _ hnew ?_ ?_
    · rw [hadvances.forwarded, if_neg (by simp [Outcome.isData_of_endsBody hends]),
        List.append_nil, received_of_end hrelays hmem hfills, ← hbody] at hforwarded
      exact hcopied (List.append_right_eq_self.mp hforwarded.symm)
    · rw [hadvances.bodyReads, List.any_append, hfills]
      simp [bodyRead, Outcome.fillsBuffer_of_endsBody hends]
    · rw [bodyEnded_snoc (complete_delivered h.sound hlock hmem), if_pos]
      · simpa [decides] using hends
      · exact find?_decides_eq_none (hrelays.open_of_mem hmem rfl).1
          ((h.timed i s hget).running hrunning)
  · cases hbad

theorem Ending.init (hcreate : ProxyServer.create config = .ok server) :
    Ending body (World.init server) :=
  ⟨Sound.init hcreate, fun _ _ hi => (nomatch hi), fun _ _ hi => (nomatch hi),
    fun _ _ hi => (nomatch hi)⟩

/-- In every state of a run each client whose upstream body has ended was sent all of it, exactly
when every read that ends the body of a running session in the run has copied no bytes. -/
theorem wholeBody_iff (body : Nat → Bytes) {events : List Event}
    (hcreate : ProxyServer.create config = .ok server)
    (hrun : run World.step (World.init server) events = some w)
    (hends : Meets World.step (fun w e => endsWhole body w e = true) (World.init server) events) :
    Always World.step (fun w => ∀ (i : Nat) (s : ProxySession), w.sessions[i]? = some s →
        s.WholeBody (body i)) (World.init server) events ↔
      Meets World.step (fun w e => endsWithBytes w e = false) (World.init server) events := by
  refine always_iff_meets_of hrun hends (Ending.init hcreate) (fun _ h => h.whole)
    (fun _ _ _ h hasm hok hstep => h.step hasm hok hstep)
    fun _ _ _ h hasm hbad hstep => ?_
  exact endsWithBytes_breaks h hasm (by simpa using hbad) hstep

/-- A body whose length is known ends in the read that copies its last bytes. -/
def endInLastRead : List Event := toFirstRead ++
  [.complete 0 .readBody { copied := [97], isDone := true }]

theorem wholeBody_endInLastRead :
    Meets World.step (fun w e => endsWhole (fun _ => [97]) w e = true)
        (World.init oneSlotServer) endInLastRead ∧
      (run World.step (World.init oneSlotServer) endInLastRead).map
        (fun w => w.sessions.map fun s =>
          (s.finished, s.bodyEnded, decide (s.forwarded = [97]))) = some [(true, true, false)] := by
  decide +kernel

/-- A body that is delimited by the end of the connection ends in a read of its own. -/
def endAfterLastRead : List Event := toFirstRead ++
  [.complete 0 .readBody { copied := [97] }, .complete 0 (.writeBody [97] false) {},
    .complete 0 .readBody { ec := some .endOfStream }]

theorem wholeBody_endAfterLastRead :
    Always World.step (fun w => ∀ (i : Nat) (s : ProxySession), w.sessions[i]? = some s →
      s.WholeBody [97]) (World.init oneSlotServer) endAfterLastRead :=
  have hrun : (run World.step (World.init oneSlotServer) endAfterLastRead).isSome = true := by
    decide
  (wholeBody_iff (fun _ => [97]) oneSlotServer_create
    (Option.some_get hrun).symm (by decide)).mpr (by decide)

end World

end VllmSloProxy
