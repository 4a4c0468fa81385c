import VllmSloProxy.SseLimits

/-!
# Writing payloads as server-sent events

The wire forms of a list of payloads, with all the freedom that the format leaves, and what the
parser reads back from them.
-/

namespace VllmSloProxy

open Delimited SseReading

namespace SseEncoding

/-- What can stand on a line. -/
structure IsLine (line : List UInt8) : Prop where
  noLf : LF ∉ line
  noCr : line.getLast? ≠ some CR

/-- A line that carries `text`; the space may be left out when the text does not start with one. -/
inductive DataLine : List UInt8 → List UInt8 → Prop
  | bare {text : List UInt8} (h : text.head? ≠ some space) : DataLine text (dataPrefix ++ text)
  | spaced (text : List UInt8) : DataLine text (dataPrefix ++ space :: text)

/-- A comment, or a line that is no data line and not empty. -/
structure Ignored (line : List UInt8) : Prop where
  isLine : IsLine line
  kind : line.head? = some colon ∨ line ≠ [] ∧ ¬ dataPrefix <+: line

/-- The data lines of each payload, and one or more empty lines after them. -/
inductive EventLines : List (List (List UInt8)) → List (List UInt8) → Prop
  | nil : EventLines [] []
  | cons {texts : List (List UInt8)} {payloads : List (List (List UInt8))}
      {data ls : List (List UInt8)} (n : Nat) (hdata : List.Forall₂ DataLine texts data)
      (hrest : EventLines payloads ls) :
      EventLines (texts :: payloads) (data ++ List.replicate (n + 1) [] ++ ls)

/-- Lines that are ignored are put anywhere between the others. -/
inductive Sprinkled : List (List UInt8) → List (List UInt8) → Prop
  | nil : Sprinkled [] []
  | keep {ls ls' : List (List UInt8)} (line : List UInt8) (hrest : Sprinkled ls ls') :
      Sprinkled (line :: ls) (line :: ls')
  | ignored {ls ls' : List (List UInt8)} {line : List UInt8} (h : Ignored line)
      (hrest : Sprinkled ls ls') : Sprinkled ls (line :: ls')

/-- Each line is ended by LF or by CR and LF. -/
inductive Ended : List (List UInt8) → List UInt8 → Prop
  | nil : Ended [] []
  | lf {ls : List (List UInt8)} {s : List UInt8} (line : List UInt8) (hrest : Ended ls s) :
      Ended (line :: ls) (line ++ LF :: s)
  | crlf {ls : List (List UInt8)} {s : List UInt8} (line : List UInt8) (hrest : Ended ls s) :
      Ended (line :: ls) (line ++ CR :: LF :: s)

/-- The byte string is a wire form of the payloads. -/
def Wire (payloads : List (List (List UInt8))) (s : List UInt8) : Prop :=
  ∃ plain ls, EventLines payloads plain ∧ Sprinkled plain ls ∧ Ended ls s

/-- A payload is a non-empty list of lines. -/
structure IsPayload (texts : List (List UInt8)) : Prop where
  ne_nil : texts ≠ []
  isLine : ∀ text ∈ texts, IsLine text

instance : DecidablePred IsLine := fun line =>
  decidable_of_iff (LF ∉ line ∧ line.getLast? ≠ some CR)
    ⟨fun h => ⟨h.1, h.2⟩, fun h => ⟨h.noLf, h.noCr⟩⟩

instance : DecidablePred IsPayload := fun texts =>
  decidable_of_iff (texts ≠ [] ∧ ∀ text ∈ texts, IsLine text)
    ⟨fun h => ⟨h.1, h.2⟩, fun h => ⟨h.ne_nil, h.isLine⟩⟩

/-- What a payload is read back as. -/
def eventOf (texts : List (List UInt8)) : SseEvent where
  data := joinLines texts
  isDone := joinLines texts == doneMarker

variable {text line : List UInt8} {texts ls ls' data : List (List UInt8)} {s : List UInt8}
  {payloads : List (List (List UInt8))}

theorem DataLine.read (h : DataLine text line) : lineData line = some text := by
  cases h with
  | bare hspace =>
      rw [lineData, if_pos (List.prefix_append _ _), List.drop_left]
      exact congrArg some (if_neg hspace)
  | spaced =>
      rw [lineData, if_pos (List.prefix_append _ _), List.drop_left]
      rfl

theorem DataLine.ne_nil (h : DataLine text line) : line ≠ [] := by
  cases h with
  | bare => exact List.cons_ne_nil _ _
  | spaced => exact List.cons_ne_nil _ _

theorem DataLine.isLine (h : DataLine text line) (htext : IsLine text) : IsLine line := by
  have hprefix : ∀ rest : List UInt8, LF ∉ rest → rest.getLast? ≠ some CR →
      IsLine (dataPrefix ++ rest) := by
    intro rest hlf hcr
    refine ⟨?_, ?_⟩
    · rw [List.mem_append, not_or]
      exact ⟨by decide, hlf⟩
    · rw [List.getLast?_append]
      cases hlast : rest.getLast? with
      | none => decide
      | some b => rwa [hlast] at hcr
  cases h with
  | bare => exact hprefix text htext.noLf htext.noCr
  | spaced =>
      refine hprefix (space :: text) ?_ ?_
      · rw [List.mem_cons, not_or]
        exact ⟨by decide, htext.noLf⟩
      · rw [List.getLast?_cons]
        cases hlast : text.getLast? with
        | none => decide
        | some b =>
            have hcr := htext.noCr
            rwa [hlast] at hcr

theorem Ignored.read (h : Ignored line) : line ≠ [] ∧ lineData line = none := by
  rcases h.kind with hcolon | ⟨hne, hprefix⟩
  · refine ⟨?_, if_neg ?_⟩
    · rintro rfl
      cases hcolon
    · rintro ⟨rest, rfl⟩
      exact absurd (Option.some.inj hcolon) (by decide)
  · exact ⟨hne, if_neg hprefix⟩

theorem stripTrailingCr_of_noCr (h : line.getLast? ≠ some CR) : stripTrailingCr line = line :=
  if_neg h

theorem stripTrailingCr_snoc (line : List UInt8) : stripTrailingCr (line ++ [CR]) = line := by
  rw [stripTrailingCr, if_pos List.getLast?_concat, List.dropLast_concat]

/-- Lines are read back whatever their ends. -/
theorem Ended.read (h : Ended ls s) (hls : ∀ line ∈ ls, IsLine line) :
    lines s = ls ∧ tail s = [] := by
  induction h with
  | nil => exact ⟨rfl, rfl⟩
  | @lf ls s line hrest ih =>
      obtain ⟨hline, hls⟩ := List.forall_mem_cons.mp hls
      obtain ⟨hlines, htail⟩ := ih hls
      have hsplit := splitFirst_append hline.noLf s
      rw [SseParser.lines_of_splitFirst hsplit, hlines, stripTrailingCr_of_noCr hline.noCr]
      rw [tail_eq] at htail ⊢
      rw [segments_of_splitFirst_some hsplit]
      exact ⟨rfl, htail⟩
  | @crlf ls s line hrest ih =>
      obtain ⟨hline, hls⟩ := List.forall_mem_cons.mp hls
      obtain ⟨hlines, htail⟩ := ih hls
      -- the LF is found behind the CR, which is then stripped
      have hnoLf : LF ∉ line ++ [CR] := by
        rw [List.mem_append, not_or]
        exact ⟨hline.noLf, by decide⟩
      have hsplit := splitFirst_append hnoLf s
      rw [List.append_assoc, List.singleton_append] at hsplit
      rw [SseParser.lines_of_splitFirst hsplit, hlines, stripTrailingCr_snoc]
      rw [tail_eq] at htail ⊢
      rw [segments_of_splitFirst_some hsplit]
      exact ⟨rfl, htail⟩

/-- A data text joins the first event, which may be the unfinished one. -/
def joinFirst (texts : List (List UInt8)) :
    List (List (List UInt8)) × List (List UInt8) → List (List (List UInt8)) × List (List UInt8)
  | ([], rest) => ([], texts ++ rest)
  | (first :: events, rest) => ((texts ++ first) :: events, rest)

/-- The texts of the ended events and those of the unfinished one. -/
def eventTexts (ls : List (List UInt8)) : List (List (List UInt8)) × List (List UInt8) :=
  ((segments [] ls).1.map (·.filterMap lineData), (segments [] ls).2.filterMap lineData)

theorem eventTexts_nil_cons (ls : List (List UInt8)) :
    eventTexts ([] :: ls) = ([] :: (eventTexts ls).1, (eventTexts ls).2) := by
  rw [eventTexts, segments_cons_self]
  rfl

theorem eventTexts_cons (hne : line ≠ []) (ls : List (List UInt8)) :
    eventTexts (line :: ls) = joinFirst (lineData line).toList (eventTexts ls) := by
  unfold eventTexts
  rw [segments_cons_of_ne hne]
  cases (segments [] ls).1 with
  | nil => cases hline : lineData line <;> simp [joinFirst, hline]
  | cons => cases hline : lineData line <;> simp [joinFirst, hline]

theorem joinFirst_nil (events : List (List (List UInt8)) × List (List UInt8)) :
    joinFirst [] events = events := by
  rcases events with ⟨_ | _, _⟩ <;> rfl

theorem Sprinkled.eventTexts_eq (h : Sprinkled ls ls') : eventTexts ls' = eventTexts ls := by
  induction h with
  | nil => rfl
  | keep line hrest ih =>
      by_cases hne : line = []
      · rw [hne, eventTexts_nil_cons, eventTexts_nil_cons, ih]
      · rw [eventTexts_cons hne, eventTexts_cons hne, ih]
  | ignored h hrest ih =>
      rw [eventTexts_cons h.read.1, h.read.2, Option.toList_none, joinFirst_nil, ih]

-- The data lines of one payload, up to the first empty line.
theorem eventTexts_data (hdata : List.Forall₂ DataLine texts data) (more : List (List UInt8)) :
    eventTexts (data ++ [] :: more) =
      (texts :: (eventTexts more).1, (eventTexts more).2) := by
  induction hdata with
  | nil => exact eventTexts_nil_cons more
  | cons hline hrest ih =>
      rw [List.cons_append, eventTexts_cons hline.ne_nil, ih, hline.read]
      rfl

theorem eventTexts_empty (n : Nat) (ls : List (List UInt8)) :
    eventTexts (List.replicate n [] ++ ls) =
      (List.replicate n [] ++ (eventTexts ls).1, (eventTexts ls).2) := by
  induction n with
  | zero => rfl
  | succ n ih =>
      rw [List.replicate_succ, List.cons_append, eventTexts_nil_cons, ih]
      rfl

/-- Each payload is the text of one event; the other events, between empty lines, have none. -/
theorem EventLines.eventTexts_eq (h : EventLines payloads ls)
    (hpayloads : ∀ texts ∈ payloads, IsPayload texts) :
    (eventTexts ls).1.filter (· ≠ []) = payloads ∧ (eventTexts ls).2 = [] := by
  induction h with
  | nil => exact ⟨rfl, rfl⟩
  | cons n hdata hrest ih =>
      obtain ⟨hpayload, hpayloads⟩ := List.forall_mem_cons.mp hpayloads
      obtain ⟨hevents, hopen⟩ := ih hpayloads
      rw [List.append_assoc, List.replicate_succ, List.cons_append, eventTexts_data hdata,
        eventTexts_empty]
      refine ⟨?_, hopen⟩
      rw [List.filter_cons_of_pos (by simpa using hpayload.ne_nil), List.filter_append, hevents]
      simp

/-- An event with a data line is reported. -/
theorem filterMap_blockEvent (ls : List (List UInt8)) :
    (blocks ls).filterMap blockEvent = ((eventTexts ls).1.filter (· ≠ [])).map eventOf := by
  rw [blocks_eq]
  unfold eventTexts
  generalize (segments [] ls).1 = bs
  induction bs with
  | nil => rfl
  | cons b bs ih =>
      have hb : blockEvent b = if b.filterMap lineData ≠ [] then
          some (eventOf (b.filterMap lineData)) else none := by
        unfold blockEvent
        cases b.filterMap lineData <;> rfl
      rw [List.filterMap_cons, hb, List.map_cons]
      dsimp only at ih ⊢
      by_cases hnone : b.filterMap lineData = []
      · -- an event between two empty lines has no data and is not reported
        rw [if_neg (not_not.mpr hnone), List.filter_cons_of_neg (by simpa using hnone), ih]
      · rw [if_pos hnone, List.filter_cons_of_pos (by simpa using hnone), ih, List.map_cons]

theorem isLine_data (hdata : List.Forall₂ DataLine texts data)
    (htexts : ∀ text ∈ texts, IsLine text) : ∀ line ∈ data, IsLine line := by
  induction hdata with
  | nil => exact fun _ hline => absurd hline List.not_mem_nil
  | cons hline hrest ih =>
      obtain ⟨htext, htexts⟩ := List.forall_mem_cons.mp htexts
      exact List.forall_mem_cons.mpr ⟨hline.isLine htext, ih htexts⟩

theorem EventLines.isLine (h : EventLines payloads ls)
    (hpayloads : ∀ texts ∈ payloads, IsPayload texts) : ∀ line ∈ ls, IsLine line := by
  induction h with
  | nil => exact fun _ hline => absurd hline List.not_mem_nil
  | @cons texts payloads data ls n hdata hrest ih =>
      obtain ⟨hpayload, hpayloads⟩ := List.forall_mem_cons.mp hpayloads
      intro line hline
      rcases List.mem_append.mp hline with hline | hline
      · rcases List.mem_append.mp hline with hline | hline
        · exact isLine_data hdata hpayload.isLine line hline
        · rw [List.eq_of_mem_replicate hline]
          exact ⟨List.not_mem_nil, nofun⟩
      · exact ih hpayloads line hline

theorem Sprinkled.isLine (h : Sprinkled ls ls') (hls : ∀ line ∈ ls, IsLine line) :
    ∀ line ∈ ls', IsLine line := by
  induction h with
  | nil => exact hls
  | keep line hrest ih =>
      obtain ⟨hline, hls⟩ := List.forall_mem_cons.mp hls
      exact List.forall_mem_cons.mpr ⟨hline, ih hls⟩
  | ignored h hrest ih => exact List.forall_mem_cons.mpr ⟨h.isLine, ih hls⟩

end SseEncoding

open SseEncoding

theorem length_stripSingleLeadingSpace (text : List UInt8) :
    (stripSingleLeadingSpace text).length ≤ text.length := by
  unfold stripSingleLeadingSpace
  split
  · exact Nat.le_refl _
  · split
    · exact Nat.le_succ _
    · exact Nat.le_refl _

theorem length_lineData (h : lineData line = some text) : text.length < line.length := by
  rw [lineData_eq] at h
  split at h
  · rename_i hprefix
    obtain rfl := Option.some.inj h
    have hstrip := length_stripSingleLeadingSpace (line.drop dataPrefix.length)
    have hpos : 0 < dataPrefix.length := by decide
    rw [List.length_drop] at hstrip
    omega
  · cases h

theorem length_stripTrailingCr (line : List UInt8) :
    (stripTrailingCr line).length ≤ line.length := by
  unfold stripTrailingCr
  split
  · rw [List.length_dropLast]
    exact Nat.sub_le _ _
  · exact Nat.le_refl _

/-- A byte string no longer than the limit has no event whose data is. -/
theorem fits_of_length {limit : Nat} {texts ls : List (List UInt8)}
    (h : (joinLines texts).length + (ls.map fun line => line.length + 1).sum ≤ limit) :
    Fits limit texts ls := by
  induction ls generalizing texts with
  | nil => exact h
  | cons line ls ih =>
      rw [List.map_cons, List.sum_cons] at h
      refine ⟨by omega, ih ?_⟩
      unfold holdNext
      by_cases hne : line = []
      · rw [if_pos hne]
        have hnone : (joinLines []).length = 0 := rfl
        omega
      · rw [if_neg hne]
        cases hline : lineData line with
        | none =>
            rw [Option.toList_none, List.append_nil]
            omega
        | some text =>
            have hshorter := length_lineData hline
            rw [Option.toList_some, length_joinLines_snoc]
            have hone : (if texts = [] then 0 else 1) ≤ 1 := by split <;> omega
            omega

theorem sum_lines_le (s : List UInt8) :
    ((lines s).map fun line => line.length + 1).sum ≤ s.length := by
  have hstripped : ∀ segs : List (List UInt8),
      ((segs.map stripTrailingCr).map fun line => line.length + 1).sum ≤
        (segs.map fun line => line.length + 1).sum := by
    intro segs
    induction segs with
    | nil => exact Nat.le_refl _
    | cons line segs ih =>
        have hline := length_stripTrailingCr line
        simp only [List.map_cons, List.sum_cons]
        omega
  have hlength := length_segments (d := LF) s
  rw [lines_eq]
  exact Nat.le_trans (hstripped _) (by omega)

/-- Parsers of one limit with one buffer are the same when neither holds a data line. -/
theorem eq_of_idle {p p' : SseParser} (h : HoldsTexts p texts) (h' : HoldsTexts p' [])
    (hbuffer : p.buffer = p'.buffer) (hlimit : p.maxBufferSize = p'.maxBufferSize)
    (hidle : texts = []) : p = p' := by
  rw [hidle] at h
  have hdata : p.hasData = p'.hasData := h.hasData.trans h'.hasData.symm
  have hcurrent : p.currentData = p'.currentData := h.currentData.trans h'.currentData.symm
  cases p
  cases p'
  simp only [SseParser.mk.injEq]
  exact ⟨hlimit, hbuffer, hcurrent, hdata⟩

namespace SseEncoding

/-- A fresh parser whose limit is at least the length of a wire form reads the payloads back from
it, each as the data of one event, and is then as it was. -/
theorem feed_wire {maxBufferSize : Nat} {hlt : maxBufferSize < SizeT.modulus} {p : SseParser}
    (hp : SseParser.create maxBufferSize hlt = .ok p)
    (hpayloads : ∀ texts ∈ payloads, IsPayload texts) (hwire : Wire payloads s)
    (hlength : s.length ≤ maxBufferSize) :
    p.feed s = (p, .ok (payloads.map eventOf)) := by
  obtain ⟨plain, ls, hevents, hsprinkled, hended⟩ := hwire
  obtain ⟨hlines, htail⟩ :=
    hended.read (hsprinkled.isLine (hevents.isLine hpayloads))
  obtain ⟨hread, hopen⟩ := hevents.eventTexts_eq hpayloads
  rw [← hsprinkled.eventTexts_eq, ← hlines] at hread hopen
  have hlimit := SseParser.create_maxBufferSize hp
  have hfresh := HasRead.fresh hp
  have hfits : Fits p.maxBufferSize [] (lines s) := by
    apply fits_of_length
    -- no event can have more data than the whole wire form has bytes
    have hsum := sum_lines_le s
    have hnone : (joinLines []).length = 0 := rfl
    omega
  -- neither limit is exceeded
  have hthrows := mt (hfresh.feed_error_iff (Nat.zero_le _) s).mp fun hover => by
    rcases hover with hraw | hdata
    · have hnone : (tail []).length = 0 := rfl
      omega
    · exact hdata hfits
  cases hresult : (p.feed s).2 with
  | error e => exact absurd ⟨e, hresult⟩ hthrows
  | ok emitted =>
      have hafter := hfresh.feed (Prod.ext rfl hresult)
      rw [List.nil_append, List.nil_append] at hafter
      have hemitted : emitted = payloads.map eventOf := by
        rw [← hafter.complete.events, filterMap_blockEvent, hread]
      -- the last line is ended, so neither bytes nor data lines are left over
      have hsame : (p.feed s).1 = p := by
        apply eq_of_idle hafter.holdsTexts hfresh.holdsTexts
        · rw [hafter.pending, htail, hfresh.pending]
          rfl
        · exact SseParser.feed_maxBufferSize p s
        · rw [foldl_holdNext]
          exact hopen
      rw [← hemitted]
      exact Prod.ext hsame hresult

def sixtyFourBytes : SseParser :=
  { maxBufferSize := 64, maxBufferSize_pos := by decide, maxBufferSize_lt := by decide }

/-- A payload of a line `a`, an empty line and a line with a leading space, then `[DONE]`. -/
def samplePayloads : List (List (List UInt8)) := [[[0x61], [], [space, 0x62]], [doneMarker]]

/-- With both line ends, a comment inside the first event, a field that is ignored and two empty
lines after the last event. -/
def sampleWire : List UInt8 :=
  dataPrefix ++ [0x61, LF] ++ [colon, CR, LF] ++ dataPrefix ++ [CR, LF] ++
    dataPrefix ++ [space, space, 0x62, LF] ++ [CR, LF] ++
    [0x69, 0x64, LF] ++ dataPrefix ++ [space] ++ doneMarker ++ [LF, LF, CR, LF]

theorem wire_sample : Wire samplePayloads sampleWire := by
  have hcomment : Ignored [colon] := ⟨by decide, .inl rfl⟩
  have hfield : Ignored [0x69, 0x64] := ⟨by decide, .inr (by decide)⟩
  have hfirst : List.Forall₂ DataLine [[0x61], [], [space, 0x62]] _ :=
    .cons (.bare (by decide)) (.cons (.bare (by decide)) (.cons (.spaced [space, 0x62]) .nil))
  have hdone : List.Forall₂ DataLine [doneMarker] _ := .cons (.spaced doneMarker) .nil
  refine ⟨_, _, .cons 0 hfirst (.cons 1 hdone .nil), .keep _ (.ignored hcomment (.keep _ (.keep _
    (.keep _ (.ignored hfield (.keep _ (.keep _ (.keep _ .nil)))))))), ?_⟩
  exact .lf _ (.crlf _ (.crlf _ (.lf _ (.crlf _ (.lf _ (.lf _ (.lf _ (.crlf _ .nil))))))))

theorem feed_wire_sample :
    sixtyFourBytes.feed sampleWire = (sixtyFourBytes, .ok (samplePayloads.map eventOf)) := by
  have hfresh : SseParser.create 64 (by decide) = .ok sixtyFourBytes := rfl
  exact feed_wire hfresh (by decide) wire_sample (by decide)

end SseEncoding

end VllmSloProxy
