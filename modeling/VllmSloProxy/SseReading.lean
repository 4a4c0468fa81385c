import VllmSloProxy.SseParser

/-!
# What a byte stream says as server-sent events

The reading of a whole byte stream, without parser state: lines, blocks of lines ended by an empty
line, and one event for each ended block with a data line.  The incremental parser gives exactly
this reading, however the stream is cut into chunks.
-/

namespace VllmSloProxy

open Delimited

namespace SseReading

/-- The part of the stream up to its last LF as lines, each less one trailing CR. -/
def lines (s : List UInt8) : List (List UInt8) :=
  (s.splitOn LF).dropLast.map fun line => if line.getLast? = some CR then line.dropLast else line

/-- The bytes after the last LF. -/
def tail (s : List UInt8) : List UInt8 := (s.splitOn LF).getLast (List.splitOn_ne_nil LF s)

/-- The text of a line that starts with `data:`, less one leading space. -/
def lineData (line : List UInt8) : Option (List UInt8) :=
  if dataPrefix <+: line then
    let text := line.drop dataPrefix.length
    some (if text.head? = some space then text.tail else text)
  else none

def joinLines (data : List (List UInt8)) : List UInt8 := [LF].intercalate data

/-- The event of a block, if it holds a data line. -/
def blockEvent (block : List (List UInt8)) : Option SseEvent :=
  match block.filterMap lineData with
  | [] => none
  | data => some { data := joinLines data, isDone := joinLines data == doneMarker }

/-- The blocks of lines that are ended by an empty line. -/
def blocks (ls : List (List UInt8)) : List (List (List UInt8)) := (ls.splitOn []).dropLast

def events (s : List UInt8) : List SseEvent := (blocks (lines s)).filterMap blockEvent

end SseReading

open SseReading

theorem joinLines_snoc {data : List (List UInt8)} (h : data ≠ []) (text : List UInt8) :
    joinLines (data ++ [text]) = joinLines data ++ [LF] ++ text := by
  induction data with
  | nil => exact absurd rfl h
  | cons l data ih =>
      cases data with
      | nil => simp [joinLines]
      | cons l' data =>
          have hrec := ih (List.cons_ne_nil l' data)
          simp only [joinLines, List.cons_append, List.intercalate_cons_cons] at hrec ⊢
          rw [hrec]
          simp only [List.append_assoc]

theorem lineData_eq (line : List UInt8) :
    lineData line = if line.length ≥ dataPrefix.length ∧
        line.take dataPrefix.length = dataPrefix then
      some (stripSingleLeadingSpace (line.drop dataPrefix.length)) else none := by
  have hiff : dataPrefix <+: line ↔ line.length ≥ dataPrefix.length ∧
      line.take dataPrefix.length = dataPrefix := by
    rw [List.prefix_iff_eq_take]
    refine ⟨fun h => ⟨?_, h.symm⟩, fun h => h.2.symm⟩
    rw [h, List.length_take]
    omega
  have hstrip : ∀ text : List UInt8,
      (if text.head? = some space then text.tail else text) = stripSingleLeadingSpace text := by
    intro text
    cases text with
    | nil => rfl
    | cons b text => simp [stripSingleLeadingSpace]
  simp only [lineData, hiff, hstrip]

/-- The parser has read the lines of an unfinished block. -/
structure HoldsBlock (p : SseParser) (block : List (List UInt8)) : Prop where
  hasData : p.hasData = !(block.filterMap lineData).isEmpty
  currentData : p.currentData = joinLines (block.filterMap lineData)

theorem HoldsBlock.event {p : SseParser} {block : List (List UInt8)} (h : HoldsBlock p block) :
    blockEvent block = if p.hasData then some p.makeEvent else none := by
  unfold blockEvent SseParser.makeEvent
  rw [h.hasData, h.currentData]
  cases block.filterMap lineData <;> rfl

theorem HoldsBlock.skip {p : SseParser} {block : List (List UInt8)} {line : List UInt8}
    (h : HoldsBlock p block) (hline : lineData line = none) : HoldsBlock p (block ++ [line]) := by
  have hsame : (block ++ [line]).filterMap lineData = block.filterMap lineData := by
    simp [List.filterMap_append, hline]
  exact ⟨by rw [hsame, h.hasData], by rw [hsame, h.currentData]⟩

theorem HoldsBlock.appendDataLine {p p' : SseParser} {block : List (List UInt8)}
    {line text : List UInt8} (h : HoldsBlock p block) (hline : lineData line = some text)
    (happend : p.appendDataLine text = (p', .ok ())) :
    HoldsBlock p' (block ++ [line]) ∧ p'.buffer = p.buffer := by
  have hdata : (block ++ [line]).filterMap lineData = block.filterMap lineData ++ [text] := by
    simp [List.filterMap_append, hline]
  obtain rfl := SseParser.appendDataLine_ok happend
  refine ⟨⟨by rw [hdata]; simp, ?_⟩, rfl⟩
  simp only [hdata, h.currentData, h.hasData]
  cases hb : block.filterMap lineData with
  | nil => simp [joinLines]
  | cons l ls =>
      rw [joinLines_snoc (List.cons_ne_nil l ls)]
      rfl

/-- One line: an empty one ends the block, any other joins it. -/
theorem feedLine_spec {p p' : SseParser} {block : List (List UInt8)} {line : List UInt8}
    {emitted : List SseEvent} (h : HoldsBlock p block)
    (hfeed : p.feedLine line = (p', .ok emitted)) :
    p'.buffer = p.buffer ∧
      if line = [] then HoldsBlock p' [] ∧ emitted = (blockEvent block).toList
      else HoldsBlock p' (block ++ [line]) ∧ emitted = [] := by
  unfold SseParser.feedLine at hfeed
  split at hfeed
  · rename_i hempty
    rw [if_pos hempty, h.event]
    split at hfeed
    · rename_i hdata
      obtain ⟨rfl, hemit⟩ := Prod.mk.inj hfeed
      rw [if_pos hdata]
      exact ⟨rfl, ⟨rfl, rfl⟩, (Except.ok.inj hemit).symm⟩
    · rename_i hdata
      obtain ⟨rfl, hemit⟩ := Prod.mk.inj hfeed
      rw [if_neg hdata]
      refine ⟨rfl, ⟨?_, ?_⟩, (Except.ok.inj hemit).symm⟩
      · simpa using hdata
      · have hnone : block.filterMap lineData = [] := by
          have := h.hasData
          simpa [hdata] using this
        rw [h.currentData, hnone]
        rfl
  · rename_i hline
    rw [if_neg hline]
    split at hfeed
    · rename_i hcomment
      obtain ⟨rfl, hemit⟩ := Prod.mk.inj hfeed
      refine ⟨rfl, h.skip ?_, (Except.ok.inj hemit).symm⟩
      -- a comment starts with a colon, so not with `data:`
      obtain ⟨rest, rfl⟩ : ∃ rest, line = colon :: rest := by
        cases line with
        | nil => exact absurd rfl hline
        | cons b rest => exact ⟨rest, by simpa using hcomment⟩
      rw [lineData, if_neg]
      rintro ⟨rest', heq⟩
      exact absurd (List.cons.inj heq).1 (by decide)
    · split at hfeed
      · rename_i hprefix
        have hdata := lineData_eq line
        rw [if_pos hprefix] at hdata
        split at hfeed
        · cases hfeed
        · rename_i p₁ happend
          obtain ⟨rfl, hemit⟩ := Prod.mk.inj hfeed
          obtain ⟨hholds, hbuffer⟩ := h.appendDataLine hdata happend
          exact ⟨hbuffer, hholds, (Except.ok.inj hemit).symm⟩
      · rename_i hprefix
        obtain ⟨rfl, hemit⟩ := Prod.mk.inj hfeed
        refine ⟨rfl, h.skip ?_, (Except.ok.inj hemit).symm⟩
        rw [lineData_eq, if_neg hprefix]

theorem blocks_eq (ls : List (List UInt8)) : blocks ls = (segments [] ls).1 := dropLast_splitOn ls

theorem lines_eq (s : List UInt8) : lines s = (segments LF s).1.map stripTrailingCr := by
  rw [lines, dropLast_splitOn]
  rfl

theorem tail_eq (s : List UInt8) : tail s = (segments LF s).2 := getLast_splitOn s

/-- The parser after some lines: the events so far are those of the ended blocks, and it holds the
block that is still open. -/
structure ReadLines (p : SseParser) (ls : List (List UInt8)) (emitted : List SseEvent) : Prop where
  openBlock : HoldsBlock p (segments [] ls).2
  events : (blocks ls).filterMap blockEvent = emitted

theorem ReadLines.line {p p' : SseParser} {ls : List (List UInt8)} {line : List UInt8}
    {before emitted : List SseEvent} (h : ReadLines p ls before)
    (hfeed : p.feedLine line = (p', .ok emitted)) :
    ReadLines p' (ls ++ [line]) (before ++ emitted) ∧ p'.buffer = p.buffer := by
  obtain ⟨hbuffer, hspec⟩ := feedLine_spec h.openBlock hfeed
  refine ⟨?_, hbuffer⟩
  have hevents := h.events
  rw [blocks_eq] at hevents
  split at hspec
  · rename_i hempty
    obtain ⟨hholds, rfl⟩ := hspec
    refine ⟨by rw [segments_snoc, if_pos hempty]; exact hholds, ?_⟩
    rw [blocks_eq, segments_snoc, if_pos hempty, List.filterMap_append, hevents]
    cases hblock : blockEvent (segments [] ls).2 <;> simp [hblock]
  · rename_i hempty
    obtain ⟨hholds, rfl⟩ := hspec
    refine ⟨by rw [segments_snoc, if_neg hempty]; exact hholds, ?_⟩
    rw [blocks_eq, segments_snoc, if_neg hempty, List.append_nil, hevents]

-- The loop reads the complete lines of what is left of the buffer, whatever it has read before.
theorem feedLoop_spec {fuel : Nat} {p p' : SseParser} {ls : List (List UInt8)}
    {rest rest' : List UInt8} {before emitted emitted' : List SseEvent}
    (hfuel : rest.length ≤ fuel) (h : ReadLines p ls (before ++ emitted))
    (hloop : SseParser.feedLoop fuel p rest emitted = (p', .ok (emitted', rest'))) :
    ReadLines p' (ls ++ (segments LF rest).1.map stripTrailingCr) (before ++ emitted') ∧
      rest' = (segments LF rest).2 := by
  induction fuel generalizing p ls rest emitted with
  | zero =>
      obtain rfl := List.length_eq_zero_iff.mp (Nat.le_zero.mp hfuel)
      obtain ⟨rfl, hres⟩ := Prod.mk.inj hloop
      obtain ⟨rfl, rfl⟩ := Prod.mk.inj (Except.ok.inj hres)
      exact ⟨by simpa using h, rfl⟩
  | succ fuel ih =>
      unfold SseParser.feedLoop at hloop
      split at hloop
      · rename_i hnone
        obtain ⟨rfl, hres⟩ := Prod.mk.inj hloop
        obtain ⟨rfl, rfl⟩ := Prod.mk.inj (Except.ok.inj hres)
        rw [segments_of_splitFirst_none hnone]
        exact ⟨by simpa using h, rfl⟩
      · rename_i line after hsome
        split at hloop
        · cases hloop
        · rename_i p₁ emitted₁ hline
          have hlen := length_of_splitFirst hsome
          obtain ⟨hread, -⟩ := h.line hline
          rw [List.append_assoc] at hread
          obtain ⟨hread', hrest⟩ := ih (by omega) hread hloop
          rw [segments_of_splitFirst_some hsome]
          exact ⟨by simpa using hread', hrest⟩

/-- A parser that has been fed `s` and has returned `emitted` so far. -/
structure HasRead (p : SseParser) (s : List UInt8) (emitted : List SseEvent) : Prop where
  complete : ReadLines p (lines s) emitted
  pending : p.buffer = tail s

theorem HasRead.feed {p p' : SseParser} {s chunk : List UInt8} {before emitted : List SseEvent}
    (h : HasRead p s before) (hfeed : p.feed chunk = (p', .ok emitted)) :
    HasRead p' (s ++ chunk) (before ++ emitted) := by
  unfold SseParser.feed at hfeed
  split at hfeed
  · cases hfeed
  · extract_lets q at hfeed
    split at hfeed
    · cases hfeed
    · rename_i p₁ events rest hloop
      obtain ⟨rfl, hres⟩ := Prod.mk.inj hfeed
      obtain rfl := Except.ok.inj hres
      have hq : ReadLines q (lines s) (before ++ []) := by
        rw [List.append_nil]
        exact ⟨⟨h.complete.openBlock.hasData, h.complete.openBlock.currentData⟩, h.complete.events⟩
      obtain ⟨hread, hrest⟩ := feedLoop_spec (Nat.le_refl _) hq hloop
      have hbuffer : q.buffer = (segments LF s).2 ++ chunk := by
        rw [← tail_eq, ← h.pending]
      rw [hbuffer] at hread hrest
      constructor
      · rw [lines_eq, segments_append, List.map_append, ← lines_eq]
        exact ⟨⟨hread.openBlock.hasData, hread.openBlock.currentData⟩, hread.events⟩
      · rw [tail_eq, segments_append]
        exact hrest

theorem HasRead.feedAll {p p' : SseParser} {s : List UInt8} {chunks : List (List UInt8)}
    {before emitted : List SseEvent} (h : HasRead p s before)
    (hfeed : p.feedAll chunks = (p', .ok emitted)) :
    HasRead p' (s ++ chunks.flatten) (before ++ emitted) := by
  induction chunks generalizing p s before emitted with
  | nil =>
      obtain ⟨rfl, hres⟩ := Prod.mk.inj hfeed
      obtain rfl := Except.ok.inj hres
      simpa using h
  | cons chunk chunks ih =>
      unfold SseParser.feedAll at hfeed
      split at hfeed
      · cases hfeed
      · rename_i p₁ events₁ hfirst
        split at hfeed
        · cases hfeed
        · rename_i p₂ more hrest
          obtain ⟨rfl, hres⟩ := Prod.mk.inj hfeed
          obtain rfl := Except.ok.inj hres
          have hall := ih (h.feed hfirst) hrest
          simpa using hall

theorem HasRead.fresh {p : SseParser} {maxBufferSize : Nat} {hlt : maxBufferSize < SizeT.modulus}
    (hp : SseParser.create maxBufferSize hlt = .ok p) : HasRead p [] [] := by
  unfold SseParser.create at hp
  split at hp
  · cases hp
  · obtain rfl := Except.ok.inj hp
    exact ⟨⟨⟨rfl, rfl⟩, rfl⟩, rfl⟩

/-- Whatever the size limit and however a byte string is cut into chunks: if no call throws, the
events returned are those of the reading of the whole string, and the bytes after its last LF are
what is pending. -/
theorem feedAll_eq_events {maxBufferSize : Nat} {hlt : maxBufferSize < SizeT.modulus}
    {p p' : SseParser} {chunks : List (List UInt8)} {emitted : List SseEvent}
    (hp : SseParser.create maxBufferSize hlt = .ok p)
    (hfeed : p.feedAll chunks = (p', .ok emitted)) :
    emitted = events chunks.flatten ∧ p'.pendingBytes = (tail chunks.flatten).length := by
  have h := (HasRead.fresh hp).feedAll hfeed
  exact ⟨h.complete.events.symm, congrArg List.length h.pending⟩

/-- `data: [DONE]` cut inside `data:` and between CR and LF, with a comment in front. -/
def doneInPieces : List (List UInt8) :=
  [[0x3a, 0x6b, 0x0a, 0x64, 0x61], [0x74, 0x61, 0x3a, 0x20] ++ doneMarker ++ [CR], [LF, LF, 0x78]]

theorem feedAll_doneInPieces :
    ∃ p p', SseParser.create 64 (by decide) = .ok p ∧
      p.feedAll doneInPieces = (p', .ok [{ data := doneMarker, isDone := true }]) ∧
      events doneInPieces.flatten = [{ data := doneMarker, isDone := true }] ∧
      p'.pendingBytes = 1 := by
  have hfresh : SseParser.create 64 (by decide) =
      .ok (.mk 64 [] [] false (by decide) (by decide)) := rfl
  have hfeed : (SseParser.mk 64 [] [] false (by decide) (by decide)).feedAll doneInPieces =
      (.mk 64 [0x78] [] false (by decide) (by decide),
        .ok [{ data := doneMarker, isDone := true }]) := by rfl
  exact ⟨_, _, hfresh, hfeed, (feedAll_eq_events hfresh hfeed).1.symm, rfl⟩

end VllmSloProxy
