import VllmSloProxy.SseReading

/-!
# When the SSE parser throws

A `feed` call throws when the chunk does not fit next to the unconsumed tail, before anything is
parsed, or when a data line would make the data of its event too long.  The second cause is a matter
of the byte string, the first one also of how it has been cut.
-/

namespace VllmSloProxy

open Delimited SseReading

/-- The texts of the data lines that the event has so far, after one more line. -/
def holdNext (held : List (List UInt8)) (line : List UInt8) : List (List UInt8) :=
  if line = [] then [] else held ++ (lineData line).toList

/-- The data of no event grows beyond the limit, the one to which `held` belongs included. -/
def Fits (limit : Nat) : List (List UInt8) → List (List UInt8) → Prop
  | held, [] => (joinLines held).length ≤ limit
  | held, line :: ls => (joinLines held).length ≤ limit ∧ Fits limit (holdNext held line) ls

variable {limit : Nat} {texts : List (List UInt8)} {ls ms : List (List UInt8)}
  {line text : List UInt8} {p p' : SseParser}

theorem Fits.first (h : Fits limit texts ls) : (joinLines texts).length ≤ limit := by
  cases ls with
  | nil => exact h
  | cons line ls => exact h.1

theorem fits_append :
    Fits limit texts (ls ++ ms) ↔
      Fits limit texts ls ∧ Fits limit (ls.foldl holdNext texts) ms := by
  induction ls generalizing texts with
  | nil => exact ⟨fun h => ⟨h.first, h⟩, And.right⟩
  | cons line ls ih =>
      rw [List.cons_append, Fits, Fits, ih, and_assoc]
      rfl

theorem length_joinLines_snoc (texts : List (List UInt8)) (text : List UInt8) :
    (joinLines (texts ++ [text])).length =
      (joinLines texts).length + (if texts = [] then 0 else 1) + text.length := by
  by_cases htexts : texts = []
  · rw [htexts, if_pos rfl]
    simp [joinLines]
  · rw [joinLines_snoc htexts, if_neg htexts, List.length_append, List.length_append]
    rfl

/-- The parser holds the data lines of an unfinished event. -/
structure HoldsTexts (p : SseParser) (texts : List (List UInt8)) : Prop where
  hasData : p.hasData = !texts.isEmpty
  currentData : p.currentData = joinLines texts

theorem HoldsBlock.holdsTexts {block : List (List UInt8)} (h : HoldsBlock p block) :
    HoldsTexts p (block.filterMap lineData) := ⟨h.hasData, h.currentData⟩

/-- The open block of a list of lines. -/
theorem foldl_holdNext (ls : List (List UInt8)) :
    ls.foldl holdNext [] = (segments [] ls).2.filterMap lineData := by
  induction ls using List.reverseRecOn with
  | nil => rfl
  | append_singleton ls line ih =>
      rw [List.foldl_append, List.foldl_cons, List.foldl_nil, ih, segments_snoc, holdNext]
      by_cases hempty : line = []
      · rw [if_pos hempty, if_pos hempty]
        rfl
      · rw [if_neg hempty, if_neg hempty, List.filterMap_append]
        cases hline : lineData line <;> simp [hline]

namespace SseParser

theorem enforceLimit_error_iff (extraBytes : Nat) :
    (∃ e, p.enforceLimit extraBytes = .error e) ↔
      p.maxBufferSize < p.buffer.length + extraBytes := by
  -- the second comparison is reached only where this difference does not wrap
  have hsub : extraBytes ≤ p.maxBufferSize →
      SizeT.sub p.maxBufferSize extraBytes = p.maxBufferSize - extraBytes :=
    fun hle => SizeT.sub_eq hle p.maxBufferSize_lt
  unfold enforceLimit
  split
  · rename_i hrefused
    refine ⟨fun _ => ?_, fun _ => ⟨_, rfl⟩⟩
    rcases hrefused with hextra | hbuffer
    · omega
    · by_cases hle : extraBytes ≤ p.maxBufferSize
      · rw [hsub hle] at hbuffer
        omega
      · omega
  · rename_i hpassed
    rw [not_or, Nat.not_lt, Nat.not_lt] at hpassed
    obtain ⟨hextra, hbuffer⟩ := hpassed
    rw [hsub hextra] at hbuffer
    refine ⟨fun ⟨e, he⟩ => (nomatch he), fun hover => ?_⟩
    omega

/-- The three comparisons of `append_data_line` together. -/
theorem appendDataLine_error_iff (hfits : p.currentData.length ≤ p.maxBufferSize) :
    (∃ e, (p.appendDataLine text).2 = .error e) ↔
      p.maxBufferSize <
        p.currentData.length + (if p.hasData then 1 else 0) + text.length := by
  have hpos : 0 < p.maxBufferSize := p.maxBufferSize_pos
  have hlt : p.maxBufferSize < SizeT.modulus := p.maxBufferSize_lt
  have hsub : text.length ≤ p.maxBufferSize →
      SizeT.sub p.maxBufferSize text.length = p.maxBufferSize - text.length :=
    fun hle => SizeT.sub_eq hle hlt
  have hone : (if p.hasData then 1 else 0) ≤ 1 := by split <;> omega
  -- each comparison keeps the operations of the next one from wrapping
  have hseparator : SizeT.sub p.maxBufferSize (if p.hasData then 1 else 0) =
      p.maxBufferSize - (if p.hasData then 1 else 0) := SizeT.sub_eq (by omega) hlt
  have hadd : p.currentData.length + text.length ≤ p.maxBufferSize →
      SizeT.add p.currentData.length text.length = p.currentData.length + text.length :=
    fun hle => SizeT.add_eq (by omega)
  unfold appendDataLine
  extract_lets separatorBytes separator
  split
  · rename_i hrefused
    refine ⟨fun _ => ?_, fun _ => ⟨_, rfl⟩⟩
    by_cases hvalue : text.length ≤ p.maxBufferSize
    · rw [hsub hvalue] at hrefused
      by_cases hsum : p.currentData.length + text.length ≤ p.maxBufferSize
      · rw [hseparator, hadd hsum] at hrefused
        omega
      · omega
    · omega
  · rename_i hpassed
    rw [not_or, not_or, Nat.not_lt, Nat.not_lt, Nat.not_lt] at hpassed
    obtain ⟨hvalue, hcurrent, hsum⟩ := hpassed
    rw [hsub hvalue] at hcurrent
    rw [hseparator, hadd (by omega)] at hsum
    constructor
    · intro herror
      obtain ⟨e, he⟩ := herror
      cases he
    · intro hover
      omega

theorem feedLine_nil (p : SseParser) :
    p.feedLine [] =
      if p.hasData then (p.clearCurrentEvent, .ok [p.makeEvent]) else (p, .ok []) := rfl

/-- A line of another kind, comments included. -/
theorem feedLine_of_none (hne : line ≠ []) (hline : lineData line = none) :
    p.feedLine line = (p, .ok []) := by
  rw [lineData_eq] at hline
  rw [feedLine, if_neg hne]
  split
  · rfl
  · rw [if_neg fun hprefix => by rw [if_pos hprefix] at hline; cases hline]

theorem feedLine_of_some (hline : lineData line = some text) :
    p.feedLine line =
      ((p.appendDataLine text).1, (p.appendDataLine text).2.map fun _ => []) := by
  rw [lineData_eq] at hline
  split at hline
  · rename_i hprefix
    have hne : line ≠ [] := by
      rintro rfl
      exact absurd hprefix.1 (by decide)
    -- `data:` does not begin with a colon, so the line is no comment
    have hcolon : line.head? ≠ some colon := by
      cases line with
      | nil => exact absurd rfl hne
      | cons b rest =>
          obtain rfl : b = 0x64 := (List.cons.inj hprefix.2).1
          exact fun heq => absurd (Option.some.inj heq) (by decide)
    rw [feedLine, if_neg hne, if_neg hcolon, if_pos hprefix, Option.some.inj hline]
    split
    · rename_i happend
      rw [happend]
      rfl
    · rename_i happend
      rw [happend]
      rfl
  · cases hline

/-- Only the data of the event changes, also where a line makes the parser throw. -/
structure SameButData (p p' : SseParser) : Prop where
  maxBufferSize : p'.maxBufferSize = p.maxBufferSize
  buffer : p'.buffer = p.buffer

theorem SameButData.trans {p₁ p₂ p₃ : SseParser} (h : SameButData p₁ p₂) (h' : SameButData p₂ p₃) :
    SameButData p₁ p₃ :=
  ⟨h'.maxBufferSize.trans h.maxBufferSize, h'.buffer.trans h.buffer⟩

theorem feedLine_sameButData (p : SseParser) (line : List UInt8) :
    SameButData p (p.feedLine line).1 := by
  by_cases hne : line = []
  · rw [hne, feedLine_nil]
    split <;> exact ⟨rfl, rfl⟩
  · cases hline : lineData line with
    | none =>
        rw [feedLine_of_none hne hline]
        exact ⟨rfl, rfl⟩
    | some text =>
        rw [feedLine_of_some hline]
        unfold appendDataLine
        extract_lets separatorBytes separator
        split <;> exact ⟨rfl, rfl⟩

theorem feedLoop_sameButData (fuel : Nat) (p : SseParser) (rest : List UInt8)
    (events : List SseEvent) : SameButData p (feedLoop fuel p rest events).1 := by
  induction fuel generalizing p rest events with
  | zero => exact ⟨rfl, rfl⟩
  | succ fuel ih =>
      unfold feedLoop
      split
      · exact ⟨rfl, rfl⟩
      · rename_i line after _
        have hline := feedLine_sameButData p (stripTrailingCr line)
        split
        · rename_i hresult
          rwa [hresult] at hline
        · rename_i hresult
          rw [hresult] at hline
          exact hline.trans (ih _ _ _)

theorem feedLine_error_iff (h : HoldsTexts p texts)
    (hfits : (joinLines texts).length ≤ p.maxBufferSize) (line : List UInt8) :
    (∃ e, (p.feedLine line).2 = .error e) ↔
      p.maxBufferSize < (joinLines (holdNext texts line)).length := by
  unfold holdNext
  by_cases hne : line = []
  · rw [hne, if_pos rfl, feedLine_nil]
    refine ⟨fun ⟨e, he⟩ => ?_, fun hover => absurd hover (Nat.not_lt_zero _)⟩
    split at he <;> cases he
  · rw [if_neg hne]
    cases hline : lineData line with
    | none =>
        rw [feedLine_of_none hne hline, Option.toList_none, List.append_nil]
        exact ⟨fun ⟨e, he⟩ => (nomatch he), fun hover => absurd hover (Nat.not_lt.mpr hfits)⟩
    | some text =>
        have hcurrent : p.currentData.length ≤ p.maxBufferSize := by
          rw [h.currentData]
          exact hfits
        have hthrows : (∃ e, (p.feedLine line).2 = .error e) ↔
            ∃ e, (p.appendDataLine text).2 = .error e := by
          rw [feedLine_of_some hline]
          cases (p.appendDataLine text).2 <;> simp [Except.map]
        rw [hthrows, appendDataLine_error_iff hcurrent, Option.toList_some,
          length_joinLines_snoc, h.currentData, h.hasData]
        cases texts <;> rfl

theorem feedLine_ok {emitted : List SseEvent} (h : HoldsTexts p texts)
    (hok : p.feedLine line = (p', .ok emitted)) : HoldsTexts p' (holdNext texts line) := by
  unfold holdNext
  by_cases hne : line = []
  · rw [hne, feedLine_nil] at hok
    rw [if_pos hne]
    split at hok
    · cases hok
      exact ⟨rfl, rfl⟩
    · rename_i hdata
      cases hok
      have hnone : texts = [] := by
        have hiff := h.hasData
        simpa [hdata] using hiff
      rw [hnone] at h
      exact h
  · rw [if_neg hne]
    cases hline : lineData line with
    | none =>
        rw [feedLine_of_none hne hline] at hok
        cases hok
        rw [Option.toList_none, List.append_nil]
        exact h
    | some text =>
        rw [feedLine_of_some hline] at hok
        obtain ⟨hp', hemitted⟩ := Prod.mk.inj hok
        have happend : p.appendDataLine text = (p', .ok ()) := by
          refine Prod.ext hp' ?_
          cases hresult : (p.appendDataLine text).2 with
          | error e => rw [hresult] at hemitted; cases hemitted
          | ok _ => rfl
        obtain rfl := appendDataLine_ok happend
        refine ⟨by simp, ?_⟩
        rw [Option.toList_some, h.currentData, h.hasData]
        cases texts with
        | nil => simp [joinLines]
        | cons first texts =>
            rw [joinLines_snoc (List.cons_ne_nil first texts)]
            rfl

theorem lines_of_splitFirst {s line after : List UInt8} (h : splitFirst LF s = some (line, after)) :
    lines s = stripTrailingCr line :: lines after := by
  rw [lines_eq, lines_eq, segments_of_splitFirst_some h, List.map_cons]

theorem feedLoop_error_iff {fuel : Nat} {rest : List UInt8} (hfuel : rest.length ≤ fuel)
    (h : HoldsTexts p texts) (hfits : (joinLines texts).length ≤ p.maxBufferSize)
    (events : List SseEvent) :
    (∃ e, (feedLoop fuel p rest events).2 = .error e) ↔
      ¬ Fits p.maxBufferSize texts (lines rest) := by
  induction fuel generalizing p texts rest events with
  | zero =>
      obtain rfl := List.length_eq_zero_iff.mp (Nat.le_zero.mp hfuel)
      exact ⟨fun ⟨e, he⟩ => (nomatch he), fun hover => absurd hfits hover⟩
  | succ fuel ih =>
      unfold feedLoop
      split
      · rename_i hnone
        rw [lines_eq, segments_of_splitFirst_none hnone]
        exact ⟨fun ⟨e, he⟩ => (nomatch he), fun hover => absurd hfits hover⟩
      · rename_i line after hsome
        have hlength := length_of_splitFirst hsome
        have hthrows := feedLine_error_iff h hfits (stripTrailingCr line)
        rw [lines_of_splitFirst hsome, Fits, not_and]
        split
        · rename_i e hresult
          rw [hresult] at hthrows
          have hover := hthrows.mp ⟨e, rfl⟩
          exact ⟨fun _ _ hrest => absurd hrest.first (Nat.not_le.mpr hover), fun _ => ⟨e, rfl⟩⟩
        · rename_i p₁ emitted hresult
          rw [hresult] at hthrows
          have hfits' : (joinLines (holdNext texts (stripTrailingCr line))).length ≤
              p.maxBufferSize :=
            Nat.not_lt.mp fun hover => by
              obtain ⟨e, he⟩ := hthrows.mpr hover
              cases he
          have hsame := feedLine_sameButData p (stripTrailingCr line)
          rw [hresult] at hsame
          -- the induction hypothesis speaks of the parser after this line, which has the same limit
          rw [← hsame.maxBufferSize] at hfits' ⊢
          rw [ih (by omega) (feedLine_ok h hresult) hfits']
          exact ⟨fun hover _ => hover, fun hover => hover (hsame.maxBufferSize ▸ hfits)⟩

/-- What `feed` does about the limits: the check before the parsing, and the data of the events. -/
theorem feed_error_iff (h : HoldsTexts p texts)
    (hfits : (joinLines texts).length ≤ p.maxBufferSize) (chunk : List UInt8) :
    (∃ e, (p.feed chunk).2 = .error e) ↔
      p.maxBufferSize < p.buffer.length + chunk.length ∨
        ¬ Fits p.maxBufferSize texts (lines (p.buffer ++ chunk)) := by
  have hraw := enforceLimit_error_iff (p := p) chunk.length
  unfold feed
  split
  · rename_i e hlimit
    exact ⟨fun _ => .inl (hraw.mp ⟨e, hlimit⟩), fun _ => ⟨e, rfl⟩⟩
  · rename_i hlimit
    have hpassed : ¬ p.maxBufferSize < p.buffer.length + chunk.length := fun hover => by
      obtain ⟨e, he⟩ := hraw.mpr hover
      rw [hlimit] at he
      cases he
    extract_lets q
    have hq : HoldsTexts q texts := ⟨h.hasData, h.currentData⟩
    have hloop := feedLoop_error_iff (Nat.le_refl q.buffer.length) hq hfits []
    rw [or_iff_right hpassed, ← hloop]
    split
    · rename_i hresult
      rw [hresult]
      exact ⟨fun _ => ⟨_, rfl⟩, fun _ => ⟨_, rfl⟩⟩
    · rename_i hresult
      rw [hresult]
      exact ⟨fun ⟨e, he⟩ => (nomatch he), fun ⟨e, he⟩ => (nomatch he)⟩

theorem feed_maxBufferSize (p : SseParser) (chunk : List UInt8) :
    (p.feed chunk).1.maxBufferSize = p.maxBufferSize := by
  unfold feed
  split
  · rfl
  · extract_lets q
    have hsame := feedLoop_sameButData q.buffer.length q q.buffer []
    split
    · rename_i hresult
      rw [hresult] at hsame
      exact hsame.maxBufferSize
    · rename_i hresult
      rw [hresult] at hsame
      exact hsame.maxBufferSize

theorem create_maxBufferSize {maxBufferSize : Nat} {hlt : maxBufferSize < SizeT.modulus}
    (hp : create maxBufferSize hlt = .ok p) : p.maxBufferSize = maxBufferSize := by
  unfold create at hp
  split at hp
  · cases hp
  · cases hp
    rfl

/-- Some call throws when the chunks are fed one after the other. -/
def Throws (p : SseParser) (chunks : List (List UInt8)) : Prop :=
  ∃ e, (p.feedAll chunks).2 = .error e

end SseParser

/-- Each chunk fits next to the bytes that are pending when it arrives. -/
def RoomFor (limit : Nat) : List UInt8 → List (List UInt8) → Prop
  | _, [] => True
  | pending, chunk :: chunks =>
      pending.length + chunk.length ≤ limit ∧ RoomFor limit (tail (pending ++ chunk)) chunks

instance decidableRoomFor (limit : Nat) (pending : List UInt8) :
    ∀ chunks, Decidable (RoomFor limit pending chunks)
  | [] => .isTrue trivial
  | chunk :: chunks =>
      have := decidableRoomFor limit (tail (pending ++ chunk)) chunks
      inferInstanceAs (Decidable (_ ∧ _))

theorem tail_append (s t : List UInt8) : tail (s ++ t) = tail (tail s ++ t) := by
  rw [tail_eq, tail_eq, tail_eq, segments_append]

theorem lines_append (s t : List UInt8) : lines (s ++ t) = lines s ++ lines (tail s ++ t) := by
  rw [lines_eq, lines_eq, lines_eq, tail_eq, segments_append, List.map_append]

theorem HasRead.holdsTexts {s : List UInt8} {emitted : List SseEvent} (h : HasRead p s emitted) :
    HoldsTexts p ((lines s).foldl holdNext []) := by
  rw [foldl_holdNext]
  exact h.complete.openBlock.holdsTexts

theorem Fits.last (h : Fits limit texts ls) :
    (joinLines (ls.foldl holdNext texts)).length ≤ limit := by
  rw [← List.append_nil ls, fits_append] at h
  exact h.2

theorem HasRead.feed_error_iff {s : List UInt8} {emitted : List SseEvent} (h : HasRead p s emitted)
    (hfits : Fits p.maxBufferSize [] (lines s)) (chunk : List UInt8) :
    (∃ e, (p.feed chunk).2 = .error e) ↔
      p.maxBufferSize < (tail s).length + chunk.length ∨
        ¬ Fits p.maxBufferSize [] (lines (s ++ chunk)) := by
  have hfeed := SseParser.feed_error_iff h.holdsTexts hfits.last chunk
  rw [h.pending] at hfeed
  rw [hfeed, lines_append s chunk, fits_append, and_iff_right hfits]

theorem HasRead.throws_iff {s : List UInt8} {before : List SseEvent} (h : HasRead p s before)
    (hfits : Fits p.maxBufferSize [] (lines s)) (chunks : List (List UInt8)) :
    p.Throws chunks ↔ ¬ (RoomFor p.maxBufferSize (tail s) chunks ∧
      Fits p.maxBufferSize [] (lines (s ++ chunks.flatten))) := by
  induction chunks generalizing p s before with
  | nil =>
      rw [List.flatten_nil, List.append_nil]
      exact ⟨fun ⟨e, he⟩ => (nomatch he), fun hover => absurd ⟨trivial, hfits⟩ hover⟩
  | cons chunk chunks ih =>
      have hfeed := h.feed_error_iff hfits chunk
      have hmore : Fits p.maxBufferSize [] (lines (s ++ (chunk :: chunks).flatten)) →
          Fits p.maxBufferSize [] (lines (s ++ chunk)) := fun hall => by
        rw [List.flatten_cons, ← List.append_assoc, lines_append, fits_append] at hall
        exact hall.1
      unfold SseParser.Throws SseParser.feedAll
      split
      · rename_i e hresult
        rw [hresult] at hfeed
        -- the chunks after this one are not fed, and what they hold does not matter
        refine ⟨fun _ hall => ?_, fun _ => ⟨e, rfl⟩⟩
        rcases hfeed.mp ⟨e, rfl⟩ with hraw | hdata
        · exact absurd hall.1.1 (Nat.not_le.mpr hraw)
        · exact hdata (hmore hall.2)
      · rename_i p₁ events₁ hresult
        have hmax := SseParser.feed_maxBufferSize p chunk
        rw [hresult] at hfeed hmax
        have hpassed := mt hfeed.mpr fun ⟨e, he⟩ => (nomatch he)
        rw [not_or, Nat.not_lt, not_not] at hpassed
        have hrest := ih (h.feed hresult) (hmax.symm ▸ hpassed.2)
        rw [hmax] at hrest
        rw [RoomFor, and_iff_right hpassed.1, ← tail_append, List.flatten_cons,
          ← List.append_assoc, ← hrest]
        unfold SseParser.Throws
        split
        · rename_i hlast
          rw [hlast]
        · rename_i hlast
          rw [hlast]
          exact ⟨fun ⟨e, he⟩ => (nomatch he), fun ⟨e, he⟩ => (nomatch he)⟩

/-- The data of an event is longest when its block is complete. -/
theorem fits_iff_blocks (ls : List (List UInt8)) :
    Fits limit [] ls ↔
      ∀ block ∈ ls.splitOn [], (joinLines (block.filterMap lineData)).length ≤ limit := by
  rw [splitOn_eq_segments]
  induction ls using List.reverseRecOn with
  | nil => simp [Fits]
  | append_singleton ls line ih =>
      have hstep : Fits limit [] (ls ++ [line]) ↔ Fits limit [] ls ∧
          (joinLines (holdNext (ls.foldl holdNext []) line)).length ≤ limit := by
        rw [fits_append]
        exact and_congr_right fun hfits => and_iff_right hfits.last
      rw [hstep, ih, segments_snoc, holdNext, foldl_holdNext]
      by_cases hempty : line = []
      · -- an empty line opens a block without data
        rw [if_pos hempty, if_pos hempty]
        simp only [List.forall_mem_append, List.forall_mem_singleton, List.filterMap_nil]
      · -- any other line makes the data of the last block no shorter
        rw [if_neg hempty, if_neg hempty]
        have hlonger : (joinLines ((segments [] ls).2.filterMap lineData)).length ≤
            (joinLines ((segments [] ls).2.filterMap lineData ++
              (lineData line).toList)).length := by
          cases lineData line with
          | none => exact Nat.le_of_eq (by rw [Option.toList_none, List.append_nil])
          | some text =>
              rw [Option.toList_some, length_joinLines_snoc]
              omega
        have htexts : ((segments [] ls).2 ++ [line]).filterMap lineData =
            (segments [] ls).2.filterMap lineData ++ (lineData line).toList := by
          rw [List.filterMap_append]
          cases hline : lineData line <;> simp [hline]
        simp only [List.forall_mem_append, List.forall_mem_singleton, htexts]
        exact ⟨fun h => ⟨h.1.1, h.2⟩, fun h => ⟨⟨h.1, Nat.le_trans hlonger h.2⟩, h.2⟩⟩

/-- A fresh parser throws when some chunk does not fit next to what is pending or when the data of
some event is too long.  The second does not depend on how the bytes are cut into chunks, so cuts
without the first agree. -/
theorem create_throws_iff {maxBufferSize : Nat} {hlt : maxBufferSize < SizeT.modulus}
    (hp : SseParser.create maxBufferSize hlt = .ok p) :
    (∀ chunks : List (List UInt8), p.Throws chunks ↔
      ¬ RoomFor maxBufferSize [] chunks ∨
        ∃ block ∈ (lines chunks.flatten).splitOn [],
          maxBufferSize < (joinLines (block.filterMap lineData)).length) ∧
    ∀ chunks chunks' : List (List UInt8), chunks.flatten = chunks'.flatten →
      RoomFor maxBufferSize [] chunks → RoomFor maxBufferSize [] chunks' →
      (p.Throws chunks ↔ p.Throws chunks') := by
  have hlimit : p.maxBufferSize = maxBufferSize := SseParser.create_maxBufferSize hp
  have hthrows : ∀ chunks : List (List UInt8), p.Throws chunks ↔
      ¬ RoomFor maxBufferSize [] chunks ∨
        ∃ block ∈ (lines chunks.flatten).splitOn [],
          maxBufferSize < (joinLines (block.filterMap lineData)).length := by
    intro chunks
    have hfits : Fits p.maxBufferSize [] (lines []) := Nat.zero_le _
    have h := (HasRead.fresh hp).throws_iff hfits chunks
    rw [List.nil_append, fits_iff_blocks, hlimit, not_and_or] at h
    simp only [not_forall, Nat.not_le, exists_prop] at h
    exact h
  refine ⟨hthrows, fun chunks chunks' hsame hroom hroom' => ?_⟩
  rw [hthrows, hthrows, hsame, or_iff_right (not_not.mpr hroom),
    or_iff_right (not_not.mpr hroom')]

def fourBytes : SseParser :=
  { maxBufferSize := 4, maxBufferSize_pos := by decide, maxBufferSize_lt := by decide }

theorem create_throws_iff_four :
    fourBytes.Throws [[0x61, LF], [0x61, LF]] ↔ fourBytes.Throws [[0x61, LF, 0x61, LF]] := by
  have hfresh : SseParser.create 4 (by decide) = .ok fourBytes := rfl
  exact (create_throws_iff hfresh).2 _ _ rfl (by decide) (by decide)

/-- Three lines of two bytes each fit one by one, but not in one chunk. -/
theorem throws_differs : ¬ ∀ (maxBufferSize : Nat) (hlt : maxBufferSize < SizeT.modulus)
    (p : SseParser) (chunks chunks' : List (List UInt8)),
    SseParser.create maxBufferSize hlt = .ok p → chunks.flatten = chunks'.flatten →
    (p.Throws chunks ↔ p.Throws chunks') := by
  intro h
  have hcuts := h 4 (by decide) fourBytes [[0x61, LF, 0x61, LF, 0x61, LF]]
    [[0x61, LF], [0x61, LF], [0x61, LF]] rfl rfl
  obtain ⟨e, he⟩ := hcuts.mp ⟨_, rfl⟩
  have hok : (fourBytes.feedAll [[0x61, LF], [0x61, LF], [0x61, LF]]).2 = .ok [] := rfl
  rw [hok] at he
  cases he

end VllmSloProxy
