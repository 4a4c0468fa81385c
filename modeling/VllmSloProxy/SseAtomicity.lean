import VllmSloProxy.Lib.Run
import VllmSloProxy.SseLimits

/-!
# What a throwing `feed` leaves behind

The check before the parsing throws with the parser untouched.  When the data of an event grows too
long in the middle of the parsing, the chunk is already in the buffer and its lines before that one
have joined the data, so that the next call parses them a second time.
-/

namespace VllmSloProxy

open Delimited SseReading Transition

inductive SseCall where
  | feed (chunk : List UInt8)
  | reset
  | pendingBytes
  deriving DecidableEq, Repr

namespace SseParser

/-- The parser after a call, also after one that throws. -/
def call (p : SseParser) : SseCall → Option SseParser
  | .feed chunk => some (p.feed chunk).1
  | .reset => some p.reset
  | .pendingBytes => some p

/-- A `feed` that throws leaves the parser as it was. -/
def Atomic (p : SseParser) : SseCall → Prop
  | .feed chunk => (∃ e, (p.feed chunk).2 = .error e) → (p.feed chunk).1 = p
  | _ => True

/-- The data lines that the parser holds, as one text. -/
def held (p : SseParser) : List (List UInt8) := if p.hasData then [p.currentData] else []

/-- The chunk is refused before it is parsed, or the lines that it completes make the data of no
event longer than the limit. -/
def WithinLimits (p : SseParser) : SseCall → Prop
  | .feed chunk =>
      p.maxBufferSize < p.buffer.length + chunk.length ∨
        Fits p.maxBufferSize p.held (lines (p.buffer ++ chunk))
  | _ => True

end SseParser

variable {p : SseParser} {texts texts' : List (List UInt8)} {limit : Nat} {s : List UInt8}
  {emitted : List SseEvent}

theorem fits_congr {ls : List (List UInt8)} (hjoin : joinLines texts = joinLines texts')
    (hempty : texts.isEmpty = texts'.isEmpty) :
    Fits limit texts ls ↔ Fits limit texts' ls := by
  induction ls generalizing texts texts' with
  | nil => rw [Fits, Fits, hjoin]
  | cons line ls ih =>
      rw [Fits, Fits, hjoin]
      refine and_congr_right fun _ => ?_
      unfold holdNext
      by_cases hline : line = []
      · rw [if_pos hline, if_pos hline]
      · rw [if_neg hline, if_neg hline]
        cases lineData line with
        | none => exact ih (by simpa using hjoin) (by simpa using hempty)
        | some text =>
            -- only whether there is a text before decides about the separator
            have hmore : joinLines (texts ++ [text]) = joinLines (texts' ++ [text]) := by
              cases texts with
              | nil => rw [List.isEmpty_iff.mp hempty.symm]
              | cons first rest =>
                  have hsome' : texts' ≠ [] := by
                    rintro rfl
                    cases hempty
                  rw [joinLines_snoc (List.cons_ne_nil first rest), joinLines_snoc hsome', hjoin]
            exact ih hmore (by cases texts <;> cases texts' <;> rfl)

theorem HoldsTexts.fits_held {ls : List (List UInt8)} (h : HoldsTexts p texts) :
    Fits limit p.held ls ↔ Fits limit texts ls := by
  unfold SseParser.held
  cases texts with
  | nil =>
      rw [h.hasData]
      exact Iff.rfl
  | cons first texts =>
      have hjoin : joinLines [p.currentData] = joinLines (first :: texts) := by
        rw [← h.currentData, joinLines, List.intercalate_singleton]
      rw [h.hasData]
      exact fits_congr hjoin rfl

/-- A parser that has been fed a byte string whose events keep to the limit. -/
structure Regular (p : SseParser) (s : List UInt8) (emitted : List SseEvent) : Prop where
  read : HasRead p s emitted
  fits : Fits p.maxBufferSize [] (lines s)

namespace SseParser

/-- A chunk that is refused before it is parsed changes nothing. -/
theorem feed_of_refused {chunk : List UInt8}
    (hrefused : p.maxBufferSize < p.buffer.length + chunk.length) : (p.feed chunk).1 = p := by
  obtain ⟨e, he⟩ := (enforceLimit_error_iff chunk.length).mpr hrefused
  unfold feed
  rw [he]

/-- Where the parsing itself throws, the chunk is in the buffer. -/
theorem feed_of_thrown {chunk : List UInt8}
    (hroom : p.buffer.length + chunk.length ≤ p.maxBufferSize)
    (hthrows : ∃ e, (p.feed chunk).2 = .error e) :
    (p.feed chunk).1.buffer = p.buffer ++ chunk := by
  have hpassed := mt (enforceLimit_error_iff chunk.length).mp (Nat.not_lt.mpr hroom)
  unfold feed at hthrows ⊢
  cases hlimit : p.enforceLimit chunk.length with
  | error e => exact absurd ⟨e, hlimit⟩ hpassed
  | ok _ =>
      rw [hlimit] at hthrows
      dsimp only at hthrows ⊢
      generalize hq : ({ p with buffer := p.buffer ++ chunk } : SseParser) = q at hthrows ⊢
      have hsame := feedLoop_sameButData (p.buffer ++ chunk).length q (p.buffer ++ chunk) []
      split
      · rename_i hloop
        rw [hloop] at hsame
        rw [hsame.buffer, ← hq]
      · rename_i hloop
        rw [hloop] at hthrows
        obtain ⟨e, he⟩ := hthrows
        cases he

end SseParser

theorem Regular.atomic_iff (h : Regular p s emitted) (c : SseCall) :
    p.Atomic c ↔ p.WithinLimits c := by
  cases c with
  | reset => exact Iff.rfl
  | pendingBytes => exact Iff.rfl
  | feed chunk =>
      have hthrows := h.read.feed_error_iff h.fits chunk
      rw [lines_append, fits_append, and_iff_right h.fits, ← h.read.holdsTexts.fits_held,
        ← h.read.pending] at hthrows
      unfold SseParser.Atomic SseParser.WithinLimits
      constructor
      · intro hatomic
        by_contra hbad
        rw [not_or, Nat.not_lt] at hbad
        have herror := hthrows.mpr (.inr hbad.2)
        -- a parser that is as it was cannot have taken the chunk into its buffer
        have hbuffer := SseParser.feed_of_thrown hbad.1 herror
        rw [hatomic herror] at hbuffer
        -- an empty chunk completes no line
        obtain rfl : chunk = [] := List.self_eq_append_right.mp hbuffer
        rw [List.append_nil] at hbad
        have hnone : lines p.buffer = [] := by
          rw [h.read.pending, lines_eq, tail_eq, segments_of_notMem (notMem_tail s)]
          rfl
        rw [hnone, h.read.holdsTexts.fits_held] at hbad
        exact hbad.2 h.fits.last
      · rintro (hrefused | hfits) herror
        · exact SseParser.feed_of_refused hrefused
        · rcases hthrows.mp herror with hrefused | hover
          · exact SseParser.feed_of_refused hrefused
          · exact absurd hfits hover

theorem Regular.feed {p' : SseParser} {chunk : List UInt8} {events : List SseEvent}
    (h : Regular p s emitted) (hfeed : p.feed chunk = (p', .ok events)) :
    Regular p' (s ++ chunk) (emitted ++ events) := by
  refine ⟨h.read.feed hfeed, ?_⟩
  have hthrows := mt (h.read.feed_error_iff h.fits chunk).mpr fun ⟨e, he⟩ => by
    rw [hfeed] at he
    cases he
  rw [not_or, not_not] at hthrows
  have hlimit := SseParser.feed_maxBufferSize p chunk
  rw [hfeed] at hlimit
  rw [hlimit]
  exact hthrows.2

theorem Regular.call {c : SseCall} {p' : SseParser} (h : Regular p s emitted)
    (hatomic : p.Atomic c) (hcall : p.call c = some p') :
    ∃ s' emitted', Regular p' s' emitted' := by
  cases c with
  | reset =>
      cases hcall
      exact ⟨[], [], ⟨⟨⟨rfl, rfl⟩, rfl⟩, rfl⟩, Nat.zero_le _⟩
  | pendingBytes =>
      cases hcall
      exact ⟨s, emitted, h⟩
  | feed chunk =>
      cases hcall
      cases hresult : (p.feed chunk).2 with
      | error e =>
          rw [hatomic ⟨e, hresult⟩]
          exact ⟨s, emitted, h⟩
      | ok events =>
          have hfeed : p.feed chunk = ((p.feed chunk).1, .ok events) := Prod.ext rfl hresult
          exact ⟨s ++ chunk, emitted ++ events, h.feed hfeed⟩

/-- In every run, all throwing `feed` calls leave the parser as it was exactly when each chunk is
refused before the parsing or makes the data of no event too long. -/
theorem create_atomic_iff {maxBufferSize : Nat} {hlt : maxBufferSize < SizeT.modulus}
    (hp : SseParser.create maxBufferSize hlt = .ok p) (calls : List SseCall) :
    Meets SseParser.call SseParser.Atomic p calls ↔
      Meets SseParser.call SseParser.WithinLimits p calls := by
  apply meets_congr (q := fun p => ∃ s emitted, Regular p s emitted)
  · exact ⟨[], [], HasRead.fresh hp, Nat.zero_le _⟩
  · rintro p' c ⟨s, emitted, h⟩
    exact h.atomic_iff c
  · rintro p' c p'' ⟨s, emitted, h⟩ hlimits hcall
    exact h.call ((h.atomic_iff c).mpr hlimits) hcall

def sixteenBytes : SseParser :=
  { maxBufferSize := 16, maxBufferSize_pos := by decide, maxBufferSize_lt := by decide }

/-- Two lines with ten and one `a`, then in one chunk a line with `b` and one with `ccc`, which is
too much. -/
def overlongEvent : List SseCall :=
  [.feed (dataPrefix ++ List.replicate 10 0x61 ++ [LF]), .feed (dataPrefix ++ [0x61, LF]),
    .feed (dataPrefix ++ [0x62, LF] ++ dataPrefix ++ [0x63, 0x63, 0x63, LF])]

theorem create_atomic_iff_sixteen :
    Meets SseParser.call SseParser.Atomic sixteenBytes overlongEvent ↔
      Meets SseParser.call SseParser.WithinLimits sixteenBytes overlongEvent := by
  have hfresh : SseParser.create 16 (by decide) = .ok sixteenBytes := rfl
  exact create_atomic_iff hfresh overlongEvent

theorem overlongEvent_not_atomic : ¬ ∀ (maxBufferSize : Nat) (hlt : maxBufferSize < SizeT.modulus)
    (p : SseParser) (calls : List SseCall), SseParser.create maxBufferSize hlt = .ok p →
    Meets SseParser.call SseParser.Atomic p calls := by
  intro h
  have hmeets := h 16 (by decide) sixteenBytes overlongEvent rfl
  have hlast := ((hmeets.2 _ rfl).2 _ rfl).1 ⟨_, rfl⟩
  exact absurd hlast (by decide)

-- The line with `b` joins the data again in the next call.
example : (run SseParser.call sixteenBytes (overlongEvent ++ [.feed []])).map (·.currentData) =
    some (List.replicate 10 0x61 ++ [LF, 0x61, LF, 0x62, LF, 0x62]) := by
  decide

end VllmSloProxy
