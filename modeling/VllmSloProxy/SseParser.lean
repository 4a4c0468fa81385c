import VllmSloProxy.Lib.SizeT
import VllmSloProxy.Lib.Delimited

/-!
# The SSE parser

`sse_parser.cpp`.  A call that can throw returns the object as it is left, also when it throws.
-/

namespace VllmSloProxy

open Delimited

/-- `std::length_error` with its text. -/
structure LengthError where
  what : String
  deriving DecidableEq, Repr

abbrev LF : UInt8 := 0x0a
abbrev CR : UInt8 := 0x0d
abbrev space : UInt8 := 0x20
abbrev colon : UInt8 := 0x3a

/-- The bytes of `data:`. -/
def dataPrefix : List UInt8 := [0x64, 0x61, 0x74, 0x61, 0x3a]

/-- The bytes of `[DONE]`. -/
def doneMarker : List UInt8 := [0x5b, 0x44, 0x4f, 0x4e, 0x45, 0x5d]

structure SseEvent where
  data : List UInt8
  isDone : Bool := false
  deriving DecidableEq, Repr

/-- `max_buffer_size_` is a `size_t` that the constructor refuses to be zero. -/
structure SseParser where
  maxBufferSize : Nat
  buffer : List UInt8 := []
  currentData : List UInt8 := []
  hasData : Bool := false
  maxBufferSize_pos : 0 < maxBufferSize
  maxBufferSize_lt : maxBufferSize < SizeT.modulus
  deriving DecidableEq

def stripSingleLeadingSpace : List UInt8 → List UInt8
  | [] => []
  | b :: value => if b = space then value else b :: value

/-- The CR that `feed` takes off the end of a line. -/
def stripTrailingCr (line : List UInt8) : List UInt8 :=
  if line.getLast? = some CR then line.dropLast else line

namespace SseParser

def create (maxBufferSize : Nat) (hlt : maxBufferSize < SizeT.modulus) : Except String SseParser :=
  if h : maxBufferSize = 0 then
    .error "SseParser max_buffer_size must be greater than zero"
  else
    .ok { maxBufferSize, maxBufferSize_pos := Nat.pos_of_ne_zero h, maxBufferSize_lt := hlt }

def enforceLimit (p : SseParser) (extraBytes : Nat) : Except LengthError Unit :=
  if extraBytes > p.maxBufferSize ∨
      p.buffer.length > SizeT.sub p.maxBufferSize extraBytes then
    .error ⟨"SseParser buffer size limit exceeded"⟩
  else .ok ()

def appendDataLine (p : SseParser) (value : List UInt8) : SseParser × Except LengthError Unit :=
  let separatorBytes := if p.hasData then 1 else 0
  if value.length > p.maxBufferSize ∨
      p.currentData.length > SizeT.sub p.maxBufferSize value.length ∨
      SizeT.add p.currentData.length value.length > SizeT.sub p.maxBufferSize separatorBytes then
    (p, .error ⟨"SseParser event data size limit exceeded"⟩)
  else
    let separator := if p.hasData then [LF] else []
    ({ p with currentData := p.currentData ++ separator ++ value, hasData := true }, .ok ())

/-- When `append_data_line` does not throw, the value has joined the data of the event. -/
theorem appendDataLine_ok {p p' : SseParser} {value : List UInt8}
    (h : p.appendDataLine value = (p', .ok ())) :
    p' = { p with
      currentData := p.currentData ++ (if p.hasData then [LF] else []) ++ value
      hasData := true } := by
  unfold appendDataLine at h
  extract_lets separatorBytes separator at h
  split at h
  · exact absurd (congrArg Prod.snd h) (by simp)
  · exact (congrArg Prod.fst h).symm

def makeEvent (p : SseParser) : SseEvent where
  data := p.currentData
  isDone := p.currentData == doneMarker

def clearCurrentEvent (p : SseParser) : SseParser :=
  { p with currentData := [], hasData := false }

/-- The body of the `feed` loop for one line, already without its line ending. -/
def feedLine (p : SseParser) (line : List UInt8) : SseParser × Except LengthError (List SseEvent) :=
  if line = [] then
    if p.hasData then (p.clearCurrentEvent, .ok [p.makeEvent])
    else (p, .ok [])
  else if line.head? = some colon then
    -- a comment line, ignored
    (p, .ok [])
  else if line.length ≥ dataPrefix.length ∧ line.take dataPrefix.length = dataPrefix then
    match p.appendDataLine (stripSingleLeadingSpace (line.drop dataPrefix.length)) with
    | (p, .error e) => (p, .error e)
    | (p, .ok ()) => (p, .ok [])
  else (p, .ok [])

/-- The `feed` loop over the buffer from `line_start` on; each round consumes at least one byte, so
the length of the buffer bounds the rounds.  The result is what is left unconsumed. -/
def feedLoop : Nat → SseParser → List UInt8 → List SseEvent →
    SseParser × Except LengthError (List SseEvent × List UInt8)
  | 0, p, rest, events => (p, .ok (events, rest))
  | fuel + 1, p, rest, events =>
      match splitFirst LF rest with
      | none => (p, .ok (events, rest))
      | some (line, rest) =>
          match p.feedLine (stripTrailingCr line) with
          | (p, .error e) => (p, .error e)
          | (p, .ok emitted) => feedLoop fuel p rest (events ++ emitted)

def feed (p : SseParser) (chunk : List UInt8) : SseParser × Except LengthError (List SseEvent) :=
  match p.enforceLimit chunk.length with
  | .error e => (p, .error e)
  | .ok () =>
      let p := { p with buffer := p.buffer ++ chunk }
      match feedLoop p.buffer.length p p.buffer [] with
      | (p, .error e) => (p, .error e)
      | (p, .ok (events, rest)) => ({ p with buffer := rest }, .ok events)

def reset (p : SseParser) : SseParser := { p with buffer := [] }.clearCurrentEvent

theorem create_reset {maxBufferSize : Nat} {hlt : maxBufferSize < SizeT.modulus} {p : SseParser}
    (hp : create maxBufferSize hlt = .ok p) : p.reset = p := by
  unfold create at hp
  split at hp
  · cases hp
  · obtain rfl := Except.ok.inj hp
    rfl

def pendingBytes (p : SseParser) : Nat := p.buffer.length

/-- Successive `feed` calls up to the first that throws, with the events of all of them. -/
def feedAll (p : SseParser) : List (List UInt8) → SseParser × Except LengthError (List SseEvent)
  | [] => (p, .ok [])
  | chunk :: chunks =>
      match p.feed chunk with
      | (p, .error e) => (p, .error e)
      | (p, .ok events) =>
          match p.feedAll chunks with
          | (p, .error e) => (p, .error e)
          | (p, .ok more) => (p, .ok (events ++ more))

end SseParser

end VllmSloProxy
