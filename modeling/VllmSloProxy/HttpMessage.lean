import Mathlib.Tactic.Common

/-!
# HTTP messages

What a session reads from a client and what it writes to the client and to the upstream, as far as
the proxy looks at it.  A `std::string` is a list of bytes.
-/

namespace VllmSloProxy

abbrev Bytes := List UInt8

/-- The bytes of a string literal of the source. -/
def bytes (literal : String) : Bytes := literal.toList.flatMap String.utf8EncodeChar

def decimal (n : Nat) : Bytes := bytes (toString n)

inductive HttpVerb where
  | get
  | post
  | other
  deriving DecidableEq, Repr

inductive HttpStatus where
  | ok
  | notFound
  | methodNotAllowed
  | tooManyRequests
  | serviceUnavailable
  | gatewayTimeout
  | other (code : Nat)
  deriving DecidableEq, Repr

inductive HttpField where
  | host
  | userAgent
  | contentType
  | accept
  | server
  | contentLength
  deriving DecidableEq, Repr

abbrev HttpFields := List (HttpField × Bytes)

/-- `fields.set` replaces every value that the field had. -/
def HttpFields.assign (fields : HttpFields) (name : HttpField) (value : Bytes) : HttpFields :=
  fields.filter (fun entry => entry.1 ≠ name) ++ [(name, value)]

structure HttpRequest where
  version : Nat := 11
  method : HttpVerb := .get
  target : Bytes := []
  fields : HttpFields := []
  body : Bytes := []
  deriving DecidableEq, Repr

structure HttpResponse where
  status : HttpStatus
  version : Nat
  fields : HttpFields := []
  keepAlive : Bool := true
  body : Bytes := []
  deriving DecidableEq, Repr

def HttpRequest.preparePayload (request : HttpRequest) : HttpRequest :=
  { request with fields := request.fields.assign .contentLength (decimal request.body.length) }

def HttpResponse.preparePayload (response : HttpResponse) : HttpResponse :=
  { response with fields := response.fields.assign .contentLength (decimal response.body.length) }

/-- One round of the loop of `json_escape`. -/
def jsonEscapeByte (ch : UInt8) : Bytes :=
  if ch = 0x22 then [0x5c, 0x22]
  else if ch = 0x5c then [0x5c, 0x5c]
  else if ch = 0x0a then bytes "\\n"
  else if ch = 0x0d then bytes "\\r"
  else if ch = 0x09 then bytes "\\t"
  else [ch]

def jsonEscape (value : Bytes) : Bytes := value.flatMap jsonEscapeByte

end VllmSloProxy
