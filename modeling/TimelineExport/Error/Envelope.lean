import TimelineExport.Error.Basic
import TimelineExport.Json.Access
import TimelineExport.Schema.Checked

/-!
# The error envelope

Whatever fails, a client is told in one form: an object with `success` false and an `error` that
has a code, a message, a kind and whether a second try may help. `ErrorInfo` is that `error`;
members that are not set are left out of the envelope.
-/

namespace TimelineExport

/-- What a client is told about a failure. -/
structure ErrorInfo where
  code : String
  message : String
  kind : ErrorKind
  location : Option ErrorLocation := none
  retryable : Bool := false
  suggestedFix : Option String := none
  parameters : List (String × Json) := []

/-- An answer to an HTTP request that failed. -/
structure ErrorAnswer where
  status : Nat
  info : ErrorInfo

namespace ErrorLocation

/-- The members of a location. -/
def members (l : ErrorLocation) : List (String × Json) :=
  [("field", .ofOption .text l.field), ("element_id", .ofOption .text l.elementId),
    ("track_id", .ofOption .text l.trackId), ("time_ms", .ofOption .float l.timeMs)]

/-- Reads a location from its members. -/
def ofJson (v : Json) : ErrorLocation :=
  { field := (v.get "field").text?, elementId := (v.get "element_id").text?
    trackId := (v.get "track_id").text?, timeMs := (v.member? "time_ms").map Json.asFloat }

/-- A location as JSON, with null for what is not set. -/
def toJson (l : ErrorLocation) : Json := .object l.members

end ErrorLocation

/-- The members that are not null. -/
def presentMembers (members : List (String × Json)) : List (String × Json) :=
  members.filter fun m =>
    match m.2 with
    | .null => false
    | _ => true

namespace ErrorInfo

/-- The members of the information, with null for what is not set. -/
def members (i : ErrorInfo) (location : Json) : List (String × Json) :=
  [("code", .text i.code), ("message", .text i.message), ("kind", .text i.kind.name),
    ("location", location), ("retryable", .bool i.retryable),
    ("suggested_fix", .ofOption .text i.suggestedFix), ("parameters", .object i.parameters)]

/-- The information as JSON, with null for what is not set. -/
def toJson (i : ErrorInfo) : Json :=
  .object (i.members (.ofOption ErrorLocation.toJson i.location))

/-- The envelope that a client receives. -/
def envelope (i : ErrorInfo) : Json :=
  let location := Json.ofOption (fun l => .object (presentMembers l.members)) i.location
  .object [("success", .bool false), ("error", .object (presentMembers (i.members location)))]

/-- The information about a code and a message, without parameters. -/
def ofCode (code message : String) : ErrorInfo :=
  let spec := CodeSpec.ofCode code
  { code, message, kind := spec.kind, retryable := spec.retryable
    suggestedFix := spec.suggestedFix }

end ErrorInfo

/-- What a client is told about a failure of an export: the failure's own advice, or else that of
its code. -/
def ExportError.info (e : ExportError) : ErrorInfo :=
  let spec := CodeSpec.ofCode e.code
  { code := e.code, message := e.message, kind := e.kind, location := e.location
    retryable := spec.retryable
    suggestedFix := (e.suggestedFix.filter (· ≠ "")).or spec.suggestedFix
    parameters := spec.parameters }

namespace ErrorAnswer

/-- The answer for a failure of an export. -/
def ofError (e : ExportError) : ErrorAnswer := ⟨e.status, e.info⟩

/-- The code that stands for an HTTP status. -/
def codeOfStatus : Nat → String
  | 400 => "BAD_REQUEST"
  | 404 => "NOT_FOUND"
  | 409 => "CONFLICT"
  | 422 => "VALIDATION_ERROR"
  | _ => "INTERNAL_ERROR"

/-- The answer for an HTTP failure with a status and a detail. -/
def ofStatus (status : Nat) (detail : String) : ErrorAnswer :=
  ⟨status, .ofCode (codeOfStatus status) detail⟩

/-- A step of a path as it is shown. -/
def stepText : Step → String
  | .member name => name
  | .item index => toString index

/-- The answer for a request body that cannot be decoded: the first fault, with its path. -/
def ofFault (path : List String) (message : String) : ErrorAnswer :=
  let place := " -> ".intercalate path
  ⟨422, .ofCode "VALIDATION_ERROR" (if place = "" then message else place ++ ": " ++ message)⟩

/-- The answer for a request body about which nothing more is known. -/
def invalidRequest : ErrorAnswer := ⟨422, .ofCode "VALIDATION_ERROR" "Request validation failed"⟩

/-- The answer for a failure that nobody expected. -/
def unexpected : ErrorAnswer := ⟨500, .ofCode "INTERNAL_ERROR" "Internal server error"⟩

end ErrorAnswer

end TimelineExport
