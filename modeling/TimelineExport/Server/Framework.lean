import TimelineExport.Error.Envelope
import TimelineExport.Server.Endpoint

/-!
# Web frameworks

An application runs on a web framework. The framework finds out what a request comes to, reads its
body, gives out files and writes answers; the application has the endpoints, and a handler for some
classes of exceptions. What is raised goes to the handler of its class, or else to that of the
nearest class above it.

`WebFramework` is what an application uses of a framework. Nothing is assumed of it: a framework may
answer any request by itself, and in any form.
-/

namespace TimelineExport

/-- The body of an answer: JSON, a text, or so many bytes of a file. -/
inductive HttpBody where
  | json (v : Json)
  | text (s : String)
  | bytes (n : Nat)

/-- An answer to a request. -/
structure HttpAnswer where
  status : Nat := 200
  headers : List (String × String) := []
  body : HttpBody

/-- What is wrong with a body, and where. -/
abbrev BodyFault := List String × String

/-- An exception that ends the handling of a request, by its class. -/
inductive HttpFault where
  /-- A failure of an export. -/
  | exportError (e : ExportError)
  /-- A body is not what the endpoint takes. -/
  | requestInvalid (faults : List BodyFault)
  /-- A failure of the framework. -/
  | frameworkError (status : Nat) (detail : String) (headers : List (String × String))
  /-- A failure of the class that the framework has for applications. It is below that of the
  framework's own failures. -/
  | applicationError (status : Nat) (detail : String)
  /-- Anything else. -/
  | other

/-- What a request comes to. -/
inductive Reception where
  | endpoint (e : Endpoint)
  /-- The framework answers by itself. -/
  | answered (a : HttpAnswer)
  | raised (x : HttpFault)

/-- **A web framework** with its requests. -/
structure WebFramework (ρ : Type) where
  /-- What a request comes to, if browsers are let in from some origins. -/
  receive : List Json → ρ → Reception
  /-- The value that the body of a request holds. -/
  bodyValue : ρ → Except HttpFault Json
  /-- How a URL is written in a header. -/
  location : String → String
  /-- Gives out a file of a content type, by its name and its length. -/
  giveFile : ρ → String → String → Nat → HttpAnswer
  /-- The answer to a failure of the framework, for which applications may have a handler. -/
  ownAnswer : Nat → String → List (String × String) → HttpAnswer
  /-- The headers that answers get on their way, if browsers are let in from some origins. -/
  headers : List Json → ρ → List (String × String)
  /-- Whether a value can be written as JSON. -/
  writes : Json → Bool

namespace HttpAnswer

/-- An answer in JSON. -/
def ofJson (v : Json) (status : Nat := 200) : HttpAnswer :=
  { status, headers := [("content-type", "application/json")], body := .json v }

/-- The answer for a failure. -/
def ofFailure (a : ErrorAnswer) : HttpAnswer := ofJson a.info.envelope a.status

/-- A successful answer with some members. -/
def success (members : List (String × Json)) : HttpAnswer :=
  ofJson (.object (("success", .bool true) :: members))

/-- The answer that leads to another place. -/
def redirect (location : String) : HttpAnswer :=
  { status := 307, headers := [("location", location)], body := .bytes 0 }

/-- Whether a framework can write an answer. -/
def isWritten {ρ : Type} (a : HttpAnswer) (w : WebFramework ρ) : Bool :=
  match a.body with
  | .json v => w.writes v
  | _ => true

end HttpAnswer

namespace WebFramework

variable {ρ : Type}

/-- Sends an answer. One that cannot be written is an exception in its turn, and the handler for
exceptions of all classes stands outside of what gives answers their headers. -/
def send (w : WebFramework ρ) (origins : List Json) (r : ρ) (a : HttpAnswer) : HttpAnswer :=
  if a.isWritten w then { a with headers := a.headers ++ w.headers origins r }
  else .ofFailure .unexpected

/-- The answer to what is raised. The framework has a handler for its own class of failures; the
application has one for every other class. -/
def dispatch (w : WebFramework ρ) (origins : List Json) (r : ρ) : HttpFault → HttpAnswer
  | .exportError e => w.send origins r (.ofFailure (.ofError e))
  | .requestInvalid [] => w.send origins r (.ofFailure .invalidRequest)
  | .requestInvalid ((path, message) :: _) =>
    w.send origins r (.ofFailure (.ofFault path message))
  | .frameworkError status detail headers =>
    w.send origins r (w.ownAnswer status detail headers)
  | .applicationError status detail => w.send origins r (.ofFailure (.ofStatus status detail))
  | .other => .ofFailure .unexpected

end WebFramework

end TimelineExport
