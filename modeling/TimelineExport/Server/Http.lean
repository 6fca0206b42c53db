import TimelineExport.Job.View
import TimelineExport.Server.Framework
import TimelineExport.Server.Orchestrator

/-!
# Answering HTTP requests

`HttpApp.handle` answers a request to the server, on any web framework: the framework says what the
request comes to, an endpoint carries out what is asked there, and what is raised on the way is
dispatched to the handlers.
-/

namespace TimelineExport

variable {ρ : Type}

/-- What answers depend on besides the orchestrator and the framework: the origins that browsers are
let in from, the version that is told, and how a moment is written. -/
structure HttpApp where
  origins : List Json
  version : String
  time : Instant → Json

/-- What a client is told about a fault in a body; bodies are objects from which members are
taken. -/
def faultMessage : Fault → String
  | .notModel _ => "Input should be a valid dictionary or object to extract fields from"
  | fault => fault.message

/-- A fault of a body, with its place. -/
def BodyFault.ofSchema (e : SchemaError) : BodyFault :=
  ("body" :: e.location.map ErrorAnswer.stepText, faultMessage e.fault)

namespace HttpApp

/-- The request to export that a body describes. -/
def exportRequest (w : WebFramework ρ) (r : ρ) : Except HttpFault ExportRequest := do
  let v ← w.bodyValue r
  ((ExportRequest.ofJson v).toExcept).mapError fun es => .requestInvalid (es.map .ofSchema)

/-- Starts an export. -/
def start (w : WebFramework ρ) (s : Orchestrator) (r : ρ) :
    Except HttpFault HttpAnswer × Orchestrator :=
  match exportRequest w r with
  | .error x => (.error x, s)
  | .ok request =>
    match s.submit request with
    | (.error (.invalid e), s) => (.error (.exportError e), s)
    | (.error (.calendar _), s) => (.error .other, s)
    | (.ok id, s) =>
      (.ok (.success [("jobId", .text id), ("message", .text "Export job started")]), s)

/-- Tells of the job of an id. -/
def withJob (s : Orchestrator) (id : String) (f : Job Float → Except HttpFault HttpAnswer) :
    Except HttpFault HttpAnswer :=
  match s.job id with
  | .error e => .error (.exportError e)
  | .ok job => f job

/-- Cancels an export. -/
def cancel (s : Orchestrator) (id : String) : Except HttpFault HttpAnswer × Orchestrator :=
  match s.cancel id with
  | (.error e, s) => (.error (.exportError e), s)
  | (.ok true, s) => (.ok (.success [("message", .text "Export cancellation requested")]), s)
  | (.ok false, s) =>
    (.error (.exportError
      { ExportError.ofSort .general ("Export job " ++ id ++ " has already finished") with
        code := "CONFLICT", status := 409 }), s)

/-- Redirects to the result of a job that is completed. -/
def download (w : WebFramework ρ) (s : Orchestrator) (id : String) : Except HttpFault HttpAnswer :=
  withJob s id fun job =>
    match job.status, nonEmpty job.downloadUrl with
    | .completed, some url => .ok (.redirect (w.location url))
    | _, _ => .error (.exportError
        (.ofSort .jobNotCompleted ("Export job " ++ id ++ " is " ++ job.status.name)))

/-- A result is not there. -/
def notFound (message : String) : HttpFault :=
  .exportError { ExportError.ofSort .general message with code := "NOT_FOUND", status := 404 }

/-- Gives out a result that is stored in a directory. -/
def file (w : WebFramework ρ) (s : Orchestrator) (r : ρ) (key : String) :
    Except HttpFault HttpAnswer × Orchestrator :=
  match s.host.storage with
  | .bucket .. => (.error (notFound "Not found"), s)
  | .directory storage =>
    match storage.locate s.host.files key with
    | .error (.storage e) => (.error (.exportError e), s)
    | .error (.files _) => (.error .other, s)
    | .ok (place, files) =>
      (match files.content? place with
        | some content =>
          .ok (w.giveFile r videoContentType (place.getLast?.getD "") content.size)
        | none => .error (notFound ("File not found: " ++ key)),
        { s with host := { s.host with files } })

/-- Carries out what is asked at an endpoint. -/
def serve (app : HttpApp) (w : WebFramework ρ) (s : Orchestrator) (r : ρ) :
    Endpoint → Except HttpFault HttpAnswer × Orchestrator
  | .start => start w s r
  | .status id =>
    (withJob s id fun job => .ok (.success [("job", job.toJson app.time)]), s)
  | .cancel id => cancel s id
  | .jobs => (.ok (.success [("jobs", .ofList (fun job => job.summary app.time) s.jobs)]), s)
  | .download id => (download w s id, s)
  | .file key => file w s r key
  | .health =>
    (.ok (.ofJson (.object [("status", .text "healthy"), ("version", .text app.version)])), s)

/-- Answers a request. -/
def handle (app : HttpApp) (w : WebFramework ρ) (s : Orchestrator) (r : ρ) :
    HttpAnswer × Orchestrator :=
  match w.receive app.origins r with
  | .answered a => (a, s)
  | .raised x => (w.dispatch app.origins r x, s)
  | .endpoint e =>
    match app.serve w s r e with
    | (.ok a, s) => (w.send app.origins r a, s)
    | (.error x, s) => (w.dispatch app.origins r x, s)

end HttpApp

end TimelineExport
