import TimelineExport.Proofs.Outcome
import TimelineExport.Server.Http
import TimelineExport.Server.Router

/-!
# Answers in the error envelope

Everything that the application raises has a handler of its own, and is told in the envelope
(`HttpApp.meets_serve`). A framework, however, has its own class of failures, and its own handler for
them; it may also answer a request before an endpoint is reached, and it gives out files by itself.
These answers are all that is left to it (`HttpApp.LeavesTo`), whatever the framework is. So failures
are told in the envelope exactly as far as the framework keeps to it in these
(`HttpApp.handle_isProper_iff`).

A framework that tells of its own failures by a bare detail does not keep to it: where routing finds
nothing, the answer has no envelope (`HttpApp.lacksEnvelope_of_raised`).
-/

namespace TimelineExport

variable {ρ : Type}

/-! ### The envelope -/

/-- What a client can rely on in a failure: a code and a message, a kind, and whether a second try
may help. -/
structure Json.IsFailure (error : Json) : Prop where
  code : ∃ code, error.member? "code" = some (.text code)
  message : ∃ message, error.member? "message" = some (.text message)
  kind : ∃ kind : ErrorKind, error.member? "kind" = some (.text kind.name)
  retryable : ∃ again, error.member? "retryable" = some (.bool again)

/-- **The error envelope**: no success, and a failure. -/
structure Json.IsEnvelope (v : Json) : Prop where
  success : v.member? "success" = some (.bool false)
  error : ∃ error, v.member? "error" = some error ∧ error.IsFailure

/-- Members that are not set are left out of an envelope; those that a client relies on are always
set. -/
theorem ErrorInfo.isEnvelope_envelope (i : ErrorInfo) : i.envelope.IsEnvelope := by
  obtain ⟨code, message, kind, location, again, fix, parameters⟩ := i
  refine ⟨rfl, _, rfl, ⟨code, ?_⟩, ⟨message, ?_⟩, ⟨kind, ?_⟩, ⟨again, ?_⟩⟩
  all_goals cases location <;> cases fix <;> rfl

namespace HttpAnswer

/-- The answer is JSON, and is an envelope. -/
structure IsEnveloped (a : HttpAnswer) : Prop where
  isJson : ("content-type", "application/json") ∈ a.headers
  body : ∃ v, a.body = .json v ∧ v.IsEnvelope

/-- **A proper answer**: a failure is told in the envelope. -/
def IsProper (a : HttpAnswer) : Prop := 400 ≤ a.status → a.IsEnveloped

theorem isEnveloped_ofFailure (a : ErrorAnswer) : (ofFailure a).IsEnveloped :=
  ⟨List.mem_cons_self, _, rfl, a.info.isEnvelope_envelope⟩

theorem isProper_ofFailure (a : ErrorAnswer) : (ofFailure a).IsProper :=
  fun _ => isEnveloped_ofFailure a

theorem isProper_of_lt {a : HttpAnswer} (h : a.status < 400) : a.IsProper :=
  fun hle => absurd h (Nat.not_lt.mpr hle)

theorem isProper_success (members : List (String × Json)) : (success members).IsProper :=
  isProper_of_lt (by decide : 200 < 400)

/-- **A failure without the envelope.** -/
structure LacksEnvelope (a : HttpAnswer) : Prop where
  failed : 400 ≤ a.status
  bare : ∀ v, a.body = .json v → ¬ v.IsEnvelope

theorem LacksEnvelope.not_isProper {a : HttpAnswer} (h : a.LacksEnvelope) : ¬ a.IsProper := by
  intro hproper
  obtain ⟨v, hv, henvelope⟩ := (hproper h.failed).body
  exact h.bare v hv henvelope

theorem lacksEnvelope_ofDetail {status : Nat} (h : 400 ≤ status) (detail : String)
    (headers : List (String × String)) : (ofDetail status detail headers).LacksEnvelope := by
  refine ⟨h, fun v hv henvelope => ?_⟩
  cases hv
  exact nomatch henvelope.success

end HttpAnswer

/-! ### What is raised -/

/-- The application has a handler for an exception: it is no failure of the framework. -/
def HttpFault.IsHandled (x : HttpFault) : Prop :=
  ∀ status detail headers, x ≠ .frameworkError status detail headers

namespace WebFramework

variable (w : WebFramework ρ) (origins : List Json) (r : ρ)

/-- On its way an answer only gets more headers, unless it cannot be written. -/
theorem isProper_send {a : HttpAnswer} (h : a.IsProper) : (w.send origins r a).IsProper := by
  rw [send]
  split
  · exact fun hstatus => ⟨List.mem_append_left _ (h hstatus).isJson, (h hstatus).body⟩
  · exact HttpAnswer.isProper_ofFailure _

/-- An answer without the envelope keeps none on its way. -/
theorem lacksEnvelope_send {a : HttpAnswer} (h : a.LacksEnvelope) (hwritten : a.isWritten w = true) :
    (w.send origins r a).LacksEnvelope := by
  rw [send, if_pos hwritten]
  exact ⟨h.failed, h.bare⟩

/-- **Whatever has a handler of the application is told in the envelope.** -/
theorem isProper_dispatch {x : HttpFault} (h : x.IsHandled) :
    (w.dispatch origins r x).IsProper := by
  cases x with
  | exportError e => exact w.isProper_send origins r (HttpAnswer.isProper_ofFailure _)
  | requestInvalid faults =>
    cases faults with
    | nil => exact w.isProper_send origins r (HttpAnswer.isProper_ofFailure _)
    | cons fault faults => exact w.isProper_send origins r (HttpAnswer.isProper_ofFailure _)
  | frameworkError status detail headers => exact absurd rfl (h status detail headers)
  | applicationError status detail =>
    exact w.isProper_send origins r (HttpAnswer.isProper_ofFailure _)
  | other => exact HttpAnswer.isProper_ofFailure _

end WebFramework

/-! ### Endpoints -/

namespace HttpApp

theorem isHandled_exportError (e : ExportError) : (HttpFault.exportError e).IsHandled := nofun

theorem isHandled_other : HttpFault.other.IsHandled := nofun

variable (w : WebFramework ρ) (s : Orchestrator) (r : ρ)

/-- The framework has a handler of its own for the exception that reading a body raises. -/
def HasStrayBody : Prop :=
  ∃ status detail headers, w.bodyValue r = .error (.frameworkError status detail headers)

variable {w r} in
theorem isHandled_of_exportRequest (hbody : ¬ HasStrayBody w r) {x : HttpFault}
    (h : exportRequest w r = .error x) : x.IsHandled := by
  rw [exportRequest] at h
  cases hvalue : w.bodyValue r with
  | error y =>
    rw [hvalue] at h
    cases h
    rintro status detail headers rfl
    exact hbody ⟨status, detail, headers, hvalue⟩
  | ok v =>
    rw [hvalue] at h
    change (ExportRequest.ofJson v).toExcept.mapError _ = _ at h
    cases hread : (ExportRequest.ofJson v).toExcept with
    | error es =>
      rw [hread] at h
      cases h
      exact nofun
    | ok request =>
      rw [hread] at h
      cases h

variable {w r} in
theorem meets_start (hbody : ¬ HasStrayBody w r) :
    Meets (start w s r).1 HttpAnswer.IsProper HttpFault.IsHandled := by
  rw [start]
  split
  · next hrequest => exact isHandled_of_exportRequest hbody hrequest
  · split
    · exact isHandled_exportError _
    · exact isHandled_other
    · exact HttpAnswer.isProper_success _

theorem meets_withJob (id : String) {f : Job Float → Except HttpFault HttpAnswer}
    (h : ∀ job, Meets (f job) HttpAnswer.IsProper HttpFault.IsHandled) :
    Meets (withJob s id f) HttpAnswer.IsProper HttpFault.IsHandled := by
  rw [withJob]
  split
  · exact isHandled_exportError _
  · exact h _

theorem meets_cancel (id : String) :
    Meets (cancel s id).1 HttpAnswer.IsProper HttpFault.IsHandled := by
  rw [cancel]
  split
  · exact isHandled_exportError _
  · exact HttpAnswer.isProper_success _
  · exact isHandled_exportError _

theorem meets_download (id : String) :
    Meets (download w s id) HttpAnswer.IsProper HttpFault.IsHandled := by
  refine meets_withJob s id fun job => ?_
  split
  · exact HttpAnswer.isProper_of_lt (by decide : 307 < 400)
  · exact isHandled_exportError _

theorem meets_file (key : String) :
    Meets (file w s r key).1 (fun _ => True) HttpFault.IsHandled := by
  rw [file]
  split
  · exact isHandled_exportError _
  · split
    · exact isHandled_exportError _
    · exact isHandled_other
    · split
      · exact trivial
      · exact isHandled_exportError _

/-- **What an endpoint raises has a handler**, and what it answers is proper; but a body may be beyond
what the framework reads, and a file is given out by the framework. -/
theorem meets_serve (app : HttpApp) {e : Endpoint} (hbody : e = .start → ¬ HasStrayBody w r) :
    Meets (app.serve w s r e).1 (fun a => a.IsProper ∨ ∃ key, e = .file key)
      HttpFault.IsHandled := by
  cases e with
  | start => exact (meets_start s (hbody rfl)).mono fun _ _ => .inl
  | status id =>
    refine (meets_withJob s id fun job => ?_).mono fun _ _ => .inl
    exact HttpAnswer.isProper_success [("job", job.toJson app.time)]
  | cancel id => exact (meets_cancel s id).mono fun _ _ => .inl
  | jobs => exact .inl (HttpAnswer.isProper_success _)
  | download id => exact (meets_download w s id).mono fun _ _ => .inl
  | file key => exact (meets_file w s r key).mono fun _ _ _ => .inr ⟨key, rfl⟩
  | health => exact .inl (HttpAnswer.isProper_of_lt (by decide : 200 < 400))

/-! ### Requests -/

/-- **What is left to the framework**: it answers a request by itself before an endpoint is reached;
routing, or the reading of a body, raises one of its own failures; or it gives out a file. -/
inductive LeavesTo (app : HttpApp) (w : WebFramework ρ) (s : Orchestrator) (r : ρ) :
    HttpAnswer → Prop
  | received {a : HttpAnswer} (h : w.receive app.origins r = .answered a) : LeavesTo app w s r a
  | routing {status : Nat} {detail : String} {headers : List (String × String)}
      (h : w.receive app.origins r = .raised (.frameworkError status detail headers)) :
      LeavesTo app w s r (w.send app.origins r (w.ownAnswer status detail headers))
  | body {status : Nat} {detail : String} {headers : List (String × String)}
      (h : w.receive app.origins r = .endpoint .start)
      (hbody : w.bodyValue r = .error (.frameworkError status detail headers)) :
      LeavesTo app w s r (w.send app.origins r (w.ownAnswer status detail headers))
  | file {key : String} {a : HttpAnswer} (h : w.receive app.origins r = .endpoint (.file key))
      (hfile : (file w s r key).1 = .ok a) : LeavesTo app w s r (w.send app.origins r a)

variable {app : HttpApp} {w : WebFramework ρ} {s : Orchestrator} {r : ρ}

/-- What is left to the framework is answered so. -/
theorem LeavesTo.handle_eq {a : HttpAnswer} (h : app.LeavesTo w s r a) :
    (app.handle w s r).1 = a := by
  rw [handle]
  cases h with
  | received h => rw [h]
  | routing h =>
    rw [h]
    rfl
  | @body status detail headers h hbody =>
    have hrequest : exportRequest w r = .error (.frameworkError status detail headers) := by
      rw [exportRequest, hbody]
      rfl
    rw [h]
    simp only [serve, start, hrequest]
    rfl
  | @file key a h hfile =>
    have hserve : app.serve w s r (.file key) = (.ok a, (HttpApp.file w s r key).2) :=
      Prod.ext hfile rfl
    simp only [h, hserve]

/-- What is not left to the framework is told in the envelope. -/
theorem isProper_handle (h : ∀ a, ¬ app.LeavesTo w s r a) : (app.handle w s r).1.IsProper := by
  rw [handle]
  split
  · next hreceive => exact absurd (.received hreceive) (h _)
  · next x hreceive =>
    refine w.isProper_dispatch app.origins r ?_
    rintro status detail headers rfl
    exact h _ (.routing hreceive)
  · next e hreceive =>
    have hserved := meets_serve w s r app (e := e) fun hstart ⟨_, _, _, hbody⟩ =>
      h _ (.body (hstart ▸ hreceive) hbody)
    split
    · next a later heq =>
      rw [heq] at hserved
      obtain hproper | ⟨key, rfl⟩ := hserved
      · exact w.isProper_send app.origins r hproper
      · exact absurd (.file hreceive (congrArg (·.1) heq)) (h _)
    · next x later heq =>
      rw [heq] at hserved
      exact w.isProper_dispatch app.origins r hserved

/-- **Failures are told in the envelope** on any framework, whatever is asked and whatever has happened
before, if and only if the framework keeps to it in what is left to it. -/
theorem handle_isProper_iff (app : HttpApp) (w : WebFramework ρ) (s : Orchestrator) (r : ρ) :
    (app.handle w s r).1.IsProper ↔ ∀ a, app.LeavesTo w s r a → a.IsProper := by
  constructor
  · intro hproper a hleaves
    exact hleaves.handle_eq ▸ hproper
  · intro hall
    by_cases hleaves : ∃ a, app.LeavesTo w s r a
    · obtain ⟨a, ha⟩ := hleaves
      exact ha.handle_eq ▸ hall a ha
    · exact isProper_handle (not_exists.mp hleaves)

/-- **Where routing fails there is no envelope**, on a framework that tells of its own failures by a
bare detail. -/
theorem lacksEnvelope_of_raised (hdetail : w.ownAnswer = .ofDetail) {status : Nat}
    {detail : String} {headers : List (String × String)} (hstatus : 400 ≤ status)
    (hwrites : w.writes (.object [("detail", .text detail)]) = true)
    (hreceive : w.receive app.origins r = .raised (.frameworkError status detail headers)) :
    (app.handle w s r).1.LacksEnvelope := by
  have hleaves : app.LeavesTo w s r _ := .routing hreceive
  rw [hleaves.handle_eq, hdetail]
  exact w.lacksEnvelope_send app.origins r (HttpAnswer.lacksEnvelope_ofDetail hstatus _ _) hwrites

/-- An application that lets no browser in. -/
def plainApp : HttpApp := { origins := [], version := "0.1.0", time := fun _ => .null }

/-- An orchestrator that has just been started. -/
def newServer : Orchestrator :=
  .start {} { outside := { probe := fun _ => .notStarted "" }, storage := .directory ⟨[], ""⟩ }

/-- Asks for something where there is nothing. -/
def lostRequest : HttpRequest := { method := "GET", address := { path := "/nope" } }

/-- A path at which there is nothing is told of as a bare detail. -/
theorem lost_request_gets_no_envelope :
    (plainApp.handle .standard newServer lostRequest).1.status = 404 ∧
      (plainApp.handle .standard newServer lostRequest).1.body =
        .json (.object [("detail", .text "Not Found")]) ∧
      ¬ (plainApp.handle .standard newServer lostRequest).1.IsEnveloped := by
  have hpath : percentDecode lostRequest.address.path = "/nope" := by decide +kernel
  have hother : Endpoint.otherPath "/nope" = "/nope/" := by decide +kernel
  have hnone : Endpoint.ofPath? "/nope" = none := by
    simp +decide [Endpoint.ofPath?, String.splitOn, String.splitOnAux]
  have hnone' : Endpoint.ofPath? "/nope/" = none := by
    simp +decide [Endpoint.ofPath?, String.splitOn, String.splitOnAux]
  have hreceive : (WebFramework.standard []).receive plainApp.origins lostRequest =
      .raised (.frameworkError 404 "Not Found" []) := by
    change WebFramework.route [] [] lostRequest = _
    simp [WebFramework.route, hpath, hother, hnone, hnone', reasonPhrase]
  have hleaves : plainApp.LeavesTo .standard newServer lostRequest _ := .routing hreceive
  have hlacks := lacksEnvelope_of_raised (s := newServer) (w := .standard) rfl
    (by decide : 400 ≤ 404) (by decide) hreceive
  refine ⟨?_, ?_, fun h => hlacks.not_isProper fun _ => h⟩
  · rw [hleaves.handle_eq]
    rfl
  · rw [hleaves.handle_eq]
    rfl

end HttpApp

end TimelineExport
