import TimelineExport.Client.Fault
import TimelineExport.Job.Basic
import TimelineExport.Json.Access

/-!
# Waiting for a job

A poller looks at a job again and again until the job has ended, until it has looked as often as
it may, or until it is stopped. The wait before the next look depends on what was seen: it is
short at first and near the end, long while the job is queued or in the middle, and medium before
that. Whatever differs from the last look is reported.

That a poller gives up, or is stopped, says nothing about the job, so these endings differ from a
failure. A look that fails because the server or the connection does is passed over.

`poll` is given what each round brings, so what is shown of it holds of every course of events.
-/

namespace TimelineExport

/-- How long a poller waits and how often it looks. Waits are in seconds. -/
structure PollPolicy (α : Type) where
  shortWait : α
  mediumWait : α
  longWait : α
  /-- The longest time that is added at random. -/
  jitter : α
  /-- So many looks are followed by a short wait in any case. -/
  initialPolls : Int := 3
  /-- The progress from which on waits are short again. -/
  finalBand : Int := 90
  /-- The progress below which waits are medium. -/
  activeBand : Int := 10
  maxPolls : Int := 360
  /-- The part of the longest jitter that each wait gets. -/
  spread : Nat → α

/-- What a poller has read about a job. -/
structure JobSnapshot where
  status : Json
  progress : Int
  /-- Everything that was fetched. -/
  source : Json := .null

/-- What a poller reports. -/
inductive PollReport where
  | status (status : Json)
  | progress (progress : Int)

/-- How a poll ends. -/
inductive PollEnding where
  | completed (url : Json)
  | failed (error kind : Json)
  | unknownJob (id : String)
  /-- The job had not ended when the poller gave up. -/
  | timedOut
  /-- The poller was stopped. -/
  | stopped

/-- The result of a poll: how it ended, and after how many looks. -/
structure PollResult where
  ending : PollEnding
  polls : Int

/-- What a round brings: what is fetched, and whether the poller is stopped during the fetch or
during the wait after it. -/
structure PollRound where
  fetched : Except ClientFault Json
  stopsInFetch : Bool := false
  stopsInWait : Bool := false

/-- A poller on its way. -/
structure PollState (α : Type) where
  stopped : Bool := false
  lastStatus : Option Json := none
  lastProgress : Option Int := none
  polls : Nat := 0
  reports : List PollReport := []
  waits : List α := []

namespace JobSnapshot

/-- Reads what was fetched. A progress that is missing or empty is zero. -/
def read (job : Json) : Except ShapeFault JobSnapshot := do
  let status ← job.member "status"
  let progress := (job.member? "progress").getD .null
  return { status, source := job, progress := ← if progress.isTruthy then progress.toInteger
                                              else pure 0 }

/-- How a job that has ended has ended. -/
def ending? (s : JobSnapshot) : Except ShapeFault (Option PollEnding) :=
  let found (name : String) : Json := (s.source.member? name).getD .null
  match s.status with
  | .text "completed" => .ok (some (.completed (found "downloadUrl")))
  | .text "failed" =>
    let error := found "error"
    .ok (some (.failed (if error.isTruthy then error else .text "Export failed")
      (found "errorKind")))
  | .array _ | .object _ => .error (.wrongType ("unhashable type: '" ++ s.status.typeName ++ "'"))
  | _ => .ok none

end JobSnapshot

/-- Whether two statuses are the same; numbers are compared by value. -/
def sameStatus : Json → Json → Bool
  | .null, .null => true
  | .text a, .text b => a = b
  | a, b =>
    match a.number?, b.number? with
    | some x, some y => x = y
    | _, _ => false

namespace PollPolicy

/-- Reads a policy; what is not given has its usual value. -/
def ofJson (v : Json) (jitter : Float) (spread : Nat → Float) : PollPolicy Float :=
  let wait (name : String) := v.getOr name Json.asFloat
  let count (name : String) := v.getOr name Json.asInt
  { shortWait := wait "short_interval_s" 2, mediumWait := wait "medium_interval_s" 5
    longWait := wait "long_interval_s" 20, jitter := wait "jitter_s" jitter
    initialPolls := count "initial_polls" 3, finalBand := count "final_band_start" 90
    activeBand := count "active_band_start" 10, maxPolls := count "max_polls" 360, spread }

section
variable {α : Type} [Scalar α]

/-- The wait for what was seen, without jitter. -/
def baseWait (p : PollPolicy α) (progress : Int) (queued : Bool) (polls : Int)
    (unchanged : Bool) : α :=
  if polls < p.initialPolls then p.shortWait
  else if queued && unchanged then p.longWait
  else if p.finalBand ≤ progress then p.shortWait
  else if p.activeBand ≤ progress then p.longWait
  else p.mediumWait

/-- The wait for what was seen. -/
def wait (p : PollPolicy α) (progress : Int) (queued : Bool) (polls : Nat) (unchanged : Bool) :
    α :=
  p.baseWait progress queued polls unchanged +
    if 0 < p.jitter then p.spread polls * p.jitter else 0

end

end PollPolicy

namespace PollState

section
variable {α : Type} [Scalar α]

/-- Whether the last status is that of a job that waits. -/
def isQueued (s : Option Json) : Bool := match s with
  | some (.text status) => status = JobStatus.queued.name
  | _ => false

/-- Takes note of a snapshot, and reports what has changed. -/
def note (s : PollState α) (job : JobSnapshot) : PollState α :=
  let statusChanged := !sameStatus job.status (s.lastStatus.getD .null)
  { s with
    lastStatus := some job.status
    lastProgress := some job.progress
    reports := s.reports ++ (if statusChanged then [.status job.status] else []) ++
      (if s.lastProgress = some job.progress then [] else [.progress job.progress]) }

/-- Takes in what was fetched about a job. The poll may end, or fail, by it. -/
def take (s : PollState α) (id : String) (fetched : Except ClientFault Json) :
    Except ClientFault (Option PollEnding) × PollState α :=
  match fetched with
  | .error (.status code) =>
    if code = 404 then (.ok (some (.unknownJob id)), s)
    else if code < 500 then (.error (.status code), s)
    else (.ok none, s)
  | .error (.fetch (.transport ..)) => (.ok none, s)
  | .error fault => (.error fault, s)
  | .ok job =>
    match JobSnapshot.read job with
    | .error fault => (.error (.shape fault), s)
    | .ok job => (job.ending?.mapError .shape, s.note job)

/-- The result when no look is left. -/
def giveUp (p : PollPolicy α) (s : PollState α) : PollResult :=
  ⟨if s.stopped then .stopped else .timedOut, p.maxPolls⟩

/-- Looks at a job for the remaining times. -/
def pollFrom (p : PollPolicy α) (id : String) (round : Nat → PollRound) :
    (remaining : Nat) → PollState α → Except ClientFault PollResult × PollState α
  | 0, s => (.ok (giveUp p s), s)
  | remaining + 1, s =>
    if s.stopped then (.ok ⟨.stopped, s.polls⟩, s)
    else
      let r := round s.polls
      let wasQueued := isQueued s.lastStatus
      match { s with polls := s.polls + 1, stopped := r.stopsInFetch }.take id r.fetched with
      | (.error fault, s) => (.error fault, s)
      | (.ok (some ending), s) => (.ok ⟨ending, s.polls⟩, s)
      | (.ok none, s) =>
        if remaining = 0 then (.ok (giveUp p s), s)
        else
          let queued := isQueued s.lastStatus
          let wait := p.wait (s.lastProgress.getD 0) queued s.polls (queued && wasQueued)
          pollFrom p id round remaining
            { s with waits := s.waits ++ [wait], stopped := s.stopped || r.stopsInWait }

end

end PollState

/-- Polls a job until it has ended, by the rounds that happen. -/
def poll {α : Type} [Scalar α] (p : PollPolicy α) (id : String) (stopped : Bool)
    (round : Nat → PollRound) : Except ClientFault PollResult × PollState α :=
  PollState.pollFrom p id round p.maxPolls.toNat { stopped }

namespace PollResult

/-- What a reader is told about a poll that has not seen the end of a job. -/
def error (r : PollResult) : Json :=
  match r.ending with
  | .failed error _ => error
  | .unknownJob id => .text ("Export job not found: " ++ id)
  | .timedOut => .text ("Stopped polling after " ++ toString r.polls ++
      " attempts; the export may still be running")
  | .completed _ | .stopped => .null

/-- The kind of the error. -/
def errorKind (r : PollResult) : Json :=
  match r.ending with
  | .failed _ kind => kind
  | .unknownJob _ => .text ErrorKind.validation.name
  | .timedOut => .text ErrorKind.timeout.name
  | .completed _ | .stopped => .null

/-- Whether the job was completed. -/
def isSuccess (r : PollResult) : Bool := match r.ending with
  | .completed _ => true
  | _ => false

/-- Whether the poller gave up. -/
def isTimedOut (r : PollResult) : Bool := match r.ending with
  | .timedOut => true
  | _ => false

/-- Whether the poller was stopped. -/
def isCancelled (r : PollResult) : Bool := match r.ending with
  | .stopped => true
  | _ => false

/-- The result as an object. -/
def toJson (r : PollResult) : Json := .object [
  ("success", .bool r.isSuccess),
  ("download_url", match r.ending with
    | .completed url => url
    | _ => .null),
  ("error", r.error),
  ("error_kind", r.errorKind),
  ("timed_out", .bool r.isTimedOut),
  ("cancelled", .bool r.isCancelled),
  ("polls", .int r.polls)]

end PollResult

end TimelineExport
