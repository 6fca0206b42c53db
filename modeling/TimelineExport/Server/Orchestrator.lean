import TimelineExport.Server.Supervision
import TimelineExport.Timeline.Validation

/-!
# The orchestrator

The orchestrator takes requests, gives each accepted one a job with a task, and hands out a
limited number of slots in the order in which tasks came to wait for one. Jobs can be looked up,
listed and cancelled; a submit forgets the jobs that ended long ago.

`Orchestrator.apply` says what happens at each event: what callers do, and the steps of the tasks
and of their exports, in any order. `Orchestrator.settle` is one such order.
-/

namespace TimelineExport

/-- All exports, the tasks that wait for a slot in their order, and the host. -/
structure Orchestrator where
  settings : ServiceSettings := {}
  host : Host
  now : Instant := 0
  /-- How many jobs there have been. -/
  issued : Nat := 0
  exports : List Supervised := []
  /-- The ids of the jobs whose tasks wait. -/
  queue : List String := []

/-- What happens around an orchestrator. -/
inductive OrchestratorEvent where
  | submit (request : ExportRequest)
  | cancel (id : String)
  | shutdown
  /-- The task of a job takes a step. -/
  | supervise (id : String)
  /-- The export of a job goes on. -/
  | work (id : String)
  /-- Something unforeseen happens to the export of a job, at whatever stage it is. -/
  | breakOff (id : String) (outcome : ExportOutcome)
  /-- The deadline of a job passes. -/
  | deadline (id : String)
  /-- The runs of the engine that wait are let go. -/
  | release
  /-- Time passes. -/
  | tick (microseconds : Nat)

/-- Why a submit gives no job. -/
inductive SubmitFault where
  /-- The timeline is not valid. -/
  | invalid (error : ExportError)
  /-- There is no moment as long ago as jobs are kept. -/
  | calendar (fault : CalendarFault)

namespace Orchestrator

/-- The orchestrator of a host. -/
def start (settings : ServiceSettings) (host : Host) : Orchestrator := { settings, host }

/-- The exports whose jobs are known, in the order in which they were submitted. -/
def knownExports (s : Orchestrator) : List Supervised := s.exports.filter (·.known)

/-- The export of a known job. -/
def export? (s : Orchestrator) (id : String) : Option Supervised :=
  s.knownExports.find? (·.id = id)

/-- The job of an id. -/
def job (s : Orchestrator) (id : String) : Except ExportError (Job Float) :=
  match s.export? id with
  | some t => .ok t.job
  | none => .error (.jobNotFound id)

/-- The known jobs, newest first; of two that were made at the same moment, the first one. -/
def jobs (s : Orchestrator) : List (Job Float) :=
  (s.knownExports.map (·.job)).mergeSort fun a b => b.createdAt ≤ a.createdAt

/-- How many tasks hold a slot. -/
def slotsHeld (s : Orchestrator) : Nat := s.exports.countP (·.phase.holdsSlot)

/-- Whether a slot is free. -/
def hasSlot (s : Orchestrator) : Bool := decide (Int.ofNat s.slotsHeld < s.settings.maxConcurrentJobs)

/-- Changes the export of a job. -/
def change (s : Orchestrator) (id : String) (f : Supervised → Supervised) : Orchestrator :=
  { s with exports := s.exports.map fun t => if t.id = id then f t else t }

/-- Gives a free slot to the task that has waited longest. -/
def grant (s : Orchestrator) : Orchestrator :=
  match s.queue with
  | [] => s
  | id :: rest =>
    if s.hasSlot then { s.change id fun t => { t with phase := .granted } with queue := rest }
    else s

/-- Whether a job has ended and was made before a moment. -/
def isExpired (cutoff : Instant) (t : Supervised) : Bool :=
  t.job.isTerminal && decide (t.job.createdAt < cutoff)

/-- Forgets the jobs that ended long ago, unless they are kept for ever. -/
def sweep (s : Orchestrator) : Except CalendarFault Orchestrator :=
  if s.settings.jobRetentionHours ≤ 0 then .ok s
  else do
    let cutoff ← s.now.hoursAgo s.settings.jobRetentionHours
    return { s with exports := s.exports.map fun t =>
      { t with known := t.known && !isExpired cutoff t } }

/-- The id of the next job. -/
def nextId (s : Orchestrator) : String := "job-" ++ toString (s.issued + 1)

/-- The job of a request that is taken. -/
def newJob (s : Orchestrator) (request : ExportRequest) : Job Float where
  id := s.nextId
  settings := request.settings
  durationMs := outputDuration request.clips
  createdAt := s.now

/-- Takes a request. If the timeline is not valid there is no job, and none either if the moment
is not to be found before which jobs are forgotten; otherwise the id of the new one is given. -/
def submit (s : Orchestrator) (request : ExportRequest) :
    Except SubmitFault String × Orchestrator :=
  match validate request.clips request.tracks request.settings with
  | .error fault => (.error (.invalid fault.toError), s)
  | .ok () =>
    match s.sweep with
    | .error fault => (.error (.calendar fault), s)
    | .ok s =>
      let job := s.newJob request
      (.ok job.id,
        { s with issued := s.issued + 1
                 exports := s.exports ++ [{ execution := { job, request } }] })

/-- Asks the task of a job to cancel. A job that has ended, or whose task has, is not cancelled. -/
def cancel (s : Orchestrator) (id : String) : Except ExportError Bool × Orchestrator :=
  match s.export? id with
  | none => (.error (.jobNotFound id), s)
  | some t =>
    if t.job.isTerminal || t.phase = .ended then (.ok false, s)
    else (.ok true, s.change id fun t => { t with asked := true })

/-- Asks all tasks to cancel. -/
def shutdown (s : Orchestrator) : Orchestrator :=
  { s with exports := s.exports.map fun t => if t.phase = .ended then t else { t with asked := true } }

/-- Whether a task may take a slot without waiting. -/
def mayEnter (s : Orchestrator) : Bool := s.hasSlot && s.queue.isEmpty

/-- The task of a job takes a step. A task that comes to wait stands last; one that ends makes
room for the first. -/
def supervise (s : Orchestrator) (id : String) : Orchestrator :=
  match s.exports.find? (·.id = id) with
  | none => s
  | some t =>
    let (host, later) := t.step s.settings s.now s.mayEnter s.host
    let s := { s.change id fun _ => later with host }
    let queue := if later.phase = .waiting ∧ t.phase ≠ .waiting then s.queue ++ [id]
      else if later.phase = .waiting then s.queue else s.queue.filter (· ≠ id)
    let s := { s with queue }
    if later.phase = .ended then s.grant else s

/-- The export of a job is carried on. -/
def carry (s : Orchestrator) (id : String) (f : Host → Supervised → Host × Supervised) :
    Orchestrator :=
  match s.exports.find? (·.id = id) with
  | none => s
  | some t =>
    let (host, later) := f s.host t
    { s.change id fun _ => later with host }

/-- What happens at an event. -/
def apply (s : Orchestrator) : OrchestratorEvent → Orchestrator
  | .submit request => (s.submit request).2
  | .cancel id => (s.cancel id).2
  | .shutdown => s.shutdown
  | .supervise id => s.supervise id
  | .work id => s.carry id (Supervised.work s.settings s.now)
  | .breakOff id outcome => s.carry id (Supervised.breakOff s.settings outcome)
  | .deadline id => s.change id fun t => { t with overdue := true }
  | .release => { s with host := { s.host with released := true } }
  | .tick microseconds => { s with now := s.now.later microseconds }

/-- The orchestrator after a list of events. -/
def run (s : Orchestrator) (events : List OrchestratorEvent) : Orchestrator := events.foldl apply s

/-- The steps in which one job goes as far as it can. No job needs more. -/
def stepsOf (id : String) : List OrchestratorEvent :=
  (List.replicate 12 [OrchestratorEvent.supervise id, .work id]).flatten

/-- Lets every job go as far as it can, one after another in the order in which they were
submitted. -/
def settle (s : Orchestrator) : Orchestrator := s.run (s.exports.flatMap fun t => stepsOf t.id)

end Orchestrator

end TimelineExport
