import TimelineExport.Server.Stage

/-!
# Supervision of an export

Each export is supervised by a task of its own. The task waits for one of a limited number of
slots, lets the export run under a deadline, and records how it ended. It can be asked to cancel
at any moment, and notices that at its next step: a task that has not begun ends without a trace,
one that waits for a slot fails its job, and one whose export runs cancels the export and waits
until that has cleaned up. If it is asked again while it waits, it waits no longer.

`Supervised.step` is one step of the task. It says whether a slot is free, and takes none by
itself; who gets a slot next is up to the orchestrator.
-/

namespace TimelineExport

/-- Why an export was cancelled. -/
inductive CancelReason where
  | asked
  | deadline
  deriving DecidableEq, Repr

/-- How far the task of an export is. -/
inductive TaskPhase where
  /-- The task has not begun. -/
  | created
  /-- The task waits for a slot. -/
  | waiting
  /-- The task was given a slot. -/
  | granted
  /-- The export runs. -/
  | running
  /-- The export was cancelled and cleans up. -/
  | cancelling (reason : CancelReason)
  | ended
  deriving DecidableEq, Repr

namespace TaskPhase

/-- Whether a task holds a slot. -/
def holdsSlot : TaskPhase → Bool
  | granted | running | cancelling _ => true
  | _ => false

end TaskPhase

/-- An export with its task. -/
structure Supervised where
  execution : Execution
  phase : TaskPhase := .created
  /-- Whether the task was asked to cancel and has not noticed it yet. -/
  asked : Bool := false
  /-- Whether the deadline has passed. -/
  overdue : Bool := false
  /-- Whether the job is known; a job that ended long ago is forgotten. -/
  known : Bool := true

namespace Supervised

/-- The job of an export. -/
def job (t : Supervised) : Job Float := t.execution.job

/-- The id of the job. -/
def id (t : Supervised) : String := t.job.id

/-- Fails the job unless it has ended. -/
def failJob (now : Instant) (error : ExportError) (t : Supervised) : Supervised :=
  match t.job.markFailed now error.message error.kind.name with
  | .ok job => { t with execution := { t.execution with job } }
  | .error _ => t

/-- Ends the task. -/
def conclude (t : Supervised) : Supervised := { t with phase := .ended, asked := false }

/-- Ends the task because it was asked to cancel. -/
def giveUp (now : Instant) (t : Supervised) : Supervised :=
  (t.failJob now (.ofSort .cancelled)).conclude

/-- Ends the task of an export that has ended. -/
def settleOutcome (settings : ServiceSettings) (now : Instant) (reason : Option CancelReason)
    (outcome : ExportOutcome) (t : Supervised) : Supervised :=
  match reason, outcome with
  | some .asked, _ => t.giveUp now
  | _, .completed => t.conclude
  | _, .failed failure => (t.failJob now (failure.toError settings)).conclude
  | some .deadline, .cancelled => (t.failJob now settings.overdueError).conclude
  | none, .cancelled => t.giveUp now

/-- Lets the export run. Without any time the export ends before it begins. -/
def enter (settings : ServiceSettings) (t : Supervised) : Supervised :=
  if settings.jobTimeoutS ≤ 0 then
    { t with phase := .cancelling .deadline
             execution := { t.execution with stage := .ended .cancelled } }
  else { t with phase := .running }

/-- Cancels the export and waits for it. -/
def cancelExecution (reason : CancelReason) (h : Host) (t : Supervised) : Host × Supervised :=
  let (h, execution) := t.execution.cancel h
  (h, { t with execution, phase := .cancelling reason, asked := false })

/-- One step of the task, which may take a slot if one is free. -/
def step (settings : ServiceSettings) (now : Instant) (slotFree : Bool) (h : Host)
    (t : Supervised) : Host × Supervised :=
  match t.phase, t.execution.stage with
  | .created, _ =>
    if t.asked then (h, t.conclude)
    else if slotFree then (h, t.enter settings)
    else (h, { t with phase := .waiting })
  | .waiting, _ => if t.asked then (h, t.giveUp now) else (h, t)
  | .granted, _ => if t.asked then (h, t.giveUp now) else (h, t.enter settings)
  | .running, .ended outcome => (h, t.settleOutcome settings now none outcome)
  | .running, _ =>
    if t.asked then t.cancelExecution .asked h
    else if t.overdue then t.cancelExecution .deadline h
    else (h, t)
  | .cancelling reason, .ended outcome =>
    if t.asked then (h, t.giveUp now)
    else (h, t.settleOutcome settings now (some reason) outcome)
  | .cancelling _, _ => if t.asked then (h, t.giveUp now) else (h, t)
  | .ended, _ => (h, t)

/-- Carries the export on, if it has been let run. It may go on after its task has ended, but does
not begin then. -/
def carry (f : Host → Execution → Host × Execution) (h : Host) (t : Supervised) :
    Host × Supervised :=
  match t.phase, t.execution.stage with
  | .created, _ | .waiting, _ | .granted, _ | .ended, .ready => (h, t)
  | _, _ =>
    let (h, execution) := f h t.execution
    (h, { t with execution })

/-- One step of the export itself. -/
def work (settings : ServiceSettings) (now : Instant) (h : Host) (t : Supervised) :
    Host × Supervised :=
  t.carry (Execution.step settings now) h

/-- The export breaks off. -/
def breakOff (settings : ServiceSettings) (outcome : ExportOutcome) (h : Host) (t : Supervised) :
    Host × Supervised :=
  t.carry (Execution.breakOff settings outcome) h

end Supervised

end TimelineExport
