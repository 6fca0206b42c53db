import TimelineExport.Error.Basic
import TimelineExport.Export.Settings
import TimelineExport.Job.Calendar
import TimelineExport.Number.Scalar

/-!
# Jobs

A job is one export that was asked for. It is queued, then processed, and ends completed or
failed; a queued one may fail at once. Every change of a job is one of the operations below,
which either gives the changed job or says why it is not allowed.

Progress is a whole number of percent. It only grows, stays below 100 until the job is
completed, and stands still afterwards.
-/

namespace TimelineExport

/-- The statuses of a job. `downloading` is what a client shows while it fetches the result. -/
inductive JobStatus where
  | queued
  | processing
  | completed
  | failed
  | downloading
  deriving DecidableEq, Repr

namespace JobStatus

/-- The name of a status. -/
def name : JobStatus → String
  | queued => "queued"
  | processing => "processing"
  | completed => "completed"
  | failed => "failed"
  | downloading => "downloading"

/-- Whether a job with the status has ended. -/
def isTerminal : JobStatus → Bool
  | completed | failed => true
  | _ => false

/-- Whether a job may move from one status to another. -/
def allows : JobStatus → JobStatus → Bool
  | queued, processing | queued, failed | processing, completed | processing, failed => true
  | _, _ => false

end JobStatus

/-- An export that was asked for. -/
structure Job (α : Type) where
  id : String
  settings : ExportSettings := {}
  durationMs : α
  status : JobStatus := .queued
  progress : Nat := 0
  stage : Option String := some "queued"
  error : Option String := none
  errorKind : Option String := none
  downloadUrl : Option String := none
  warnings : List String := []
  createdAt : Instant
  startedAt : Option Instant := none
  completedAt : Option Instant := none

/-- Why a job cannot be changed. -/
inductive JobFault where
  | transition (id : String) (current target : JobStatus)
  | emptyUrl
  deriving DecidableEq, Repr

/-- The failure that a fault is reported as; a missing URL has none of its own. -/
def JobFault.exportError? : JobFault → Option ExportError
  | transition id current target => some (.jobTransition id current.name target.name)
  | emptyUrl => none

/-- What a reader is told about a change that is not allowed. -/
def JobFault.message : JobFault → String
  | transition id current target => (ExportError.jobTransition id current.name target.name).message
  | emptyUrl => "a completed job needs a download URL"

/-- The number of whole percents that a value has reached, at most 99. What is not below 99
counts as 99. -/
def percentOf {α : Type} [Scalar α] (x : α) : Nat :=
  if x < 99 then ((List.range 99).filter fun n : Nat => decide (Scalar.ofInt (n + 1) ≤ x)).length
  else 99

namespace Job

variable {α : Type}

/-- Whether the job has ended. -/
def isTerminal (j : Job α) : Bool := j.status.isTerminal

/-- Moves a job to another status. -/
def moveTo (target : JobStatus) (j : Job α) : Except JobFault (Job α) :=
  if j.status.allows target then .ok { j with status := target }
  else .error (.transition j.id j.status target)

/-- Takes note that the engine has started. -/
def markProcessing (now : Instant) (j : Job α) : Except JobFault (Job α) := do
  let j ← j.moveTo .processing
  return { j with startedAt := some now, stage := some "rendering" }

/-- Raises the progress, and sets the stage if one is given. A value below the present progress
does not lower it, and a job that has ended is not changed. -/
def updateProgress [Scalar α] (value : α) (stage : Option String) (j : Job α) : Job α :=
  if j.isTerminal then j
  else
    { j with
      progress := max j.progress (percentOf value)
      stage := (stage.filter (· ≠ "")).or j.stage }

/-- Sets the stage of a job that has not ended. -/
def setStage (stage : String) (j : Job α) : Job α :=
  if j.isTerminal then j else { j with stage := some stage }

/-- Adds a warning. -/
def addWarning (message : String) (j : Job α) : Job α :=
  { j with warnings := j.warnings ++ [message] }

/-- Ends a job whose result is at a URL. -/
def markCompleted (now : Instant) (url : String) (j : Job α) : Except JobFault (Job α) :=
  if url = "" then .error .emptyUrl
  else do
    let j ← j.moveTo .completed
    return { j with progress := 100, stage := some "completed", downloadUrl := some url
                    completedAt := some now }

/-- Ends a job that failed. An empty message is replaced by the kind of the failure. -/
def markFailed (now : Instant) (error kind : String) (j : Job α) : Except JobFault (Job α) := do
  let j ← j.moveTo .failed
  let message := if error = "" then "Export failed (" ++ kind ++ ")" else error
  return { j with error := some message, errorKind := some kind, stage := some "failed"
                  completedAt := some now }

end Job

end TimelineExport
