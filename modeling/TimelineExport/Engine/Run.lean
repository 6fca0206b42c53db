import TimelineExport.Engine.Progress
import TimelineExport.Text.Blank

/-!
# Runs of the render engine

A run is followed through its events: lines on the two streams of the process, the end of the
streams, the exit of the process, the deadline, and cancellation. `EngineRun.step` says what a
run does at each event; whatever comes after its end is ignored. What a listener hears is the
list of reports, and a listener may raise at any report, which ends the run. A timeout or a
cancellation that it raises while lines are read is taken for one of the run.

At most one report is made for each hundredth of the output, and a last one when the output has
been checked. Of the diagnostics the last forty lines are kept.
-/

namespace TimelineExport

/-- What became of the process. -/
inductive ProcessState where
  | running
  | exited (code : Int)
  | killed
  deriving DecidableEq, Repr

/-- What a listener hears of a run. -/
inductive EngineReport (α : Type) where
  | started
  | progress (fraction : α)
  deriving Repr

/-- A listener: what it raises, if anything, given all reports so far. -/
abbrev EngineListener (α : Type) := List (EngineReport α) → Option Raised

/-- What happens to a run. -/
inductive EngineEvent where
  /-- A line of progress. -/
  | output (line : String)
  /-- A line of diagnostics. -/
  | diagnostic (line : String)
  /-- A line that is longer than the reader of its stream takes. -/
  | overrun (message : String)
  /-- Both streams have come to their ends. -/
  | streamsEnd
  /-- The process has exited; the size of the output, if there is one. -/
  | exit (code : Int) (outputBytes : Option Nat)
  | deadline
  | cancel
  deriving DecidableEq, Repr

/-- What a run was asked for: the output's duration and path, the deadline, and the listener. -/
structure EngineTask (α : Type) where
  durationMs : α
  outputPath : String
  timeoutS : Int
  listener : Option (EngineListener α) := none

/-- A run of the engine. -/
structure EngineRun (α : Type) where
  process : ProcessState := .running
  outputBytes : Option Nat := none
  reading : Bool := true
  reports : List (EngineReport α) := []
  lastReported : α
  diagnostics : List String := []
  result : Option (Except EngineFault Unit) := none
  deriving Repr

/-- The greatest number of lines of diagnostics that are kept. -/
def diagnosticLines : Nat := 40

/-- The least step between two reports. -/
def reportStep {α : Type} [Scalar α] : α := 0.01

namespace EngineRun

section
variable {α : Type} [Scalar α]

/-- Ends a run. -/
def finish (result : Except EngineFault Unit) (r : EngineRun α) : EngineRun α :=
  { r with result := some result }

/-- The kept diagnostics as one text. -/
def diagnosticText (r : EngineRun α) : String := "\n".intercalate r.diagnostics

/-- Kills the process unless it has exited. -/
def kill (r : EngineRun α) : EngineRun α :=
  match r.process with
  | .running => { r with process := .killed }
  | _ => r

/-- Ends a run that takes too long. -/
def timeOut (task : EngineTask α) (r : EngineRun α) : EngineRun α :=
  r.kill.finish (.error (.timedOut task.timeoutS r.diagnosticText))

/-- Ends a run that is cancelled. -/
def cancel (r : EngineRun α) : EngineRun α := r.kill.finish (.error .cancelled)

/-- Ends a run whose listener raised. -/
def abandon (raised : Raised) (r : EngineRun α) : EngineRun α :=
  r.finish (.error (.listener raised))

/-- Ends a run whose listener raised while lines were read. -/
def interrupt (task : EngineTask α) (raised : Raised) (r : EngineRun α) : EngineRun α :=
  match raised with
  | .timeout => r.timeOut task
  | .cancelled => r.cancel
  | .other _ => r.abandon raised

/-- Makes a report. If the listener raises, the run ends in the given way. -/
def report (task : EngineTask α) (ending : Raised → EngineRun α → EngineRun α)
    (entry : EngineReport α) (r : EngineRun α) : EngineRun α :=
  match task.listener with
  | none => r
  | some raises =>
    let r := { r with reports := r.reports ++ [entry] }
    match raises r.reports with
    | none => r
    | some raised => ending raised r

/-- A run whose process has been started. -/
def start (task : EngineTask α) : EngineRun α :=
  report task abandon .started { lastReported := -1 }

/-- Takes a line of progress. A fraction is reported if it is a step above the last one. -/
def readOutput (task : EngineTask α) (line : String) (r : EngineRun α) : EngineRun α :=
  match readProgress task.durationMs (trimText line) with
  | .error fault => r.finish (.error fault)
  | .ok none => r
  | .ok (some fraction) =>
    if task.listener.isSome ∧ r.lastReported + reportStep ≤ fraction then
      report task (interrupt task) (.progress fraction) { r with lastReported := fraction }
    else r

/-- Takes a line of diagnostics; blank ones are dropped. -/
def readDiagnostic (line : String) (r : EngineRun α) : EngineRun α :=
  let line := trimTextEnd line
  if line = "" then r
  else
    let lines := r.diagnostics ++ [line]
    { r with diagnostics := lines.drop (lines.length - diagnosticLines) }

/-- Ends a run whose streams have ended and whose process has exited. -/
def conclude (task : EngineTask α) (r : EngineRun α) : EngineRun α :=
  match r.reading, r.result, r.process with
  | false, none, .exited code =>
    if code ≠ 0 then r.finish (.error (.failed code r.diagnosticText))
    else if r.outputBytes.getD 0 = 0 then r.finish (.error (.noOutput task.outputPath))
    else
      let r := report task abandon (.progress 1) r
      if r.result.isSome then r else r.finish (.ok ())
  | _, _, _ => r

/-- What a run does at an event. After its end nothing changes but that the process may exit. -/
def step (task : EngineTask α) (r : EngineRun α) (event : EngineEvent) : EngineRun α :=
  match r.result, event with
  | _, .exit code size =>
    if r.process = .running then
      conclude task { r with process := .exited code, outputBytes := size }
    else r
  | some _, _ => r
  | none, .output line => if r.reading then r.readOutput task line else r
  | none, .diagnostic line => if r.reading then r.readDiagnostic line else r
  | none, .overrun message => if r.reading then r.finish (.error (.lineTooLong message)) else r
  | none, .streamsEnd => conclude task { r with reading := false }
  | none, .deadline => if r.reading then r.timeOut task else r
  | none, .cancel => r.cancel

/-- A run after a list of events. -/
def run (task : EngineTask α) (r : EngineRun α) (events : List EngineEvent) : EngineRun α :=
  events.foldl (step task) r

end

end EngineRun

end TimelineExport
