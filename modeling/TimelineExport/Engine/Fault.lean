import TimelineExport.Error.Basic

/-!
# Failures of the render engine

A run of the engine fails because the program is missing, because it takes too long, because it
exits with a code other than zero, or because it leaves no output. These are failures of an
export. A run may also be abandoned: it was cancelled, someone who listened to its progress
raised, or it printed what cannot be read, a time that no number can hold or too long a line.
-/

namespace TimelineExport

/-- What a listener raises: a timeout or a cancellation of its own, or anything else. -/
inductive Raised where
  | timeout
  | cancelled
  | other (message : String)
  deriving DecidableEq, Repr

/-- Why a run of the engine did not give an output. -/
inductive EngineFault where
  | notFound (path : String)
  | timedOut (seconds : Int) (diagnostics : String)
  | failed (code : Int) (diagnostics : String)
  | noOutput (path : String)
  | elapsedTooLarge
  | lineTooLong (message : String)
  | listener (raised : Raised)
  | cancelled
  deriving DecidableEq, Repr

namespace EngineFault

/-- What a reader is told about a time that no number can hold. -/
def tooLargeMessage : String := "integer division result too large for a float"

/-- What a reader is told about a fault that is no failure of the export. -/
def message : EngineFault → String
  | elapsedTooLarge => tooLargeMessage
  | lineTooLong message | listener (.other message) => message
  | _ => ""

/-- The failure of the export, if the fault is one. -/
def exportError? : EngineFault → Option ExportError
  | notFound path => some (.engine ("ffmpeg not found: " ++ path))
  | timedOut seconds diagnostics =>
    some (.engine ("ffmpeg timed out after " ++ toString seconds ++ "s") diagnostics)
  | failed code diagnostics =>
    some (.engine ("ffmpeg exited with code " ++ toString code) diagnostics)
  | noOutput path => some (.engine ("ffmpeg produced no output at " ++ path))
  | _ => none

end EngineFault

end TimelineExport
