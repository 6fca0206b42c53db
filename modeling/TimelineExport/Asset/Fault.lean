import TimelineExport.Error.Basic
import TimelineExport.Media.Probe
import TimelineExport.Net.Network
import TimelineExport.Net.Retry
import TimelineExport.Net.SourceUrl

/-!
# Failures of loading a source

A source that cannot be had is a failure of resolution, and an export may go on without the
elements that need it. Everything else that may go wrong while a source is loaded has a
constructor of its own, and ends the export.
-/

namespace TimelineExport

/-- Why a source was not loaded. -/
inductive AssetFault where
  | resolution (error : ExportError)
  | url (fault : UrlFault)
  | fetch (fault : FetchFault)
  | noAttempts
  /-- The wait before another attempt is no number. -/
  | waitOverflow
  | probe (fault : ProbeFault)
  deriving Repr

namespace AssetFault

/-- What a reader is told about a source that was not loaded. -/
def message : AssetFault → String
  | resolution e => e.message
  | url f => f.message
  | fetch f => f.message
  | noAttempts => noAttemptsMessage
  | waitOverflow => waitOverflowMessage
  | probe f => f.message

/-- The failure of resolution, if it is one. -/
def resolution? : AssetFault → Option ExportError
  | resolution e => some e
  | _ => none

end AssetFault

end TimelineExport
