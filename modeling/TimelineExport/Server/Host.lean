import TimelineExport.Asset.Resolve
import TimelineExport.Engine.Script
import TimelineExport.Files.Stored
import TimelineExport.Service.Settings
import TimelineExport.Storage.Cloud
import TimelineExport.Storage.Local
import TimelineExport.Words.CellPainter

/-!
# The host of a server

What exports share on the machine they run on: its files, what is outside, the runs of the
engine, the storage for results, and what paints pictures and measures words. Which scripts the
engine follows, what the network and the probe program answer and what is painted is arbitrary, so
whatever is shown of every host covers every course that stages can take.
-/

namespace TimelineExport

/-- Where results are kept. -/
inductive ResultStorage where
  | directory (s : LocalStorage)
  | bucket (cloud : Cloud) (s : BucketStorage)

/-- The machine that exports run on. -/
structure Host where
  /-- The place from which relative paths are seen. -/
  cwd : Place := []
  files : FileTree StoredFile := {}
  outside : Outside StoredFile
  storage : ResultStorage
  painter : Painter Float := .cells Float.sqrt
  face : Typeface Float := .cells
  /-- What the next runs of the engine are going to do. -/
  engines : List EngineScript := []
  /-- Whether runs that wait have been let go. -/
  released : Bool := false
  /-- The command lines of all runs. -/
  commands : List (List String) := []
  /-- How many runs were killed. -/
  killed : Nat := 0

/-- Why an export failed: with a failure of its own, because something it waited for took too long,
or with a failure that nobody expected. -/
inductive ExportFailure where
  | reported (error : ExportError)
  | timedOut
  | unexpected (message : String)
  deriving Repr

/-- The failure of an export that took too long. -/
def ServiceSettings.overdueError (settings : ServiceSettings) : ExportError :=
  .ofSort .timeout ("Export exceeded " ++ toString settings.jobTimeoutS ++ "s")

/-- The failure as it is reported. -/
def ExportFailure.toError (settings : ServiceSettings) : ExportFailure → ExportError
  | reported error => error
  | timedOut => settings.overdueError
  | unexpected message => .engine ("Unexpected export failure: " ++ message)

/-- The type of the results. -/
def videoContentType : String := "video/mp4"

namespace Host

/-- The failure of a storage in a directory. -/
def storageFailure : StorageFault → ExportFailure
  | .storage error => .reported error
  | .files fault => .unexpected fault.message

/-- Puts a file into the storage under a key. -/
def store (h : Host) (path key : String) : Except ExportFailure Unit × Host :=
  match h.storage with
  | .directory s =>
    let (result, files) := s.upload h.files h.cwd path key
    (match result with
      | .ok _ => .ok ()
      | .error fault => .error (storageFailure fault), { h with files })
  | .bucket cloud s =>
    let (result, s) := s.upload cloud path key (some videoContentType)
    (match result with
      | .ok _ => .ok ()
      | .error error => .error (.reported error), { h with storage := .bucket cloud s })

/-- The URL under which a key can be downloaded for some hours. -/
def resultUrl (h : Host) (key : String) (hours : Int) : Except ExportFailure String × Host :=
  match h.storage with
  | .directory s => (.ok (s.url key), h)
  | .bucket cloud s =>
    let (result, s) := s.signedUrl cloud key hours
    (result.mapError .reported, { h with storage := .bucket cloud s })

end Host

end TimelineExport
