import TimelineExport.Error.Code
import TimelineExport.Number.Notation

/-!
# Failures of an export

`ExportError` is a failure with its code, its message and, where there is one, the place in the
timeline that it concerns. `ErrorSort` lists the sorts of failure; each has a code, a status for
HTTP answers and a message of its own. The constructors below the type build the failures that
arise while an export is validated, prepared and run, and are the only place where their
messages are worded.
-/

namespace TimelineExport

/-- The sorts of failure. -/
inductive ErrorSort where
  | general
  | invalidTimeline
  | emptyTimeline
  | invalidTimeRange
  | trackNotFound
  | clipOverlap
  | speedMismatch
  | unsupportedSpeed
  | missingSource
  | asset
  | cacheFull
  | engine
  | overlay
  | storage
  | timeout
  | cancelled
  | jobNotFound
  | jobNotCompleted
  | jobTransition
  deriving DecidableEq, Repr

namespace ErrorSort

/-- All sorts. -/
def all : List ErrorSort :=
  [general, invalidTimeline, emptyTimeline, invalidTimeRange, trackNotFound, clipOverlap,
    speedMismatch, unsupportedSpeed, missingSource, asset, cacheFull, engine, overlay, storage,
    timeout, cancelled, jobNotFound, jobNotCompleted, jobTransition]

/-- The name of a sort. -/
def name : ErrorSort → String
  | general => "Export"
  | invalidTimeline => "TimelineValidation"
  | emptyTimeline => "EmptyTimeline"
  | invalidTimeRange => "InvalidTimeRange"
  | trackNotFound => "TrackNotFound"
  | clipOverlap => "ClipOverlap"
  | speedMismatch => "SpeedMismatch"
  | unsupportedSpeed => "UnsupportedSpeed"
  | missingSource => "MissingSource"
  | asset => "AssetResolution"
  | cacheFull => "AssetCacheFull"
  | engine => "RenderEngine"
  | overlay => "OverlayRender"
  | storage => "Storage"
  | timeout => "ExportTimeout"
  | cancelled => "ExportCancelled"
  | jobNotFound => "JobNotFound"
  | jobNotCompleted => "JobNotCompleted"
  | jobTransition => "InvalidJobTransition"

/-- The code of a sort. -/
def code : ErrorSort → String
  | general => "INTERNAL_ERROR"
  | invalidTimeline => "VALIDATION_ERROR"
  | emptyTimeline => "EMPTY_TIMELINE"
  | invalidTimeRange => "INVALID_TIME_RANGE"
  | trackNotFound => "TRACK_NOT_FOUND"
  | clipOverlap => "CLIP_OVERLAP"
  | speedMismatch => "SPEED_MISMATCH"
  | unsupportedSpeed => "UNSUPPORTED_SPEED"
  | missingSource => "MISSING_SOURCE"
  | asset => "ASSET_UNREACHABLE"
  | cacheFull => "ASSET_CACHE_FULL"
  | engine => "RENDER_ENGINE_FAILED"
  | overlay => "OVERLAY_RENDER_FAILED"
  | storage => "STORAGE_ERROR"
  | timeout => "EXPORT_TIMEOUT"
  | cancelled => "EXPORT_CANCELLED"
  | jobNotFound => "JOB_NOT_FOUND"
  | jobNotCompleted => "JOB_NOT_COMPLETED"
  | jobTransition => "INVALID_JOB_TRANSITION"

/-- The HTTP status of a sort. -/
def status : ErrorSort → Nat
  | general | engine | overlay => 500
  | asset => 502
  | storage => 503
  | timeout => 504
  | cacheFull => 507
  | cancelled | jobTransition => 409
  | jobNotFound => 404
  | _ => 400

/-- The message of a sort when nothing more is known. -/
def defaultMessage : ErrorSort → String
  | general => "An unexpected error occurred"
  | invalidTimeline => "Timeline validation failed"
  | emptyTimeline => "Timeline has no elements to export"
  | invalidTimeRange => "Invalid time range"
  | trackNotFound => "Track not found"
  | clipOverlap => "Clips overlap on the same track"
  | speedMismatch => "Source range does not match timeline duration and speed"
  | unsupportedSpeed => "Playback speed outside the supported range"
  | missingSource => "Element has no source"
  | asset | cacheFull => "Asset could not be resolved"
  | engine => "Render engine failed"
  | overlay => "Overlay rendering failed"
  | storage => "Storage operation failed"
  | timeout => "Export timed out"
  | cancelled => "Cancelled by user"
  | jobNotFound => "Export job not found"
  | jobNotCompleted => "Export job is not completed"
  | jobTransition => "Invalid job state transition"

end ErrorSort

/-- The place in a timeline that a failure concerns. -/
structure ErrorLocation where
  field : Option String := none
  elementId : Option String := none
  trackId : Option String := none
  timeMs : Option Float := none
  deriving Repr

/-- A failure of an export. -/
structure ExportError where
  sort : ErrorSort
  message : String
  code : String
  status : Nat
  location : Option ErrorLocation := none
  suggestedFix : Option String := none
  deriving Repr

namespace ExportError

/-- A failure of a sort, with the sort's own message if none is given. -/
def ofSort (sort : ErrorSort) (message : String := "") (location : Option ErrorLocation := none) :
    ExportError :=
  { sort, code := sort.code, status := sort.status, location
    message := if message = "" then sort.defaultMessage else message }

/-- The kind under which a failure is reported. -/
def kind (e : ExportError) : ErrorKind := (CodeSpec.ofCode e.code).kind

/-! ### Failures of a timeline -/

/-- An element's times are malformed. -/
def invalidTimeRange (element detail : String) : ExportError :=
  ofSort .invalidTimeRange ("Element " ++ element ++ ": " ++ detail)
    (some { elementId := some element })

/-- An element is on no listed track. -/
def trackNotFound (element track : String) : ExportError :=
  ofSort .trackNotFound ("Element " ++ element ++ " references unknown track: " ++ track)
    (some { elementId := some element, trackId := some track })

/-- Two clips of one track overlap. -/
def clipOverlap (track first second : String) (overlapMs : Float) : ExportError :=
  ofSort .clipOverlap
    ("Clips " ++ first ++ " and " ++ second ++ " overlap by " ++ generalText overlapMs ++
      "ms on track " ++ track)
    (some { elementId := some second, trackId := some track })

/-- A source range disagrees with the span that it has to fill. -/
def speedMismatch (element : String) (expectedMs actualMs : Float) : ExportError :=
  ofSort .speedMismatch
    ("Element " ++ element ++ ": source range is " ++ generalText actualMs ++ "ms, expected " ++
      generalText expectedMs ++ "ms")
    (some { elementId := some element, field := some "sourceEndMs" })

/-- A speed cannot be played. -/
def unsupportedSpeed (element : String) (speed low high : Float) : ExportError :=
  ofSort .unsupportedSpeed
    ("Element " ++ element ++ ": speed " ++ generalText speed ++ " is outside [" ++
      generalText low ++ ", " ++ generalText high ++ "]")
    (some { elementId := some element, field := some "speed" })

/-- An element that needs a source has none. -/
def missingSource (element : String) : ExportError :=
  ofSort .missingSource ("Element " ++ element ++ " has no source")
    (some { elementId := some element, field := some "source" })

/-! ### Failures of assets, engine and jobs -/

/-- The message about a source that could not be had. -/
def assetMessage (source detail : String) : String :=
  "Asset could not be resolved: " ++ source ++ (if detail = "" then "" else " (" ++ detail ++ ")")

/-- A source could not be fetched. -/
def asset (source detail : String) : ExportError := ofSort .asset (assetMessage source detail)

/-- A source was fetched but is no media. -/
def unreadableAsset (source detail : String) : ExportError :=
  { asset source detail with code := "ASSET_UNREADABLE" }

/-- A source does not fit into the cache. -/
def cacheFull (source limit : String) : ExportError :=
  ofSort .cacheFull (assetMessage source ("asset cache full: " ++ limit))

/-- The render engine failed; the end of its diagnostics is appended. -/
def engine (message : String) (diagnostics : String := "") : ExportError :=
  ofSort .engine
    (if message ≠ "" ∧ diagnostics ≠ "" then message ++ ": " ++ diagnostics else message)

/-- The overlay pass was abandoned. -/
def overlay (message : String) : ExportError := ofSort .overlay message

/-- Durable storage failed. -/
def storage (message : String) : ExportError := ofSort .storage message

/-- There is no such job. -/
def jobNotFound (id : String) : ExportError :=
  ofSort .jobNotFound (if id = "" then "" else "Export job not found: " ++ id)

/-- A job cannot move from one status to another. -/
def jobTransition (id current target : String) : ExportError :=
  ofSort .jobTransition ("Job " ++ id ++ " cannot move from " ++ current ++ " to " ++ target)

end ExportError

end TimelineExport
