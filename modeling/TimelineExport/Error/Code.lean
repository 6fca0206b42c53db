import TimelineExport.Json.Value

/-!
# Error codes

Every failure carries a machine-readable code. The code decides under which kind the failure is
reported, whether a caller may try again, and what the caller is advised to do. A code that is
not in the table counts as an internal failure that is not worth a second try.
-/

namespace TimelineExport

/-- The kinds under which failures are reported. -/
inductive ErrorKind where
  | validation
  | assetResolution
  | renderEngine
  | timeout
  | cancelled
  | internal
  deriving DecidableEq, Repr

/-- The name of a kind. -/
def ErrorKind.name : ErrorKind → String
  | validation => "validation"
  | assetResolution => "asset-resolution"
  | renderEngine => "render-engine"
  | timeout => "timeout"
  | cancelled => "cancelled"
  | internal => "internal"

/-- What a code says about a failure. -/
structure CodeSpec where
  kind : ErrorKind
  retryable : Bool := false
  suggestedFix : Option String := none
  parameters : List (String × Json) := []

namespace CodeSpec

/-- A failure that may be tried again after a delay. -/
def retryAfter (kind : ErrorKind) (delayMs retries : Int) : CodeSpec :=
  { kind, retryable := true
    parameters := [("delay_ms", .int delayMs), ("max_retries", .int retries)] }

/-- A failure of the request itself, with advice. -/
def advice (text : String) : CodeSpec := { kind := .validation, suggestedFix := some text }

/-- All codes. -/
def table : List (String × CodeSpec) := [
  ("VALIDATION_ERROR", { kind := .validation }),
  ("EMPTY_TIMELINE", advice "Add at least one element to the timeline before exporting"),
  ("INVALID_TIME_RANGE", advice "timelineEndMs must be greater than timelineStartMs"),
  ("TRACK_NOT_FOUND", advice "Every element must reference a track in the tracks list"),
  ("CLIP_OVERLAP", advice "Move or trim clips so video/image clips on one track do not overlap"),
  ("SPEED_MISMATCH", advice "Source range must equal timeline duration multiplied by speed"),
  ("UNSUPPORTED_SPEED", { kind := .validation
                          parameters := [("min_speed", .float 0.0625), ("max_speed", .float 16)] }),
  ("MISSING_SOURCE", advice "Media elements need a source path or URL"),
  ("ASSET_UNREACHABLE", retryAfter .assetResolution 5000 2),
  ("ASSET_UNREADABLE", { kind := .assetResolution }),
  ("ASSET_CACHE_FULL", { kind := .assetResolution
                         suggestedFix := some "Reduce the number of distinct sources or raise ASSET_CACHE_MAX_ENTRIES" }),
  ("RENDER_ENGINE_FAILED", retryAfter .renderEngine 2000 1),
  ("OVERLAY_RENDER_FAILED", retryAfter .renderEngine 2000 1),
  ("STORAGE_ERROR", retryAfter .renderEngine 2000 2),
  ("EXPORT_TIMEOUT", { kind := .timeout, retryable := true }),
  ("EXPORT_CANCELLED", { kind := .cancelled }),
  ("JOB_NOT_FOUND", { kind := .validation }),
  ("INVALID_JOB_TRANSITION", { kind := .internal }),
  ("JOB_NOT_COMPLETED", { kind := .validation, retryable := true
                          suggestedFix := some "Poll GET /api/export/status/\x7bjob_id\x7d until the job is completed" }),
  ("INTERNAL_ERROR", retryAfter .internal 2000 2),
  ("BAD_REQUEST", { kind := .validation }),
  ("NOT_FOUND", { kind := .validation }),
  ("CONFLICT", { kind := .validation })]

/-- What a code says; an unknown one is internal. -/
def ofCode (code : String) : CodeSpec := (table.lookup code).getD { kind := .internal }

/-- A code's entry as JSON, without what it does not set. -/
def toJson (s : CodeSpec) : Json :=
  .object ([("kind", .text s.kind.name), ("retryable", .bool s.retryable)]
    ++ (s.suggestedFix.map fun fix => ("suggested_fix", Json.text fix)).toList
    ++ (if s.parameters.isEmpty then [] else [("parameters", Json.object s.parameters)]))

end CodeSpec

end TimelineExport
