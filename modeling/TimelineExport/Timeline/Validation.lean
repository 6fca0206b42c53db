import TimelineExport.Error.Basic
import TimelineExport.Export.Settings
import TimelineExport.Timeline.Element

/-!
# Validation: which timelines can be exported

A timeline is checked before an export begins. `validate` gives the first fault: the elements
are checked one by one, each for its track, its times, its speed and its source, and then the
clips of each track for overlaps. An accepted timeline has at least one element; every element
lies on a listed track and within a proper span of time; and no two pictures of one track
overlap.
-/

namespace TimelineExport

/-- Why a timeline cannot be exported. -/
inductive TimelineFault (α : Type) where
  | empty
  | unknownTrack (element track : String)
  | negativeStart (element : String)
  | endNotAfterStart (element : String) (startMs endMs : α)
  | negativeSourceStart (element : String)
  | emptySourceRange (element : String)
  | unsupportedSpeed (element : String) (speed : α)
  | speedMismatch (element : String) (expectedMs actualMs : α)
  | noSource (element : String)
  | overlap (track first second : String) (overlapMs : α)
  deriving Repr

/-- Groups the members of a list by a key; keys and members keep their order. -/
def groupBy {β κ : Type} [BEq κ] (key : β → κ) (xs : List β) : List (κ × List β) :=
  ((xs.map key).eraseDups).map fun k => (k, xs.filter fun x => key x == k)

section
variable {α : Type} [Scalar α]

/-- The slowest speed that four stages of tempo change can reach. -/
def minSpeed : α := 0.0625

/-- The fastest speed that four stages of tempo change can reach. -/
def maxSpeed : α := 16

/-- The elements in the order of their starts; equal starts keep their order. -/
def sortByStart (es : List (Element α)) : List (Element α) :=
  es.mergeSort fun a b => !(b.startMs < a.startMs)

namespace Element

/-- Checks that the element is on a listed track. -/
def checkTrack (tracks : List Track) (e : Element α) : Except (TimelineFault α) Unit :=
  if tracks.any (·.id = e.trackId) then .ok () else .error (.unknownTrack e.id e.trackId)

/-- Checks the span on the timeline, and for a timed source the range of the source. -/
def checkTiming (e : Element α) : Except (TimelineFault α) Unit := do
  if e.startMs < 0 then throw (.negativeStart e.id)
  if e.endMs ≤ e.startMs then throw (.endNotAfterStart e.id e.startMs e.endMs)
  if e.kind.isTimed then
    if e.sourceStartMs.any (decide <| · < 0) then throw (.negativeSourceStart e.id)
    if e.sourceRange.2 ≤ e.sourceRange.1 then throw (.emptySourceRange e.id)

/-- How far a source range may be from the span that it fills: the source time of one output
frame, and at least a millisecond. -/
def rangeTolerance (settings : ExportSettings) (e : Element α) : α :=
  Scalar.greatest 1 (settings.frameMs * e.speed)

/-- Checks for a timed source that its speed can be played and that a range with both ends given
fills the span. -/
def checkSpeed (settings : ExportSettings) (e : Element α) : Except (TimelineFault α) Unit := do
  if e.kind.isTimed then
    if ¬ (minSpeed ≤ e.speed ∧ e.speed ≤ maxSpeed) then throw (.unsupportedSpeed e.id e.speed)
    match e.sourceStartMs, e.sourceEndMs with
    | some first, some last =>
      let expected := e.duration * e.speed
      let actual := last - first
      if Scalar.magnitude (actual - expected) > e.rangeTolerance settings then
        throw (.speedMismatch e.id expected actual)
    | _, _ => pure ()

/-- Checks that an element that shows more than words has a source. -/
def checkSource (e : Element α) : Except (TimelineFault α) Unit :=
  if e.kind.isText then .ok ()
  else if (nonEmpty e.assetSource).isSome then .ok ()
  else .error (.noSource e.id)

/-- All checks of a single element. -/
def check (tracks : List Track) (settings : ExportSettings) (e : Element α) :
    Except (TimelineFault α) Unit := do
  e.checkTrack tracks
  e.checkTiming
  e.checkSpeed settings
  e.checkSource

end Element

/-- Checks that every clip ends before its successor starts. -/
def checkSuccessors (track : String) : List (Element α) → Except (TimelineFault α) Unit
  | e :: f :: rest =>
    if e.endMs > f.startMs then .error (.overlap track e.id f.id (e.endMs - f.startMs))
    else checkSuccessors track (f :: rest)
  | _ => .ok ()

/-- Checks the moving and still pictures of each track for overlaps. -/
def checkOverlaps (es : List (Element α)) : Except (TimelineFault α) Unit :=
  (groupBy (·.trackId) (es.filter (·.kind.isPicture))).forM fun (track, clips) =>
    checkSuccessors track (sortByStart clips)

/-- Checks a timeline and gives the first fault. -/
def validate (es : List (Element α)) (tracks : List Track) (settings : ExportSettings) :
    Except (TimelineFault α) Unit := do
  if es.isEmpty then throw .empty
  es.forM (·.check tracks settings)
  checkOverlaps es

end

/-- The failure that reports a fault. -/
def TimelineFault.toError : TimelineFault Float → ExportError
  | empty => .ofSort .emptyTimeline
  | unknownTrack element track => .trackNotFound element track
  | negativeStart element => .invalidTimeRange element "timelineStartMs must not be negative"
  | endNotAfterStart element startMs endMs =>
    .invalidTimeRange element
      ("timelineEndMs (" ++ generalText endMs ++ ") must be greater than timelineStartMs (" ++
        generalText startMs ++ ")")
  | negativeSourceStart element =>
    .invalidTimeRange element "sourceStartMs must not be negative"
  | emptySourceRange element =>
    .invalidTimeRange element "sourceEndMs must be greater than sourceStartMs"
  | unsupportedSpeed element speed => .unsupportedSpeed element speed minSpeed maxSpeed
  | speedMismatch element expectedMs actualMs => .speedMismatch element expectedMs actualMs
  | noSource element => .missingSource element
  | overlap track first second overlapMs => .clipOverlap track first second overlapMs

end TimelineExport
