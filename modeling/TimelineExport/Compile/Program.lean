import TimelineExport.Audio.Mixer
import TimelineExport.Compile.Segment
import TimelineExport.Json.Access
import TimelineExport.Text.Path
import TimelineExport.Timeline.Validation

/-!
# Programs: a timeline as a filter program

`compile` turns the natively composited elements of a timeline, and perhaps a sequence of
overlay frames, into a program for the render engine. Its inputs are the distinct sources in
order of appearance, a black background, and the overlay frames. The segments of a track are
played back to back; the tracks lie on the background in the order of their indexes, and the
overlay frames on top of all. The finished picture is the stream `vout`, the sound `aout`.
-/

namespace TimelineExport

/-- The label of the finished picture. -/
def videoOutput : String := "vout"

/-- The names of numbered frames. -/
def framePattern : String := "frame_%06d.png"

/-- A directory of transparent frames at a fixed rate. -/
structure OverlaySequence where
  directory : String
  frameCount : Int
  fps : Int
  pattern : String := framePattern
  deriving DecidableEq, Repr

namespace OverlaySequence

/-- Reads the description of a sequence. -/
def ofJson (v : Json) : OverlaySequence :=
  { directory := (v.get "directory").asText, frameCount := (v.get "frame_count").asInt
    fps := (v.get "fps").asInt, pattern := v.getOr "pattern" Json.asText framePattern }

/-- The path of the numbered frames. -/
def path (o : OverlaySequence) : String := joinPath o.directory o.pattern

/-- How long the sequence lasts. -/
def durationMs {α : Type} [Scalar α] (o : OverlaySequence) : α :=
  Scalar.ofInt (o.frameCount * 1000) / Scalar.ofInt o.fps

end OverlaySequence

/-- Everything the engine needs for one export. -/
structure Program (α : Type) where
  inputs : List (Input α)
  graph : Graph α
  durationMs : α
  /-- The distinct sources; each is the input of its own position. -/
  sources : List String
  backgroundIndex : Nat
  overlayIndex : Option Nat
  deriving Repr

section
variable {α : Type}

/-- The distinct sources of elements, in order of appearance. -/
def distinctSources (es : List (Element α)) : List String :=
  (es.filterMap (·.assetSource)).eraseDups

/-- The reference to a stream of an input. -/
def streamLabel (index : Nat) (kind : String) : String := toString index ++ ":" ++ kind

/-- The input of an element's source. -/
def sourceIndex (sources : List String) (e : Element α) : Except (CompileFault α) Nat :=
  match e.assetSource.bind fun path => sources.idxOf? path with
  | some i => .ok i
  | none => .error .noSource

/-- The ids of tracks in the order of their indexes; equal indexes keep their order. -/
def trackOrder (tracks : List Track) : List String :=
  (tracks.mergeSort fun a b => a.index ≤ b.index).map (·.id)

variable [Scalar α]

/-- Adds the segments of clips in the given order, and gives their labels. Each has a lead-in
for the gap since the end of the one before. -/
def buildSegments (settings : ExportSettings) (sources : List String) :
    Graph α → (previousEnd : α) → List (Element α) →
      Except (CompileFault α) (List String × Graph α)
  | g, _, [] => .ok ([], g)
  | g, previousEnd, e :: es => do
    let index ← sourceIndex sources e
    let filters ← e.segmentFilters settings (e.startMs - previousEnd)
    let (label, g) := g.grow "seg" [streamLabel index "v"] filters
    let (labels, g) ← buildSegments settings sources g e.endMs es
    return (label :: labels, g)

/-- Plays streams back to back; a single one stays as it is. -/
def concatenate (g : Graph α) (labels : List String) : String × Graph α :=
  match labels with
  | [label] => (label, g)
  | _ => g.grow "track" labels [{
      name := "concat"
      options := [("n", .int labels.length), ("v", .int 1), ("a", .int 0)] }]

/-- Adds the picture of one track. -/
def assembleTrack (settings : ExportSettings) (sources : List String) (g : Graph α)
    (clips : List (Element α)) : Except (CompileFault α) (String × Graph α) := do
  let (labels, g) ← buildSegments settings sources g 0 (sortByStart clips)
  return concatenate g labels

/-- Lays one stream over another. -/
def overlayFilter : Filter α :=
  { name := "overlay"
    options := [("x", .int 0), ("y", .int 0), ("eof_action", .text "pass"), ("format", .text "auto")] }

/-- Adds the pictures of the tracks, each over what lies below. -/
def buildLayers (settings : ExportSettings) (sources : List String) (pictures : List (Element α)) :
    Graph α → (current : String) → (tracks : List String) →
      Except (CompileFault α) (String × Graph α)
  | g, current, [] => .ok (current, g)
  | g, current, track :: tracks => do
    let clips := pictures.filter (·.trackId = track)
    if clips.isEmpty then buildLayers settings sources pictures g current tracks
    else
      let (label, g) ← assembleTrack settings sources g clips
      let (layer, g) := g.grow "layer" [current, label] [overlayFilter]
      buildLayers settings sources pictures g layer tracks

/-- Whether an element is mixed: it may carry sound, and its source is not known to have none. -/
def isAudible (audioSources : List (String × Bool)) (e : Element α) : Bool :=
  e.kind.hasSound && ((e.assetSource.bind fun path => audioSources.lookup path).getD true)

/-- An element as a clip with sound. -/
def audioClip (sources : List String) (e : Element α) :
    Except (CompileFault α) (AudioClip α) := do
  let index ← sourceIndex sources e
  return {
    elementId := e.id
    input := streamLabel index "a"
    sourceStartMs := e.sourceRange.1
    sourceEndMs := e.sourceRange.2
    startMs := e.startMs
    durationMs := e.duration
    speed := e.speed
    volume := e.volume
    fadeInMs := e.inMs
    fadeOutMs := e.outMs }

/-- The tracks with sound in the order of the tracks; those on no listed track come last. -/
def audioTracks (es : List (Element α)) (order sources : List String)
    (audioSources : List (String × Bool)) : Except (CompileFault α) (List (AudioTrack α)) := do
  let clips ← (es.filter (isAudible audioSources)).mapM fun e => do
    return (e.trackId, ← audioClip sources e)
  let tracks := (groupBy (·.1) clips).map fun (id, clips) =>
    (⟨id, clips.map (·.2)⟩ : AudioTrack α)
  return (order.filterMap fun id => tracks.find? (·.id = id)) ++
    tracks.filter fun t => !order.contains t.id

/-- The inputs of a program: the sources, the background, and the overlay frames. -/
def programInputs (settings : ExportSettings) (sources : List String) (durationMs : α)
    (overlay : Option OverlaySequence) : List (Input α) :=
  let background : Formula α :=
    [.text ("color=c=black:s=" ++ toString settings.width ++ "x" ++ toString settings.height ++
      ":r=" ++ toString settings.fps ++ ":d="), .seconds durationMs]
  sources.map .file ++ [.generated background] ++
    (overlay.map fun o => Input.pictures o.path o.fps).toList

/-- The picture of a program: the base, the tracks and the overlay, in the engine's pixel
format. -/
def buildVideo (settings : ExportSettings) (es : List (Element α)) (order sources : List String)
    (overlayIndex : Option Nat) : Except (CompileFault α) (Graph α) := do
  let base : Graph α := Graph.place {} [streamLabel sources.length "v"]
    [{ name := "setsar", positional := [.int 1] }] "base"
  let (current, g) ← buildLayers settings sources (es.filter (·.kind.isPicture)) base "base" order
  let (current, g) :=
    match overlayIndex with
    | some index => g.grow "layer" [current, streamLabel index "v"] [overlayFilter]
    | none => (current, g)
  (g.extend current [{ name := "format", positional := [.text "yuv420p"] }]).relabel current
    videoOutput |>.mapError .graph

/-- The duration of a program when none is given: the latest end of an element, or of the
overlay. -/
def defaultDuration (es : List (Element α)) (overlay : Option OverlaySequence) : α :=
  match overlay with
  | some o => Scalar.greatest (outputDuration es) o.durationMs
  | none => outputDuration es

/-- Compiles the natively composited elements of a timeline. A source that is not listed is taken
to carry sound. -/
def compile (settings : ExportSettings) (sampleRate : Int) (es : List (Element α))
    (tracks : List Track) (overlay : Option OverlaySequence) (duration : Option α)
    (audioSources : List (String × Bool)) : Except (CompileFault α) (Program α) := do
  let durationMs := duration.getD (defaultDuration es overlay)
  if durationMs ≤ 0 then throw .noDuration
  let sources := distinctSources es
  let inputs := programInputs settings sources durationMs overlay
  let overlayIndex := overlay.map fun _ => sources.length + 1
  let order := trackOrder tracks
  let g ← buildVideo settings es order sources overlayIndex
  let audio ← audioTracks es order sources audioSources
  let g ← buildAudio sampleRate g audio durationMs
  (g.check inputs.length [videoOutput, audioOutput]).mapError .graph
  return { inputs, graph := g, durationMs, sources, backgroundIndex := sources.length, overlayIndex }

end

end TimelineExport
