import TimelineExport.Compile.Fault
import TimelineExport.Json.Access

/-!
# The sound of an export

Every clip with sound becomes a chain that trims its source, changes its tempo, pins it to its
length, sets volume and fades, and delays it to its place. The clips of a track are mixed, and
then the tracks. Whatever there is to mix, one stream `aout` comes out, which lasts exactly as
long as the output: silence alone, a single clip padded and cut, or a mix over a bed of silence
that has the full length. A padded stream is never mixed.
-/

namespace TimelineExport

/-- The label of the finished sound. -/
def audioOutput : String := "aout"

/-- A clip with sound, already assigned to an input's stream. -/
structure AudioClip (α : Type) where
  elementId : String
  input : String
  sourceStartMs : α
  sourceEndMs : α
  startMs : α
  durationMs : α
  speed : α
  volume : α
  fadeInMs : α
  fadeOutMs : α
  deriving Repr

/-- The clips with sound of one track. -/
structure AudioTrack (α : Type) where
  id : String
  clips : List (AudioClip α)
  deriving Repr

namespace AudioClip

/-- Reads the description of a clip; what is not given has its usual value. -/
def ofJson (v : Json) : AudioClip Float :=
  let number (name : String) := v.getOr name Json.asFloat
  { elementId := (v.get "element_id").asText, input := (v.get "input_label").asText
    sourceStartMs := number "source_start_ms" 0, sourceEndMs := number "source_end_ms" 0
    startMs := number "timeline_start_ms" 0, durationMs := number "duration_ms" 0
    speed := number "speed" 1, volume := number "volume" 1
    fadeInMs := number "fade_in_ms" 0, fadeOutMs := number "fade_out_ms" 0 }

end AudioClip

/-- Reads the description of a track. -/
def AudioTrack.ofJson (v : Json) : AudioTrack Float :=
  { id := (v.get "id").asText, clips := (v.get "clips").items.map AudioClip.ofJson }

section
variable {α : Type} [Scalar α]

/-- Cuts a stream to a length. -/
def cutAudio (durationMs : α) : Filter α :=
  { name := "atrim", options := [("duration", .seconds durationMs)] }

/-- Silence of a length. -/
def silence (sampleRate : Int) (durationMs : α) : List (Filter α) := [
  { name := "anullsrc"
    options := [("channel_layout", .text "stereo"), ("sample_rate", .int sampleRate)] },
  cutAudio durationMs]

/-- A mix of so many streams, as long as the first or as the longest of them. -/
def mixFilter (count : Nat) (length : String) : Filter α :=
  { name := "amix"
    options := [("inputs", .int count), ("duration", .text length), ("dropout_transition", .int 0),
      ("normalize", .int 0)] }

namespace AudioClip

/-- A fade at one end of the clip. -/
def fade (direction : String) (start length : Arg α) : Filter α :=
  { name := "afade", options := [("t", .text direction), ("st", start), ("d", length)] }

/-- The fades of a clip; a fade out ends with the clip. -/
def fades (c : AudioClip α) : List (Filter α) :=
  (if c.fadeInMs > 0 then [fade "in" (.text "0") (.seconds c.fadeInMs)] else []) ++
    (if c.fadeOutMs > 0 then
      [fade "out" (.seconds (c.durationMs - c.fadeOutMs)) (.seconds c.fadeOutMs)]
    else [])

/-- The delay that puts a clip at its place, in whole samples. -/
def delay (sampleRate : Int) (c : AudioClip α) : Except (CompileFault α) (List (Filter α)) :=
  if c.startMs > 0 then
    match Scalar.nearest (c.startMs * Scalar.ofInt sampleRate / 1000) with
    | .ok samples => .ok [
        { name := "adelay", positional := [.text (toString samples ++ "S")]
          options := [("all", .int 1)] }]
    | .error fault => .error (.unrounded fault)
  else .ok []

/-- The filters of a clip, from its source to its place on the timeline. A volume of zero is kept,
so that the clip still contributes silence. -/
def filters (sampleRate : Int) (c : AudioClip α) : Except (CompileFault α) (List (Filter α)) := do
  let stages ← (tempoStages c.speed).mapError (.tempo c.speed)
  let delay ← c.delay sampleRate
  return [
      { name := "aformat"
        options := [("sample_rates", .int sampleRate), ("channel_layouts", .text "stereo")] },
      { name := "atrim"
        options := [("start", .seconds c.sourceStartMs), ("end", .seconds c.sourceEndMs)] },
      { name := "asetpts", positional := [.text "PTS-STARTPTS"] }] ++
    stages.map (fun stage => { name := "atempo", positional := [.number stage] }) ++
    [cutAudio c.durationMs] ++
    (if c.volume == 1 then [] else [{ name := "volume", positional := [.number c.volume] }]) ++
    c.fades ++ delay

/-- Adds the chain of a clip. -/
def build (sampleRate : Int) (g : Graph α) (c : AudioClip α) :
    Except (CompileFault α) (String × Graph α) := do
  return g.grow "ac" [c.input] (← c.filters sampleRate)

end AudioClip

/-- Adds the chains of clips, and gives their labels. -/
def buildClips (sampleRate : Int) : Graph α → List (AudioClip α) →
    Except (CompileFault α) (List String × Graph α)
  | g, [] => .ok ([], g)
  | g, c :: cs => do
    let (label, g) ← c.build sampleRate g
    let (labels, g) ← buildClips sampleRate g cs
    return (label :: labels, g)

/-- Mixes the clips of a track; a single one needs no mix. -/
def mixTrack (g : Graph α) (labels : List String) : String × Graph α :=
  match labels with
  | [label] => (label, g)
  | _ => g.grow "amt" labels [mixFilter labels.length "longest"]

/-- Adds the chains of all tracks with sound: the label of each, and the number of clips. -/
def buildTracks (sampleRate : Int) : Graph α → List (AudioTrack α) →
    Except (CompileFault α) ((List String × Nat) × Graph α)
  | g, [] => .ok (([], 0), g)
  | g, t :: ts => do
    let (labels, g) ← buildClips sampleRate g t.clips
    if labels.isEmpty then buildTracks sampleRate g ts
    else
      let (label, g) := mixTrack g labels
      let ((rest, count), g) ← buildTracks sampleRate g ts
      return ((label :: rest, labels.length + count), g)

/-- Adds the sound of all tracks to a graph; it comes out as `aout`. -/
def buildAudio (sampleRate : Int) (g : Graph α) (tracks : List (AudioTrack α)) (durationMs : α) :
    Except (CompileFault α) (Graph α) := do
  let ((labels, count), g) ← buildTracks sampleRate g tracks
  match labels, count with
  | [], _ => return g.place [] (silence sampleRate durationMs) audioOutput
  | label :: _, 1 =>
    (g.extend label [{ name := "apad" }, cutAudio durationMs]).relabel label audioOutput
      |>.mapError .graph
  | _, _ =>
    let (bed, g) := g.grow "abed" [] (silence sampleRate durationMs)
    let inputs := bed :: labels
    return g.place inputs [mixFilter inputs.length "first"] audioOutput

end

end TimelineExport
