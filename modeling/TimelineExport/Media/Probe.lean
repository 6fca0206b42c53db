import TimelineExport.Json.Reader
import TimelineExport.Json.Shape

/-!
# Probing media

A probe program describes a file as JSON on its output. `readMedia` takes from it which streams
the file has, and `readDuration` how long it is. The callers are prepared for one sort of fault,
`ProbeFault.failed`: the program did not run, refused the file, or printed something that does
not describe media. Output of an unexpected shape is not among them; it has constructors of its
own. Output that is nested so deeply that an interpreter gives up on it is left out: it is read like
any other.
-/

namespace TimelineExport

/-- What became of a run of the probe program. -/
inductive ProbeRun where
  | notStarted (reason : String)
  | timedOut
  | exited (code : Int) (output diagnostics : String)
  deriving Repr

/-- Why nothing is known about a file. -/
inductive ProbeFault where
  /-- The program failed, or does not know the file as media. -/
  | failed (message : String)
  /-- A part of the output cannot have members. -/
  | noMembers (message : String)
  /-- A part of the output has another type than it should. -/
  | wrongType (message : String)
  /-- The duration is no number. -/
  | notNumber (text : String)
  /-- The duration has too many digits. -/
  | tooLarge
  /-- The output has an integer with so many digits that it is not read. -/
  | unreadable (message : String)
  deriving DecidableEq, Repr

/-- What a reader is told about a fault. -/
def ProbeFault.message : ProbeFault → String
  | failed m | noMembers m | wrongType m | unreadable m => m
  | notNumber text => "could not convert string to float: " ++ quoted text
  | tooLarge => "int too large to convert to float"

/-- What is known about a media file. Sizes and names are as the program printed them. -/
structure MediaInfo where
  durationMs : Option Float := none
  width : Json := .null
  height : Json := .null
  videoCodec : Json := .null
  audioCodec : Json := .null
  hasVideo : Bool := false
  hasAudio : Bool := false

/-- What is known about a media file as an object. -/
def MediaInfo.toJson (i : MediaInfo) : Json :=
  .object [("duration_ms", .ofOption .float i.durationMs), ("width", i.width),
    ("height", i.height), ("video_codec", i.videoCodec), ("audio_codec", i.audioCodec),
    ("has_video", .bool i.hasVideo), ("has_audio", .bool i.hasAudio)]

namespace ProbeRun

/-- The description that a run has printed. -/
def description : ProbeRun → Except ProbeFault Json
  | notStarted reason => .error (.failed ("ffprobe failed to run: " ++ reason))
  | timedOut =>
    .error (.failed "ffprobe failed to run: Command 'ffprobe' timed out after 60 seconds")
  | exited code output diagnostics =>
    if code ≠ 0 then
      let text := trimText diagnostics
      .error (.failed ("ffprobe failed: " ++ if text = "" then "unreadable media" else text))
    else
      (Json.read output).mapError fun f =>
        if f.isOverlong then .unreadable (f.message output)
        else .failed ("Failed to parse ffprobe output: " ++ f.message output)

/-- A member of a value that should be an object; `null` if it is absent. -/
def member (v : Json) (name : String) : Except ProbeFault Json :=
  match v with
  | .object members => .ok ((Json.find? members name).getD .null)
  | v => .error (.noMembers ("'" ++ v.typeName ++ "' object has no attribute 'get'"))

/-- Whether a text is a part of another. -/
def isPart (part : List Char) : List Char → Bool
  | [] => part.isEmpty
  | c :: cs => part.isPrefixOf (c :: cs) || isPart part cs

/-- Whether a value has something under a name: a member, an item, or a part of a text. -/
def mentions (v : Json) (name : String) : Except ProbeFault Bool :=
  match v with
  | .object members => .ok (members.any (·.1 = name))
  | .array items => .ok (items.any fun | .text s => s = name | _ => false)
  | .text s => .ok (isPart name.toList s.toList)
  | v => .error (.wrongType ("argument of type '" ++ v.typeName ++ "' is not iterable"))

/-- The duration, in milliseconds, that is given in seconds. -/
def milliseconds : Json → Except ProbeFault Float
  | .text s =>
    match Numeral.readFloat? s with
    | some x => .ok (x * 1000)
    | none => .error (.notNumber s)
  | .int n =>
    let x := Float.ofInt n
    if x.isInf then .error .tooLarge else .ok (x * 1000)
  | .float x => .ok (x * 1000)
  | .bool b => .ok (if b then 1000 else 0)
  | v => .error (.wrongType
      ("float() argument must be a string or a real number, not '" ++ v.typeName ++ "'"))

/-- The duration in the part that describes the format, if it is there. -/
def formatDuration (description : Json) : Except ProbeFault (Option Float) := do
  let format ← match description with
    | .object members => pure ((Json.find? members "format").getD (.object []))
    | v => member v "format"
  if ← mentions format "duration" then
    match format with
    | .text _ => throw (.wrongType "string indices must be integers, not 'str'")
    | .array _ => throw (.wrongType "list indices must be integers or slices, not str")
    | v => some <$> milliseconds (← member v "duration")
  else return none

/-- The streams of a description, one by one. -/
def streams (description : Json) : Except ProbeFault (List Json) :=
  match description.member? "streams" with
  | none => .ok []
  | some (.array items) => .ok items
  | some (.object members) => .ok (members.map fun m => .text m.1)
  | some (.text s) => .ok (s.toList.map fun c => .text (String.singleton c))
  | some v => .error (.wrongType ("'" ++ v.typeName ++ "' object is not iterable"))

/-- Takes note of a stream: the first one of each sort counts. -/
def addStream (info : MediaInfo) (stream : Json) : Except ProbeFault MediaInfo := do
  match ← member stream "codec_type" with
  | .text "video" =>
    if info.hasVideo then return info
    return { info with
      hasVideo := true
      width := ← member stream "width"
      height := ← member stream "height"
      videoCodec := ← member stream "codec_name" }
  | .text "audio" =>
    if info.hasAudio then return info
    return { info with hasAudio := true, audioCodec := ← member stream "codec_name" }
  | _ => return info

/-- What a run says about the streams and the duration of a file. A duration that is no number
is left out. -/
def readMedia (path : String) (run : ProbeRun) : Except ProbeFault MediaInfo := do
  let description ← run.description
  let durationMs ← match formatDuration description with
    | .error (.notNumber _) => pure none
    | result => result
  let info ← (← streams description).foldlM addStream { durationMs }
  if info.hasVideo || info.hasAudio then return info
  else throw (.failed ("No audio or video stream found in: " ++ path))

/-- What a run says about the duration of a file, in milliseconds. -/
def readDuration (path : String) (run : ProbeRun) : Except ProbeFault Float := do
  match ← formatDuration (← run.description) with
  | some x => return x
  | none => throw (.failed ("Duration not found in: " ++ path))

end ProbeRun

end TimelineExport
