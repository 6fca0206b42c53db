import TimelineExport.Json.Access
import TimelineExport.Json.Writer
import TimelineExport.Server.Host

/-!
# Describing a host

The surroundings of an export can be described in JSON: the files that are there, what the network
answers, what the probe program says about paths, and what the runs of the engine do. Whatever
is not described takes its usual course.
-/

namespace TimelineExport

open Json

namespace StoredFile

/-- The colour of a pixel given by its channels. -/
def pixelOf (v : Json) : Pixel :=
  ⟨(v.item 0).asNat, (v.item 1).asNat, (v.item 2).asNat, (v.item 3).asNat⟩

/-- A file given as a text, by its number of bytes, or as a picture with frames of one colour. -/
def ofJson (v : Json) : StoredFile :=
  match v with
  | .text s => { size := s.utf8ByteSize }
  | _ =>
    match (v.get "size").items with
    | [w, h] =>
      { picture := some ⟨(v.get "frames").items.map fun f =>
          (.solid w.asNat h.asNat (pixelOf f), f.items[4]?.map asFloat)⟩ }
    | _ => { size := (v.get "bytes").asNat }

end StoredFile

/-- A directory with the files of an object of names, and the directories above them. -/
def FileTree.ofJson (cwd : Place) (v : Json) : FileTree StoredFile :=
  v.members.foldl (fun t (name, content) =>
    let place := resolvePath cwd name
    ((t.makeDirectories place.dropLast).toOption.getD t).put place (.file (.ofJson content)))
    (({} : FileTree StoredFile).put cwd .directory)

/-- The description of a video with sound. -/
def usualProbe : Json :=
  .object [("format", .object [("duration", .text "4.0")]),
    ("streams", .array [
      .object [("codec_type", .text "video"), ("codec_name", .text "h264"), ("width", .int 640),
        ("height", .int 360)],
      .object [("codec_type", .text "audio"), ("codec_name", .text "aac")]])]

/-- A run of the probe program: it fails to start, or prints a text or a value. -/
def ProbeRun.ofJson (v : Json) : ProbeRun :=
  match v.member? "raise" with
  | some (.text "timeout") => .timedOut
  | some reason => .notStarted reason.asText
  | none =>
    let output := match v.member? "stdout" with
      | some printed => printed.asText
      | none => (v.getOr "data" id usualProbe).write
    .exited (v.get "returncode").asInt output (v.get "stderr").asText

namespace Network

/-- An answer: a failed connection, or a response whose body is given by its size, as a stream of
sizes, or as JSON. -/
def answerOf (v : Json) : NetworkAnswer StoredFile :=
  match v.member? "connect_error", v.member? "timeout" with
  | some reason, _ => .transport .connection reason.asText
  | none, some reason => .transport .timeout reason.asText
  | none, none =>
    let sizes : List Nat := match v.member? "size", v.member? "stream", v.member? "json" with
      | some n, _, _ => [n.asNat]
      | none, some s, _ => s.items.map asNat
      | none, none, some v => [v.write.utf8ByteSize]
      | none, none, none => []
    let length := if v.has "stream" then [] else
      (sizes.filter (· ≠ 0)).map fun n => ("content-length", toString n)
    .response { status := v.getOr "status" asNat 200, json := v.member? "json"
                chunks := sizes.map fun size => { size }, broken := (v.get "then").text?
                headers := (v.get "headers").members.map (fun h => (h.1.toLower, h.2.asText)) ++
                  length }

/-- A network given by the answers at each address. -/
def ofJson (v : Json) : Network StoredFile :=
  { answers := v.members.map fun (name, answers) => (name, answers.items.map answerOf) }

end Network

/-- What is outside, given by a network and by probe runs for paths. -/
def Outside.ofJson (network probes : Json) : Outside StoredFile where
  network := .ofJson network
  probe path := .ofJson ((probes.member? path).getD (probes.get "*"))

namespace EngineScript

/-- A line, which may be given by its bytes. -/
def lineOf : Json → String
  | .array bytes => textOfBytes (bytes.map asNat)
  | v => v.asText

/-- A run of the engine. -/
def ofJson (v : Json) : EngineScript :=
  .ofLines (v.getOr "stdout" (·.items.map lineOf) usualOutput) ((v.get "stderr").items.map lineOf)
    (v.get "exit").asInt (v.getOr "output" (fun n => if n.isNull then none else some n.asNat) (some 3))
    (v.get "block").isTruthy (v.get "missing").isTruthy

end EngineScript

/-- A cloud given by whether it has an account and why it refuses. -/
def Cloud.ofJson (v : Json) : Cloud where
  account := if (v.get "compute").isTruthy then some ("svc@test", "tok") else none
  refusal := (v.get "fail").text?
  sign q :=
    let (email, token) := q.account.getD ("None", "None")
    ":".intercalate ["signed", "v4", q.method, toString q.seconds, q.key, email, token]

/-- The storage of a service, in a cloud if it is not local. -/
def ResultStorage.ofSettings (settings : ServiceSettings) (root : Place) (cloud : Json) :
    ResultStorage :=
  if settings.useLocalStorage then .directory ⟨root, settings.publicBaseUrl⟩
  else
    .bucket (.ofJson cloud)
      { bucket := settings.bucketName, project := settings.projectId
        objects := (cloud.get "blobs").items.map asText }

end TimelineExport
