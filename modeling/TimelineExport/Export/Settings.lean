import TimelineExport.Schema.Checked
import TimelineExport.Timeline.Codec

/-!
# What an export asks for

`ExportSettings` are the options of one export: size, frame rate, quality and the choice between
speed and size. `ExportRequest` is a whole request: the elements, the tracks, the settings and
what to do with elements whose source cannot be had (`AssetPolicy`).
-/

namespace TimelineExport

/-- The number of lines of a landscape picture. -/
inductive Resolution where
  | p480
  | p720
  | p1080
  deriving DecidableEq, Repr

namespace Resolution

/-- All resolutions. -/
def all : List Resolution := [p480, p720, p1080]

/-- The name of a resolution. -/
def name : Resolution → String
  | p480 => "480p"
  | p720 => "720p"
  | p1080 => "1080p"

/-- Width and height of a landscape picture. -/
def size : Resolution → Nat × Nat
  | p480 => (854, 480)
  | p720 => (1280, 720)
  | p1080 => (1920, 1080)

end Resolution

/-- How much quality is kept. -/
inductive Quality where
  | low
  | medium
  | high
  deriving DecidableEq, Repr

namespace Quality

/-- All quality tiers. -/
def all : List Quality := [low, medium, high]

/-- The name of a tier. -/
def name : Quality → String
  | low => "low"
  | medium => "medium"
  | high => "high"

end Quality

/-- Which side of the picture is the longer one. -/
inductive AspectRatio where
  | horizontal
  | vertical
  deriving DecidableEq, Repr

namespace AspectRatio

/-- Both aspect ratios. -/
def all : List AspectRatio := [horizontal, vertical]

/-- The name of an aspect ratio. -/
def name : AspectRatio → String
  | horizontal => "horizontal"
  | vertical => "vertical"

end AspectRatio

/-- What the encoder should favour. -/
inductive Optimization where
  | auto
  | speed
  | quality
  | balanced
  deriving DecidableEq, Repr

namespace Optimization

/-- All hints. -/
def all : List Optimization := [auto, speed, quality, balanced]

/-- The name of a hint. -/
def name : Optimization → String
  | auto => "auto"
  | speed => "speed"
  | quality => "quality"
  | balanced => "balanced"

end Optimization

/-- What happens to an element whose source cannot be had: under `strict` the export fails,
under `lenient` the element is dropped. -/
inductive AssetPolicy where
  | strict
  | lenient
  deriving DecidableEq, Repr

namespace AssetPolicy

/-- Both policies. -/
def all : List AssetPolicy := [strict, lenient]

/-- The name of a policy. -/
def name : AssetPolicy → String
  | strict => "strict"
  | lenient => "lenient"

end AssetPolicy

/-- The options of one export. They do not change once the export has begun. -/
structure ExportSettings where
  resolution : Resolution := .p1080
  fps : Int := 30
  quality : Quality := .high
  aspectRatio : AspectRatio := .horizontal
  optimization : Optimization := .auto
  deriving DecidableEq, Repr, Inhabited

namespace ExportSettings

/-- The least and the greatest frame rate. -/
def fpsRange : Int × Int := (24, 60)

/-- Width and height of the output. -/
def size (s : ExportSettings) : Nat × Nat :=
  let (width, height) := s.resolution.size
  match s.aspectRatio with
  | .horizontal => (width, height)
  | .vertical => (height, width)

/-- The width of the output in pixels. -/
def width (s : ExportSettings) : Nat := s.size.1

/-- The height of the output in pixels. -/
def height (s : ExportSettings) : Nat := s.size.2

/-- How long one frame is shown, in milliseconds. -/
def frameMs {α : Type} [Scalar α] (s : ExportSettings) : α := 1000 / Scalar.ofInt s.fps

/-- Takes a frame rate in the range. -/
def decodeFps : Decoder Int := fun v =>
  (Decoder.integer v).thenCheck fun n =>
    if n > fpsRange.2 then .fail (.above fpsRange.2)
    else if n < fpsRange.1 then .fail (.below fpsRange.1)
    else .valid n

/-- Decodes the options of an export. -/
def ofJson : Decoder ExportSettings :=
  Decoder.model "ExportSettings" fun m =>
    ExportSettings.mk <$> optional m ["resolution"] (.among Resolution.all Resolution.name) .p1080
      <*> optional m ["fps"] decodeFps 30
      <*> optional m ["quality"] (.among Quality.all Quality.name) .high
      <*> optional m ["aspectRatio", "aspect_ratio"]
        (.among AspectRatio.all AspectRatio.name) .horizontal
      <*> optional m ["optimization"] (.among Optimization.all Optimization.name) .auto

/-- The options of an export as JSON. -/
def toJson (s : ExportSettings) : Json :=
  .object [("resolution", .text s.resolution.name), ("fps", .int s.fps),
    ("quality", .text s.quality.name), ("aspectRatio", .text s.aspectRatio.name),
    ("optimization", .text s.optimization.name)]

end ExportSettings

/-- A request to export a timeline. Without a policy the server's own holds. -/
structure ExportRequest where
  clips : List (Element Float)
  tracks : List Track
  settings : ExportSettings := {}
  assetPolicy : Option AssetPolicy := none
  deriving Repr

namespace ExportRequest

/-- Decodes a request. -/
def ofJson : Decoder ExportRequest :=
  Decoder.model "ExportRequest" fun m =>
    ExportRequest.mk <$> required m ["clips"] (.list Element.ofJson)
      <*> required m ["tracks"] (.list Track.ofJson)
      <*> optional m ["exportSettings", "export_settings"] ExportSettings.ofJson {}
      <*> optional m ["assetPolicy", "asset_policy"]
        (.nullable (.among AssetPolicy.all AssetPolicy.name)) none

/-- A request as JSON. -/
def toJson (r : ExportRequest) : Json :=
  .object [("clips", .ofList Element.toJson r.clips), ("tracks", .ofList Track.toJson r.tracks),
    ("exportSettings", r.settings.toJson),
    ("assetPolicy", .ofOption (.text ∘ AssetPolicy.name) r.assetPolicy)]

end ExportRequest

end TimelineExport
