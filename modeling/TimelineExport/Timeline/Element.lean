import TimelineExport.Json.Value
import TimelineExport.Number.Scalar

/-!
# Timelines: elements and tracks

A timeline is a list of elements, each placed on a track for a span of time. An element shows a
part of a source file (video, audio, image), or text, a caption or a sticker. Times are in
milliseconds; the type of numbers is a parameter, so that the timing laws can be stated over the
exact rationals.

The main derived measures are an element's `duration`, the range of its source that it consumes
(`sourceRange`) and the length of a transition, which is at most a third of the element
(`transitionMs`).
-/

namespace TimelineExport

/-! ### Kinds -/

/-- What an element shows. -/
inductive ElementKind where
  | video
  | audio
  | image
  | text
  | caption
  | sticker
  deriving DecidableEq, Repr

namespace ElementKind

/-- All kinds, in the order in which they are listed to a reader. -/
def all : List ElementKind := [video, audio, image, text, caption, sticker]

/-- The name of a kind. -/
def name : ElementKind → String
  | video => "video"
  | audio => "audio"
  | image => "image"
  | text => "text"
  | caption => "caption"
  | sticker => "sticker"

/-- Whether the kind is played from a media file. -/
def isMedia (k : ElementKind) : Bool := k = video || k = audio || k = image

/-- Whether the kind has a range of time inside its source. -/
def isTimed (k : ElementKind) : Bool := k = video || k = audio

/-- Whether the kind may carry sound. -/
def hasSound (k : ElementKind) : Bool := k = video || k = audio

/-- Whether the kind is composited natively as a moving or still picture. -/
def isPicture (k : ElementKind) : Bool := k = video || k = image

/-- Whether the kind shows words and needs no source. -/
def isText (k : ElementKind) : Bool := k = text || k = caption

end ElementKind

/-- What a track holds. -/
inductive TrackKind where
  | video
  | audio
  | text
  deriving DecidableEq, Repr

namespace TrackKind

/-- All kinds of track. -/
def all : List TrackKind := [video, audio, text]

/-- The name of a kind. -/
def name : TrackKind → String
  | video => "video"
  | audio => "audio"
  | text => "text"

end TrackKind

/-- How an element appears or disappears. -/
inductive Effect where
  | fade
  | dissolve
  | slide
  | wipe
  | zoom
  | iris
  deriving DecidableEq, Repr

namespace Effect

/-- All effects. -/
def all : List Effect := [fade, dissolve, slide, wipe, zoom, iris]

/-- The name of an effect. -/
def name : Effect → String
  | fade => "fade"
  | dissolve => "dissolve"
  | slide => "slide"
  | wipe => "wipe"
  | zoom => "zoom"
  | iris => "iris"

end Effect

/-- Where a block rests in the frame. -/
inductive Placement where
  | top
  | middle
  | bottom
  deriving DecidableEq, Repr

namespace Placement

/-- All placements. -/
def all : List Placement := [top, middle, bottom]

/-- The name of a placement. -/
def name : Placement → String
  | top => "top"
  | middle => "middle"
  | bottom => "bottom"

end Placement

/-- How the lines of a block are aligned. -/
inductive Align where
  | left
  | center
  | right
  deriving DecidableEq, Repr

namespace Align

/-- All alignments. -/
def all : List Align := [left, center, right]

/-- The name of an alignment. -/
def name : Align → String
  | left => "left"
  | center => "center"
  | right => "right"

end Align

/-! ### Parts of an element -/

/-- A transition at one end of an element. Without an effect it is an explicit "none", which
switches off a transition given elsewhere. -/
structure Transition (α : Type) where
  effect : Option Effect
  durationMs : α
  deriving Repr

/-- The style of a text block, as the editor sets it. -/
structure Style (α : Type) where
  fontSize : Option α := none
  color : Option String := none
  fontColor : Option String := none
  fontFamily : Option String := none
  fontWeight : Option String := none
  fontStyle : Option String := none
  textAlign : Option Align := none
  backgroundColor : Option String := none
  background : Option String := none
  borderRadius : Option α := none
  padding : Option α := none
  boxShadow : Option String := none
  textShadow : Option String := none
  gradient : Option String := none
  transform : Option String := none
  /-- Members without a meaning here, kept as they came. -/
  others : List (String × Json) := []
  deriving Repr

/-- An offset in the frame. -/
structure Point (α : Type) where
  x : α
  y : α
  deriving Repr

/-- A box that an element is fitted into. -/
structure CropBox (α : Type) where
  left : α
  top : α
  width : α
  height : α
  borderRadius : Option α := none
  deriving Repr

/-- Media from an outside provider. -/
structure ExternalAsset where
  url : Option String := none
  platform : Option String := none
  originalData : List (String × Json) := []
  others : List (String × Json) := []
  deriving Repr

/-- How an element looks. -/
structure Properties (α : Type) where
  style : Option (Style α) := none
  placement : Option Placement := none
  position : Option (Point α) := none
  scale : α
  crop : Option (CropBox α) := none
  rotation : Option α := none
  externalAsset : Option ExternalAsset := none
  text : Option String := none
  transitionIn : Option (Transition α) := none
  transitionOut : Option (Transition α) := none
  others : List (String × Json) := []
  deriving Repr

/-- One element of a timeline. -/
structure Element (α : Type) where
  id : String
  kind : ElementKind
  trackId : String
  startMs : α
  endMs : α
  sourceStartMs : Option α := none
  sourceEndMs : Option α := none
  speed : α
  volume : α
  opacity : α
  transitionIn : Option (Transition α) := none
  transitionOut : Option (Transition α) := none
  /-- A local path or a URL. -/
  source : Option String := none
  text : Option String := none
  properties : Properties α
  deriving Repr

/-- One track of a timeline. Tracks with a higher index lie above. -/
structure Track where
  id : String
  index : Int := 0
  kind : TrackKind := .video
  deriving DecidableEq, Repr

/-- Whether a track is shown. -/
def Track.isVisual (t : Track) : Bool := t.kind ≠ .audio

/-- A text that is present and not empty. -/
def nonEmpty (s : Option String) : Option String := s.filter (· ≠ "")

/-- The colour of the words: the colour, or else the font colour. -/
def Style.textColor {α : Type} (s : Style α) : Option String :=
  (nonEmpty s.color).or s.fontColor

/-- Whether the provider marks the asset as a sticker. -/
def ExternalAsset.isSticker (a : ExternalAsset) : Bool :=
  ((Json.find? a.originalData "isSticker").map Json.isTruthy).getD false

/-! ### Measures of an element -/

namespace Element

section
variable {α : Type}

/-- Whether a transition is set at either end. -/
def hasTransition (e : Element α) : Bool := e.transitionIn.isSome || e.transitionOut.isSome

/-- The words to show. -/
def displayText (e : Element α) : String :=
  ((nonEmpty e.text).or e.properties.text).getD ""

/-- Where the element's pixels or samples come from, if anywhere. -/
def assetSource (e : Element α) : Option String :=
  (nonEmpty e.source).or (e.properties.externalAsset.bind (·.url))

/-- The transitions of the properties hold where the element has none of its own; after that an
explicit "none" is dropped. -/
def liftTransitions (e : Element α) : Element α :=
  { e with
    transitionIn := (e.transitionIn.or e.properties.transitionIn).filter (·.effect.isSome)
    transitionOut := (e.transitionOut.or e.properties.transitionOut).filter (·.effect.isSome) }

end

variable {α : Type} [Scalar α]

/-- The length of the element's span on the timeline. -/
def duration (e : Element α) : α := e.endMs - e.startMs

/-- The range of the source that is consumed. It begins at the start unless given, and unless
its end is given it is as long as the span takes at the element's speed. -/
def sourceRange (e : Element α) : α × α :=
  let first := e.sourceStartMs.getD 0
  (first, e.sourceEndMs.getD (first + e.duration * e.speed))

/-- The length of a transition at one end: not negative, and at most a third of the element. -/
def transitionMs (e : Element α) (t : Option (Transition α)) : α :=
  match t with
  | none => 0
  | some t => Scalar.greatest 0 (Scalar.least t.durationMs (e.duration / 3))

/-- The length of the transition at the start. -/
def inMs (e : Element α) : α := e.transitionMs e.transitionIn

/-- The length of the transition at the end. -/
def outMs (e : Element α) : α := e.transitionMs e.transitionOut

end Element

/-- The duration of the output: the latest end of an element, and nothing without elements. -/
def outputDuration {α : Type} [Scalar α] : List (Element α) → α
  | [] => 0
  | e :: es => es.foldl (fun latest e => Scalar.greatest latest e.endMs) e.endMs

end TimelineExport
