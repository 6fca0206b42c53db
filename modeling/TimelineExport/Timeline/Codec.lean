import TimelineExport.Schema.Checked
import TimelineExport.Timeline.Element

/-!
# Timelines as JSON

Every part of a timeline has a decoder (`ofJson`) and a view (`toJson`). A field may be spelled
in two or three ways; the view uses the first of them. Decoding normalises: lengths may carry
the unit `px`, a font weight may be a number, an animated picture is a sticker, and the
transitions of the properties are lifted to the element.
-/

namespace TimelineExport

variable {α : Type}

/-! ### Decoding -/

/-- The names under which a field may be spelled, the preferred one first. -/
def spelled (preferred plain : String) : List String :=
  if preferred = plain then [plain] else [preferred, plain]

/-- A run of digits of any script, and the rest. -/
def digitRun (cs : List Char) : List Char × List Char := cs.span isDecimalDigit

/-- Whether a text is an optional minus sign, digits, and perhaps a point and digits. -/
def isPlainNumeral (cs : List Char) : Bool :=
  let body := if cs.head? = some '-' then cs.drop 1 else cs
  match digitRun body with
  | ([], _) => false
  | (_, []) => true
  | (_, '.' :: places) => !places.isEmpty && places.all isDecimalDigit
  | _ => false

/-- The length that a text gives, in pixels, with or without the unit. -/
def pixelLength? (s : String) : Option Float :=
  let cs := trimBoth s.toList
  let body := if cs.drop (cs.length - 2) = ['p', 'x'] then trimEnd (cs.take (cs.length - 2)) else cs
  if isPlainNumeral body then Numeral.float? (Numeral.foldDigits body) else none

/-- Takes a length. A text that is not one counts as absent. -/
def decodeLength : Decoder (Option Float)
  | .text s => .valid (pixelLength? s)
  | v => Decoder.nullable Decoder.float v

/-- Takes a font weight: a text, or a number or truth value as it is written. -/
def decodeWeight : Decoder (Option String)
  | .int n => .valid (some (toString n))
  | .float x => .valid (some (shortestText x))
  | .bool b => .valid (some (if b then "True" else "False"))
  | v => Decoder.nullable Decoder.text v

/-- Takes an effect or the word "none". A wrong one is reported for both. -/
def decodeEffect : Decoder (Option Effect)
  | .text "none" => .valid none
  | v =>
    match Decoder.among Effect.all Effect.name v with
    | .valid e => .valid (some e)
    | .invalid es =>
      let listed := ",".intercalate (Effect.all.map fun e => "'" ++ e.name ++ "'")
      .invalid
        ((es.map fun e => { e with location := .member ("literal[" ++ listed ++ "]") :: e.location })
          ++ [⟨[.member "literal['none']"], .notAmong ["none"]⟩])

namespace Transition

/-- The length of a transition whose length is not given. -/
def defaultMs : Float := 1000

/-- Decodes a transition. -/
def ofJson : Decoder (Transition Float) :=
  Decoder.model "Transition" fun m =>
    Transition.mk <$> required m ["kind", "type"] decodeEffect
      <*> optional m ["durationMs", "duration_ms", "duration"] (.atLeast 0 .float) defaultMs

/-- A transition as JSON. -/
def toJson (t : Transition Float) : Json :=
  .object [("kind", .text ((t.effect.map Effect.name).getD "none")),
    ("durationMs", .float t.durationMs)]

end Transition

namespace Style

/-- The spellings of the fields of a style. -/
def fields : List (List String) := [
  ["fontSize", "font_size"], ["color"], ["fontColor", "font_color"],
  ["fontFamily", "font_family"], ["fontWeight", "font_weight"], ["fontStyle", "font_style"],
  ["textAlign", "text_align"], ["backgroundColor", "background_color"], ["background"],
  ["borderRadius", "border_radius"], ["padding"], ["boxShadow", "box_shadow"],
  ["textShadow", "text_shadow"], ["gradient"], ["transform"]]

/-- Decodes a style. -/
def ofJson : Decoder (Style Float) :=
  Decoder.model "ElementStyle" fun m =>
    let text (preferred plain : String) :=
      optional m (spelled preferred plain) (.nullable .text) none
    Style.mk <$> optional m ["fontSize", "font_size"] decodeLength none
      <*> text "color" "color"
      <*> text "fontColor" "font_color"
      <*> text "fontFamily" "font_family"
      <*> optional m ["fontWeight", "font_weight"] decodeWeight none
      <*> text "fontStyle" "font_style"
      <*> optional m ["textAlign", "text_align"] (.nullable (.among Align.all Align.name)) none
      <*> text "backgroundColor" "background_color"
      <*> text "background" "background"
      <*> optional m ["borderRadius", "border_radius"] decodeLength none
      <*> optional m ["padding"] decodeLength none
      <*> text "boxShadow" "box_shadow"
      <*> text "textShadow" "text_shadow"
      <*> text "gradient" "gradient"
      <*> text "transform" "transform"
      <*> pure (otherMembers m fields)

/-- A style as JSON. -/
def toJson (s : Style Float) : Json :=
  .object ([("fontSize", .ofOption .float s.fontSize), ("color", .ofOption .text s.color),
    ("fontColor", .ofOption .text s.fontColor), ("fontFamily", .ofOption .text s.fontFamily),
    ("fontWeight", .ofOption .text s.fontWeight), ("fontStyle", .ofOption .text s.fontStyle),
    ("textAlign", .ofOption (.text ∘ Align.name) s.textAlign),
    ("backgroundColor", .ofOption .text s.backgroundColor),
    ("background", .ofOption .text s.background),
    ("borderRadius", .ofOption .float s.borderRadius), ("padding", .ofOption .float s.padding),
    ("boxShadow", .ofOption .text s.boxShadow), ("textShadow", .ofOption .text s.textShadow),
    ("gradient", .ofOption .text s.gradient), ("transform", .ofOption .text s.transform)]
    ++ s.others)

end Style

namespace Point

/-- Decodes an offset. -/
def ofJson : Decoder (Point Float) :=
  Decoder.model "Point" fun m =>
    Point.mk <$> optional m ["x"] .float 0 <*> optional m ["y"] .float 0

/-- An offset as JSON. -/
def toJson (p : Point Float) : Json := .object [("x", .float p.x), ("y", .float p.y)]

end Point

namespace CropBox

/-- Decodes a box. -/
def ofJson : Decoder (CropBox Float) :=
  Decoder.model "CropBox" fun m =>
    CropBox.mk <$> optional m ["left"] .float 0
      <*> optional m ["top"] .float 0
      <*> required m ["width"] .float
      <*> required m ["height"] .float
      <*> optional m ["borderRadius", "border_radius"] (.nullable .float) none

/-- A box as JSON. -/
def toJson (c : CropBox Float) : Json :=
  .object [("left", .float c.left), ("top", .float c.top), ("width", .float c.width),
    ("height", .float c.height), ("borderRadius", .ofOption .float c.borderRadius)]

end CropBox

namespace ExternalAsset

/-- The spellings of the fields of an outside asset. -/
def fields : List (List String) := [["url"], ["platform"], ["originalData", "original_data"]]

/-- Decodes an outside asset. -/
def ofJson : Decoder ExternalAsset :=
  Decoder.model "ExternalAsset" fun m =>
    ExternalAsset.mk <$> optional m ["url"] (.nullable .text) none
      <*> optional m ["platform"] (.nullable .text) none
      <*> optional m ["originalData", "original_data"] .object []
      <*> pure (otherMembers m fields)

/-- An outside asset as JSON. -/
def toJson (a : ExternalAsset) : Json :=
  .object ([("url", .ofOption .text a.url), ("platform", .ofOption .text a.platform),
    ("originalData", .object a.originalData)] ++ a.others)

end ExternalAsset

namespace Properties

/-- The spellings of the fields of the properties. -/
def fields : List (List String) := [
  ["style"], ["placement"], ["position"], ["scale"], ["crop"], ["rotation"],
  ["externalAsset", "external_asset"], ["text"], ["transitionIn", "transition_in"],
  ["transitionOut", "transition_out"]]

/-- Decodes the properties of an element. -/
def ofJson : Decoder (Properties Float) :=
  Decoder.model "ElementProperties" fun m =>
    Properties.mk <$> optional m ["style"] (.nullable Style.ofJson) none
      <*> optional m ["placement"] (.nullable (.among Placement.all Placement.name)) none
      <*> optional m ["position"] (.nullable Point.ofJson) none
      <*> optional m ["scale"] (.moreThan 0 .float) 1
      <*> optional m ["crop"] (.nullable CropBox.ofJson) none
      <*> optional m ["rotation"] (.nullable .float) none
      <*> optional m ["externalAsset", "external_asset"] (.nullable ExternalAsset.ofJson) none
      <*> optional m ["text"] (.nullable .text) none
      <*> optional m ["transitionIn", "transition_in"] (.nullable Transition.ofJson) none
      <*> optional m ["transitionOut", "transition_out"] (.nullable Transition.ofJson) none
      <*> pure (otherMembers m fields)

/-- The properties of an element as JSON. -/
def toJson (p : Properties Float) : Json :=
  .object ([("style", .ofOption Style.toJson p.style),
    ("placement", .ofOption (.text ∘ Placement.name) p.placement),
    ("position", .ofOption Point.toJson p.position), ("scale", .float p.scale),
    ("crop", .ofOption CropBox.toJson p.crop), ("rotation", .ofOption .float p.rotation),
    ("externalAsset", .ofOption ExternalAsset.toJson p.externalAsset),
    ("text", .ofOption .text p.text),
    ("transitionIn", .ofOption Transition.toJson p.transitionIn),
    ("transitionOut", .ofOption Transition.toJson p.transitionOut)] ++ p.others)

end Properties

/-- Takes the kind of an element. Animated pictures are stickers. -/
def decodeKind : Decoder ElementKind
  | .text "gif" => .valid .sticker
  | v => Decoder.among ElementKind.all ElementKind.name v

namespace Element

/-- Decodes the fields of an element, one by one. -/
def ofMembers (m : List (String × Json)) : Checked (Element Float) :=
  Element.mk <$> required m ["id"] .text
    <*> required m ["kind", "type"] decodeKind
    <*> required m ["trackId", "track_id"] .text
    <*> required m ["timelineStartMs", "timeline_start_ms"] .float
    <*> required m ["timelineEndMs", "timeline_end_ms"] .float
    <*> optional m ["sourceStartMs", "source_start_ms"] (.nullable .float) none
    <*> optional m ["sourceEndMs", "source_end_ms"] (.nullable .float) none
    <*> optional m ["speed"] (.moreThan 0 .float) 1
    <*> optional m ["volume"] (.atLeast 0 .float) 1
    <*> optional m ["opacity"] (.atLeast 0 (.atMost 1 .float)) 1
    <*> optional m ["transitionIn", "transition_in"] (.nullable Transition.ofJson) none
    <*> optional m ["transitionOut", "transition_out"] (.nullable Transition.ofJson) none
    <*> optional m ["source"] (.nullable .text) none
    <*> optional m ["text"] (.nullable .text) none
    <*> optional m ["properties"] Properties.ofJson { scale := 1 }

/-- Decodes an element and lifts its transitions. -/
def ofJson : Decoder (Element Float) :=
  Decoder.model "TimelineElement" fun m => liftTransitions <$> ofMembers m

/-- What follows from the fields of an element, as the members of an object. -/
def derived (e : Element Float) : List (String × Json) :=
  [("durationMs", .float e.duration), ("isMedia", .bool e.kind.isMedia),
    ("hasTransition", .bool e.hasTransition), ("displayText", .text e.displayText),
    ("assetSource", .ofOption .text e.assetSource),
    ("sourceRange", .array [.float e.sourceRange.1, .float e.sourceRange.2]),
    ("transitionInMs", .float e.inMs), ("transitionOutMs", .float e.outMs)]

/-- An element as JSON. -/
def toJson (e : Element Float) : Json :=
  .object [("id", .text e.id), ("kind", .text e.kind.name), ("trackId", .text e.trackId),
    ("timelineStartMs", .float e.startMs), ("timelineEndMs", .float e.endMs),
    ("sourceStartMs", .ofOption .float e.sourceStartMs),
    ("sourceEndMs", .ofOption .float e.sourceEndMs), ("speed", .float e.speed),
    ("volume", .float e.volume), ("opacity", .float e.opacity),
    ("transitionIn", .ofOption Transition.toJson e.transitionIn),
    ("transitionOut", .ofOption Transition.toJson e.transitionOut),
    ("source", .ofOption .text e.source), ("text", .ofOption .text e.text),
    ("properties", e.properties.toJson)]

end Element

namespace Track

/-- Decodes a track. -/
def ofJson : Decoder Track :=
  Decoder.model "Track" fun m =>
    Track.mk <$> required m ["id"] .text
      <*> optional m ["index"] .integer 0
      <*> optional m ["kind", "type"] (.among TrackKind.all TrackKind.name) .video

/-- A track as JSON. -/
def toJson (t : Track) : Json :=
  .object [("id", .text t.id), ("index", .int t.index), ("kind", .text t.kind.name)]

end Track

end TimelineExport
