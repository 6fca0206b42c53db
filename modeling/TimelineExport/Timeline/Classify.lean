import TimelineExport.Timeline.Element

/-!
# Routes: which elements are drawn and which are filtered

Styled elements are drawn frame by frame into an overlay; plain media are composited by the
filter program. The decision is an ordered list of rules, and the first rule that applies to an
element decides its route. The last rule applies to every element.
-/

namespace TimelineExport

/-- How an element reaches the output. -/
inductive Route where
  | styled
  | media
  deriving DecidableEq, Repr

/-- The name of a route. -/
def Route.name : Route → String
  | styled => "styled"
  | media => "media"

/-- The rules, in the order in which they are tried. -/
inductive Rule where
  | textOrCaption
  | sticker
  | richStyle
  | transition
  | shapedCrop
  | nativeMedia
  deriving DecidableEq, Repr

namespace Rule

/-- All rules, in order. -/
def all : List Rule := [textOrCaption, sticker, richStyle, transition, shapedCrop, nativeMedia]

/-- The name of a rule. -/
def name : Rule → String
  | textOrCaption => "text_or_caption"
  | sticker => "sticker"
  | richStyle => "rich_style"
  | transition => "transition"
  | shapedCrop => "shaped_crop"
  | nativeMedia => "native_media"

/-- The route that a rule gives. -/
def route : Rule → Route
  | nativeMedia => .media
  | _ => .styled

end Rule

section
variable {α : Type} [Scalar α]

/-- Whether a number is given and is not zero. -/
def isSet (x : Option α) : Bool := x.any fun v => !(v == 0)

/-- Whether a style asks for more than plain words. -/
def Style.isRich (s : Style α) : Bool :=
  (nonEmpty s.boxShadow).isSome || (nonEmpty s.textShadow).isSome || isSet s.borderRadius ||
    (nonEmpty s.background).isSome || (nonEmpty s.fontFamily).isSome ||
    (nonEmpty s.gradient).isSome || (nonEmpty s.transform).isSome

namespace Rule

/-- Whether a rule applies to an element. -/
def applies (e : Element α) : Rule → Bool
  | textOrCaption => e.kind.isText
  | sticker =>
    e.kind = .sticker || (e.kind.isMedia && e.properties.externalAsset.any (·.isSticker))
  | richStyle => e.properties.style.any (·.isRich)
  | transition => e.hasTransition
  | shapedCrop =>
    e.properties.crop.any fun crop => isSet crop.borderRadius || isSet e.properties.rotation
  | nativeMedia => true

end Rule

namespace Element

/-- The rule that decides an element's route: the first that applies. -/
def rule (e : Element α) : Rule := (Rule.all.find? (Rule.applies e)).getD .nativeMedia

/-- The route of an element. -/
def route (e : Element α) : Route := e.rule.route

/-- Whether an element can be drawn: everything but moving pictures and sound. -/
def canDraw (e : Element α) : Bool := e.kind ≠ .video && e.kind ≠ .audio

/-- Whether an element belongs to the overlay: it is styled and can be drawn. -/
def isOverlaid (e : Element α) : Bool := e.route = .styled && e.canDraw

end Element

/-- The styled elements and the plain media, each in input order. -/
def classify (es : List (Element α)) : List (Element α) × List (Element α) :=
  (es.filter (·.route = .styled), es.filter (·.route = .media))

/-- How many elements there are of each kind, in the order of the kinds' names. -/
def kindSummary (es : List (Element α)) : String :=
  let kinds : List ElementKind := [.audio, .caption, .image, .sticker, .text, .video]
  let parts := kinds.filterMap fun k =>
    let n := es.countP (·.kind = k)
    if n = 0 then none else some (toString n ++ " " ++ k.name)
  if parts.isEmpty then "none" else ", ".intercalate parts

/-- A summary of a classification. -/
def classificationSummary (es : List (Element α)) : String :=
  let (styled, media) := classify es
  "styled: " ++ kindSummary styled ++ "; media: " ++ kindSummary media

end

end TimelineExport
