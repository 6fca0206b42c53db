import TimelineExport.Overlay.Fault
import TimelineExport.Timeline.Classify
import TimelineExport.Words.Block

/-!
# Sprites

A sprite is an element ready to be drawn: its pictures, how long each is shown, and where the
element rests on the canvas. Text becomes one picture; a source picture is fitted into its box
and may be an animation, which is repeated (`Sprite.frameIndex`). `prepareSprites` builds the
sprites of a list of elements from the bottom to the top: by the index of the track, and then by
the place in the list.
-/

namespace TimelineExport

/-- A picture file: its frames, each with how long it is shown. -/
structure Picture (α : Type) where
  frames : List (Raster × Option α)

/-- What a source file holds, as far as the overlay is concerned. -/
inductive SourceFile (α : Type) where
  | picture (p : Picture α)
  | other

/-- The canvas on which sprites are placed. -/
structure Canvas where
  width : Int
  height : Int
  deriving DecidableEq, Repr

/-- An element's pictures, and the place where it rests. -/
structure Sprite (α : Type) where
  element : Element α
  frames : List Raster
  durationsMs : List α
  x : Int
  y : Int

section
variable {α : Type} [Scalar α]

/-- How long a picture is shown if it does not say, or says no time. -/
def defaultPictureMs : α := 100

/-- The side of the box of a sticker. -/
def stickerSide : α := 200

/-- The part of the canvas's width at which text is wrapped. -/
def wrapFraction : α := 0.8

/-- The distance of a placement from the canvas's edge, as a part of its height. -/
def placementMargin : α := 0.15

/-! ### The pictures of an animation -/

/-- The picture in whose interval a time lies; a time behind them all lies in the last. -/
def intervalIndex : (durations : List α) → α → Nat
  | [], _ => 0
  | [_], _ => 0
  | d :: ds, t => if t < d then 0 else intervalIndex ds (t - d) + 1

/-- The picture that a sprite shows at a local time. -/
def Sprite.frameIndex (s : Sprite α) (localMs : α) : Nat :=
  if s.frames.length = 1 then 0
  else
    let cycle := Scalar.total s.durationsMs
    intervalIndex s.durationsMs (if cycle > 0 then Scalar.modulo localMs cycle else 0)

/-! ### Fitting and placing -/

/-- Rounds a value to a whole number. -/
def wholeNumber (x : α) : Except OverlayFault Int := (Scalar.nearest x).mapError .number

/-- What a painter made, or why the overlay fails if it made nothing. -/
def painted {β : Type} (x : Except String β) : Except OverlayFault β := x.mapError .painting

namespace Element

/-- The box into which a source picture is fitted, scaled. -/
def fitBox (canvas : Canvas) (e : Element α) : Except OverlayFault (Int × Int) := do
  let (width, height) : α × α :=
    match e.properties.crop with
    | some crop => (crop.width, crop.height)
    | none =>
      if e.kind = .sticker then (stickerSide, stickerSide)
      else (Scalar.ofInt canvas.width, Scalar.ofInt canvas.height)
  let scale := e.properties.scale
  return (max 1 (← wholeNumber (width * scale)), max 1 (← wholeNumber (height * scale)))

/-- The placement of an element; captions rest at the bottom unless they are placed. -/
def restingPlacement (e : Element α) : Placement :=
  e.properties.placement.getD (if e.kind = .caption then .bottom else .middle)

/-- The top left corner of a block of a given size at rest: in the middle of the crop box if
there is one, or else at its placement, moved by its offset. -/
def place (canvas : Canvas) (e : Element α) (width height : Int) :
    Except OverlayFault (Int × Int) := do
  let w : α := Scalar.ofInt width
  let h : α := Scalar.ofInt height
  match e.properties.crop with
  | some crop =>
    return (← wholeNumber (crop.left + (crop.width - w) / 2),
      ← wholeNumber (crop.top + (crop.height - h) / 2))
  | none =>
    let position := e.properties.position.getD ⟨0, 0⟩
    let canvasHeight : α := Scalar.ofInt canvas.height
    let x := (Scalar.ofInt canvas.width - w) / 2 + position.x
    let y :=
      match e.restingPlacement with
      | .top => canvasHeight * placementMargin
      | .bottom => canvasHeight * (1 - placementMargin) - h
      | .middle => (canvasHeight - h) / 2
    return (← wholeNumber x, ← wholeNumber (y + position.y))

end Element

/-! ### Building sprites -/

/-- A length scaled by a factor, but at least one. -/
def scaledLength (n : Nat) (scale : α) : Except OverlayFault Int :=
  (wholeNumber (Scalar.ofInt n * scale)).map (max 1)

/-- The picture of an element's words, and the margin around them. -/
def wordPicture (painter : Painter α) (face : Typeface α) (canvas : Canvas) (e : Element α) :
    Except OverlayFault (Raster × Int) := do
  let caption := e.kind = .caption
  let runs ←
    if caption then (captionRuns painter.colors e.displayText).mapError .number
    else pure [{ text := e.displayText.toList }]
  let style ← (BlockStyle.ofStyle painter.colors e.properties.style caption 1).mapError .style
  let limit : α :=
    match e.properties.crop with
    | some crop => crop.width
    | none => Scalar.ofInt canvas.width * wrapFraction
  let limit ← (Scalar.truncated limit).mapError .number
  let block ← (TextBlock.ofRuns face runs style (some limit)).mapError .block
  let image ← painted (block.draw painter)
  let scale := e.properties.scale
  if scale == 1 then return (image, block.margin)
  else
    let width ← scaledLength image.width scale
    let height ← scaledLength image.height scale
    let image ← painted (painter.resize width height .lanczos image)
    return (image, ← wholeNumber (Scalar.ofInt block.margin * scale))

/-- The pictures of an element's source, fitted into its box, and how long each is shown. -/
def sourcePictures (painter : Painter α) (files : String → Option (SourceFile α))
    (canvas : Canvas) (e : Element α) : Except OverlayFault (List Raster × List α) := do
  let missing : OverlayFault := .sourceMissing e.id e.assetSource
  let some path := nonEmpty e.assetSource | throw missing
  let some file := files path | throw missing
  let (width, height) ← e.fitBox canvas
  match file with
  | .other => throw (.notPicture path)
  | .picture p =>
    let frames ← p.frames.mapM fun frame => painted (painter.contain width height .lanczos frame.1)
    return (frames, p.frames.map fun frame => (BlockStyle.nonZero frame.2).getD defaultPictureMs)

/-- Builds the sprite of an element. -/
def buildSprite (painter : Painter α) (face : Typeface α) (files : String → Option (SourceFile α))
    (canvas : Canvas) (e : Element α) : Except OverlayFault (Sprite α) := do
  if !e.canDraw then throw (.cannotDraw e.id e.kind.name)
  let (frames, durationsMs, margin) ←
    if e.kind.isText then do
      let (image, margin) ← wordPicture painter face canvas e
      pure ([image], [(0 : α)], margin)
    else do
      let (frames, durations) ← sourcePictures painter files canvas e
      pure (frames, durations, 0)
  let some first := frames.head? | throw .noPicture
  let (x, y) ← e.place canvas (first.width - 2 * margin) (first.height - 2 * margin)
  return { element := e, frames, durationsMs, x := x - margin, y := y - margin }

/-- The index of a track; of tracks with the same id the last one counts, and a track that is
not listed has the index zero. -/
def trackIndex (tracks : List Track) (id : String) : Int :=
  ((tracks.reverse.find? (·.id = id)).map (·.index)).getD 0

/-- The elements from the bottom to the top. -/
def drawingOrder (tracks : List Track) (es : List (Element α)) : List (Element α) :=
  es.mergeSort fun a b => trackIndex tracks a.trackId ≤ trackIndex tracks b.trackId

/-- Builds the sprites of elements, from the bottom to the top. -/
def prepareSprites (painter : Painter α) (face : Typeface α)
    (files : String → Option (SourceFile α)) (canvas : Canvas) (es : List (Element α))
    (tracks : List Track) : Except OverlayFault (List (Sprite α)) :=
  (drawingOrder tracks es).mapM (buildSprite painter face files canvas)

end

end TimelineExport
