import TimelineExport.Overlay.State

/-!
# Drawing a frame

A frame is drawn from the bottom to the top on an empty canvas. Each visible sprite's picture is
resized, made translucent, masked, pasted onto a layer of its own, and the layer is laid over
what is there (`composeFrame`).
-/

namespace TimelineExport

section
variable {α : Type} [Scalar α]

/-- The radius of the full disc of an iris, as a part of the diagonal of its box over the root of
two. -/
def irisReach : α := 1.5

/-- A picture at the size that a state asks for, with the place to which its corner moves. -/
def scalePicture (painter : Painter α) (s : ElementState α) (image : Raster) (x y : α) :
    Except OverlayFault (Raster × α × α) := do
  if s.scale == 1 then return (image, x, y)
  else
    let width ← scaledLength image.width s.scale
    let height ← scaledLength image.height s.scale
    let resized ← painted (painter.resize width height .bilinear image)
    return (resized, x + Scalar.ofInt (image.width - width) / 2,
      y + Scalar.ofInt (image.height - height) / 2)

/-- The levels of alpha under an opacity. -/
def opacityLevels (opacity : α) : Except OverlayFault (List Int) :=
  (List.range 256).mapM fun level : Nat => wholeNumber (Scalar.ofInt level * opacity)

/-- The part of a picture that an iris and a wipe leave uncovered. -/
def uncovered (painter : Painter α) (s : ElementState α) (width height : Nat) :
    Except OverlayFault Mask := do
  let mask ← painted (painter.mask width height)
  let mask ← painted <|
    match s.iris with
    | some iris =>
      let radius := iris * irisReach * painter.diagonal width height / painter.rootTwo
      let cx : α := Scalar.ofInt width / 2
      let cy : α := Scalar.ofInt height / 2
      painter.ellipse ⟨cx - radius, cy - radius, cx + radius, cy + radius⟩ 255 mask
    | none => painter.fill ⟨0, 0, width, height⟩ 255 mask
  if s.wipe == 1 then return mask
  else
    let edge ← wholeNumber (Scalar.ofInt width * s.wipe)
    painted (painter.fill ⟨edge, 0, width, height⟩ 0 mask)

/-- The alpha of a picture under a state. -/
def stateAlpha (painter : Painter α) (s : ElementState α) (image : Raster) :
    Except OverlayFault Mask := do
  let alpha ← painted (painter.alpha image)
  let alpha ←
    if s.alpha == 1 then pure alpha
    else painted (painter.mapLevels (← opacityLevels s.alpha) alpha)
  if s.wipe == 1 && s.iris.isNone then return alpha
  else
    let mask ← uncovered painter s image.width image.height
    let hidden ← painted (painter.mask image.width image.height)
    painted (painter.select alpha hidden mask)

/-- Draws a sprite under a state over what is there. -/
def drawState (painter : Painter α) (canvas : Canvas) (sprites : List (Sprite α)) (below : Raster)
    (s : ElementState α) : Except OverlayFault Raster := do
  let some sprite := sprites[s.sprite]? | throw .noPicture
  let some image := sprite.frames[s.frame]? | throw .noPicture
  let (image, x, y) ←
    scalePicture painter s image (Scalar.ofInt sprite.x + s.dx) (Scalar.ofInt sprite.y)
  let alpha ← stateAlpha painter s image
  let image ← painted (painter.withAlpha alpha image)
  let layer ← painted (painter.picture canvas.width canvas.height .transparent)
  let layer ← painted (painter.paste image (← wholeNumber x) (← wholeNumber y) layer)
  painted (painter.lay layer below)

/-- Draws a frame. -/
def composeFrame (painter : Painter α) (canvas : Canvas) (sprites : List (Sprite α))
    (states : List (ElementState α)) : Except OverlayFault Raster := do
  let empty ← painted (painter.picture canvas.width canvas.height .transparent)
  states.foldlM (drawState painter canvas sprites) empty

end

end TimelineExport
