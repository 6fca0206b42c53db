import TimelineExport.Overlay.Sprite

/-!
# The state of a frame

What a frame shows is decided by a short description of each visible element: which picture,
how opaque, how far moved, how large, and how much is uncovered. An element is visible from its
start up to, but not including, its end. During the first part of that span the transition at
its start is active, and during the last part the one at its end.

Frames with equal states look equal, which is what lets a drawn frame be used again.
-/

namespace TimelineExport

/-- Everything that decides how one element looks in one frame. -/
structure ElementState (α : Type) where
  /-- The place of the sprite in drawing order. -/
  sprite : Nat
  /-- The picture of the sprite. -/
  frame : Nat
  alpha : α
  dx : α
  scale : α
  wipe : α
  iris : Option α
  deriving DecidableEq, Repr

section
variable {α : Type} [Scalar α]

/-- How far a slide begins beside its place of rest. -/
def slidePixels : α := 100

/-- The size at which a zoom begins. -/
def zoomStart : α := 0.5

/-- How an element looks at one time, before it is rounded. -/
structure Appearance (α : Type) where
  alpha : α
  dx : α
  scale : α
  wipe : α
  iris : Option α
  deriving Repr

/-- How an element looks without transitions. -/
def Appearance.atRest (opacity : α) : Appearance α :=
  { alpha := opacity, dx := 0, scale := 1, wipe := 1, iris := none }

/-- How a transition changes what an element looks like. A progress of zero hides it, and one of
one shows it fully. -/
def Appearance.apply (a : Appearance α) (effect : Effect) (progress : α) : Appearance α :=
  match effect with
  | .fade | .dissolve => { a with alpha := a.alpha * progress }
  | .slide => { a with dx := a.dx - (1 - progress) * slidePixels }
  | .zoom =>
    { a with
      scale := a.scale * (zoomStart + (1 - zoomStart) * progress)
      alpha := a.alpha * progress }
  | .wipe => { a with wipe := Scalar.least a.wipe progress }
  | .iris => { a with iris := some ((a.iris.map (Scalar.least · progress)).getD progress) }

namespace Element

/-- Whether an element is visible at a time. -/
def isVisibleAt (e : Element α) (t : α) : Bool := e.startMs ≤ t && t < e.endMs

/-- The transitions that are active at a time, each with its progress. -/
def activeTransitions (e : Element α) (t : α) : List (Transition α × α) :=
  let atStart :=
    if e.inMs > 0 && decide (t < e.startMs + e.inMs) then
      e.transitionIn.map fun x => (x, (t - e.startMs) / e.inMs)
    else none
  let atEnd :=
    if e.outMs > 0 && decide (t > e.endMs - e.outMs) then
      e.transitionOut.map fun x => (x, (e.endMs - t) / e.outMs)
    else none
  atStart.toList ++ atEnd.toList

/-- How an element looks at a time. -/
def appearanceAt (e : Element α) (t : α) : Appearance α :=
  (e.activeTransitions t).foldl (fun a (x, p) =>
    match x.effect with
    | some effect => a.apply effect (Scalar.greatest 0 (Scalar.least 1 p))
    | none => a) (.atRest e.opacity)

end Element

/-- The state of a sprite at a time. -/
def spriteState (index : Nat) (s : Sprite α) (t : α) : ElementState α :=
  let a := s.element.appearanceAt t
  { sprite := index
    frame := s.frameIndex (t - s.element.startMs)
    alpha := Scalar.rounded 4 a.alpha
    dx := Scalar.rounded 2 a.dx
    scale := Scalar.rounded 4 a.scale
    wipe := Scalar.rounded 4 a.wipe
    iris := a.iris.map (Scalar.rounded 4) }

/-- The states of the visible sprites at a time, in drawing order. -/
def frameState (sprites : List (Sprite α)) (t : α) : List (ElementState α) :=
  sprites.zipIdx.filterMap fun (s, index) =>
    if s.element.isVisibleAt t then some (spriteState index s t) else none

/-- Whether an element is not seen as it rests: it is not opaque, or it is changed by a
transition. -/
def ElementState.isChanged (s : ElementState α) : Bool :=
  !(s.alpha == 1) || !(s.dx == 0) || !(s.scale == 1) || !(s.wipe == 1) || s.iris.isSome

/-- Whether two states are equal as values. -/
def ElementState.same (a b : ElementState α) : Bool :=
  a.sprite = b.sprite && a.frame = b.frame && a.alpha == b.alpha && a.dx == b.dx &&
    a.scale == b.scale && a.wipe == b.wipe && (match a.iris, b.iris with
      | none, none => true
      | some x, some y => x == y
      | _, _ => false)

/-- Whether two frames have the same states. -/
def sameStates : List (ElementState α) → List (ElementState α) → Bool
  | [], [] => true
  | a :: as, b :: bs => a.same b && sameStates as bs
  | _, _ => false

/-- How many frames an output of a duration has. -/
def frameCount (fps : Int) (durationMs : α) : Except NonFinite Int :=
  Scalar.ceiling (Scalar.rounded 6 (durationMs * Scalar.ofInt fps / 1000))

/-- The time that a frame shows. -/
def frameTimeMs (fps : Int) (n : Int) : α := Scalar.ofInt (n * 1000) / Scalar.ofInt fps

end

end TimelineExport
