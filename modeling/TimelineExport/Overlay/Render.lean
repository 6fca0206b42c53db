import TimelineExport.Compile.Program
import TimelineExport.Overlay.Compose
import TimelineExport.Overlay.Pass

/-!
# Rendering an overlay

`OverlayTask.render` turns styled elements into a directory of numbered frames, one for each frame
of the output. It either gives the sequence, and the directory holds exactly its frames; or it
gives the reason of the failure, and the directory it was about to fill is gone.
-/

namespace TimelineExport

/-- The name of a numbered frame. -/
def frameName (n : Nat) : String :=
  let digits := toString n
  "frame_" ++ String.ofList (List.replicate (6 - digits.length) '0') ++ digits ++ ".png"

/-- What an overlay is to show. -/
structure OverlayTask (α : Type) where
  painter : Painter α
  canvas : Canvas
  fps : Int
  elements : List (Element α)
  tracks : List Track
  durationMs : α
  /-- The directory into which the frames are written. -/
  directory : String
  /-- How many workers may draw side by side. -/
  workers : Int := 4

/-- Why an overlay was not rendered: a failure of the overlay, or a duration that cannot be
counted in frames. -/
inductive OverlayFailure where
  | overlay (error : ExportError)
  | duration (fault : NonFinite)
  deriving Repr

/-- What became of an overlay: the sequence or the failure, the files in the directory, the reports,
and whether this is the end of it or a pass is still on its way. -/
structure OverlayOutcome where
  result : Except OverlayFailure OverlaySequence
  files : Option (List (String × Option Raster))
  reports : List (Nat × Nat) := []
  ended : Bool := true

namespace OverlayTask

section
variable {α : Type} [Scalar α]

/-- The plan of the pass over the frames of an overlay. A frame that shows a change is not kept
for another one. -/
def plan (task : OverlayTask α) (sprites : List (Sprite α)) (total : Nat)
    (listener : Option FrameListener) : FramePlan (List (ElementState α)) Raster :=
  let states (n : Nat) := frameState sprites (frameTimeMs task.fps (Int.ofNat n))
  { total, listener
    key := fun n =>
      let s := states n
      if s.any (·.isChanged) then none else some s
    same := sameStates
    draw := fun n => composeFrame task.painter task.canvas sprites (states n)
    name := frameName }

/-- Renders an overlay from what preparing its sprites has given. The events are those of its pass;
the files are those in the directory, if there is one. -/
def renderPrepared (events : (total : Nat) → List FrameEvent)
    (prepared : Except OverlayFault (List (Sprite α))) (listener : Option FrameListener)
    (cancelled : Bool) (files : Option (List String)) (task : OverlayTask α) : OverlayOutcome :=
  let existing := files.map fun names => names.map fun name => (name, none)
  match frameCount task.fps task.durationMs with
  | .error fault => { result := .error (.duration fault), files := existing }
  | .ok count =>
    let failed (fault : OverlayFault) : Except OverlayFailure OverlaySequence :=
      .error (.overlay fault.toError)
    if count ≤ 0 then { result := failed .noFrames, files := existing }
    else if cancelled then { result := failed .cancelled, files := existing }
    else
      match prepared with
      | .error fault => { result := failed fault, files := none }
      | .ok sprites =>
        if task.workers ≤ 0 then
          { result := failed (.worker "max_workers must be greater than 0"), files := none }
        else
          let plan := task.plan sprites count.toNat listener
          let pass := FramePass.run plan { directory := some (existing.getD []) }
            (events count.toNat)
          { files := pass.directory
            reports := pass.reports
            ended := pass.closed
            result :=
              match pass.failure with
              | some fault => failed fault
              | none => .ok { directory := task.directory, frameCount := count, fps := task.fps } }

/-- Renders an overlay. The events are those of its pass. -/
def renderWith (events : (total : Nat) → List FrameEvent) (face : Typeface α)
    (sources : String → Option (SourceFile α)) (listener : Option FrameListener)
    (cancelled : Bool) (files : Option (List String)) (task : OverlayTask α) : OverlayOutcome :=
  task.renderPrepared events
    (prepareSprites task.painter face sources task.canvas task.elements task.tracks) listener
    cancelled files

/-- Renders an overlay frame by frame. -/
def render (face : Typeface α) (sources : String → Option (SourceFile α))
    (listener : Option FrameListener) (cancelled : Bool) (files : Option (List String))
    (task : OverlayTask α) : OverlayOutcome :=
  task.renderWith FramePass.inOrder face sources listener cancelled files

end

end OverlayTask

end TimelineExport
