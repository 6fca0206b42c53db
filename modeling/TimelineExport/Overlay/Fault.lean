import TimelineExport.Error.Basic
import TimelineExport.Text.Quoted
import TimelineExport.Words.Block

/-!
# Failures of the overlay

An overlay fails because there is nothing to draw, because an element cannot be drawn, because a
picture is missing or is none, because a number has no value or the painter fails, because a frame
fails, because the frames are not those that were expected, because there is nobody to draw them, or
because it was cancelled or a listener raised. Some of these are failures of the overlay itself
(`isOwn`); any other one is reported as the reason why the overlay failed.
-/

namespace TimelineExport

/-- Why an overlay, or one of its frames, could not be drawn. -/
inductive OverlayFault where
  | noFrames
  | cancelled
  | cannotDraw (element kind : String)
  | sourceMissing (element : String) (path : Option String)
  | notPicture (path : String)
  /-- An animation without a picture at the place where one is looked for. -/
  | noPicture
  | style (fault : StyleFault)
  | block (fault : BlockFault)
  | number (fault : NonFinite)
  /-- A step of the painter failed. -/
  | painting (reason : String)
  | frame (index : Nat) (reason : String)
  | missingFrames (count : Nat) (first : String)
  | unexpectedFrames (names : List String)
  | listener (reason : String)
  /-- There are no workers, or one of them could not go on. -/
  | worker (reason : String)
  deriving DecidableEq, Repr

/-- What a reader is told about a style that cannot be used. -/
def StyleFault.message : StyleFault → String
  | nonFinite fault => fault.message
  | weight text => "invalid literal for int() with base 10: " ++ quoted text
  | overlongWeight count => tooManyDigits count

/-- What a reader is told about a block that cannot be drawn. -/
def BlockFault.message : BlockFault → String
  | nonFinite fault => fault.message
  | negativeSize => "Width and height must be >= 0"
  | invertedWidth => "x1 must be greater than or equal to x0"
  | invertedHeight => "y1 must be greater than or equal to y0"

namespace OverlayFault

/-- Whether the fault is a failure of the overlay itself. -/
def isOwn : OverlayFault → Bool
  | noFrames | cancelled | cannotDraw _ _ | sourceMissing _ _ | frame _ _ | missingFrames _ _
  | unexpectedFrames _ => true
  | _ => false

/-- What a reader is told about a fault. -/
def message : OverlayFault → String
  | noFrames => "Overlay duration must be positive"
  | cancelled => "Overlay rendering cancelled"
  | cannotDraw element kind =>
    "Element " ++ element ++ " of kind " ++ kind ++ " cannot be rendered as overlay"
  | sourceMissing element path =>
    "Element " ++ element ++ ": source file missing: " ++ path.getD "None"
  | notPicture path => "cannot identify image file " ++ quoted path
  | noPicture => "list index out of range"
  | style fault => fault.message
  | block fault => fault.message
  | number fault => fault.message
  | frame index reason => "Frame " ++ toString index ++ " failed: " ++ reason
  | missingFrames count first =>
    "Overlay sequence has " ++ toString count ++ " missing frames, first " ++ first
  | unexpectedFrames names =>
    "Overlay sequence has unexpected frames: [" ++ ", ".intercalate (names.map quoted) ++ "]"
  | painting reason | listener reason | worker reason => reason

/-- The failure of the export that reports a fault. -/
def toError (fault : OverlayFault) : ExportError :=
  .overlay (if fault.isOwn then fault.message else "Overlay rendering failed: " ++ fault.message)

end OverlayFault

end TimelineExport
