import TimelineExport.Json.Value
import TimelineExport.Overlay.State

/-!
# Overlays as JSON

Pictures, sprites and states of frames as JSON values. A picture is shown as runs of equal
pixels, row by row.
-/

namespace TimelineExport

/-- The channels of a pixel as a list. -/
def Pixel.toJson (p : Pixel) : Json :=
  .ofList (fun n : Nat => .int n) [p.red, p.green, p.blue, p.alpha]

/-- The channels of a pixel in two digits each. -/
def Pixel.digits (p : Pixel) : String :=
  String.ofList ([p.red, p.green, p.blue, p.alpha].flatMap (hexDigits 2))

/-- Values with the numbers of times that they stand one behind another. -/
def runLengths {β : Type} [DecidableEq β] (xs : List β) : List (Nat × β) :=
  xs.foldr (fun x out =>
    match out with
    | (n, y) :: rest => if x = y then (n + 1, y) :: rest else (1, x) :: out
    | [] => [(1, x)]) []

/-- A picture as runs of pixels. -/
def Raster.toJson (image : Raster) : Json :=
  .ofList (fun (n, p) => .array [.int n, .text p.digits]) (runLengths image.pixels)

/-- The size of a picture as a list. -/
def Raster.size (image : Raster) : Json := .array [.int image.width, .int image.height]

/-- The state of an element as an object. -/
def ElementState.toJson (s : ElementState Float) : Json :=
  .object [("sprite", .int s.sprite), ("frame", .int s.frame), ("alpha", .float s.alpha),
    ("dx", .float s.dx), ("scale", .float s.scale), ("wipe", .float s.wipe),
    ("iris", .ofOption .float s.iris), ("inTransition", .bool s.isChanged)]

/-- A sprite as an object. -/
def Sprite.toJson (s : Sprite Float) : Json :=
  .object [("id", .text s.element.id), ("x", .int s.x), ("y", .int s.y),
    ("durations", .ofList .float s.durationsMs), ("frames", .ofList Raster.size s.frames)]

end TimelineExport
