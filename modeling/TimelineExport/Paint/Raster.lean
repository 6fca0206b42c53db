/-!
# Pictures made of pixels

A `Raster` gives a pixel for every place inside its size, and a `Mask` gives a level. Channels and
levels are whole numbers up to 255.
-/

namespace TimelineExport

/-- A pixel with four channels up to 255. -/
structure Pixel where
  red : Nat
  green : Nat
  blue : Nat
  alpha : Nat
  deriving DecidableEq, Repr, Inhabited

/-- The empty pixel. -/
def Pixel.clear : Pixel := ⟨0, 0, 0, 0⟩

/-- A picture: its size, and its pixel at every place inside. -/
structure Raster where
  width : Nat
  height : Nat
  pixel : Int → Int → Pixel

/-- A mask: its size, and its level at every place inside. -/
structure Mask where
  width : Nat
  height : Nat
  level : Int → Int → Nat

namespace Raster

/-- A picture of one colour. -/
def solid (width height : Nat) (p : Pixel) : Raster := ⟨width, height, fun _ _ => p⟩

/-- An empty picture. -/
def clear (width height : Nat) : Raster := solid width height .clear

/-- All pixels, row by row. -/
def pixels (r : Raster) : List Pixel :=
  (List.range r.height).flatMap fun y =>
    (List.range r.width).map fun x => r.pixel (Int.ofNat x) (Int.ofNat y)

end Raster

end TimelineExport
