import TimelineExport.Paint.ColorReader
import TimelineExport.Paint.Raster
import TimelineExport.Words.Font

/-!
# Painters

A painter does everything to pictures that an overlay needs: it makes empty pictures and masks,
changes sizes, draws boxes, discs and words, and lays one picture over another. What comes of it is
up to the painter, and every step may fail with a reason of its own. Nothing is supposed of a
painter, so whatever is shown of overlays holds however pictures are painted.
-/

namespace TimelineExport

/-- How pixels are found at another size. -/
inductive Resampling where
  | bilinear
  | lanczos
  deriving DecidableEq, Repr

/-- A box between four sides. -/
structure Box (α : Type) where
  left : α
  top : α
  right : α
  bottom : α
  deriving DecidableEq, Repr

/-- What paints pictures, with places and lengths in `α`. The picture or mask that a step changes
is its last argument. -/
structure Painter (α : Type) where
  /-- The colours that are known by name or as functions. -/
  colors : ColorLibrary
  /-- A picture of one colour. -/
  picture (width height : Int) (fill : Color) : Except String Raster
  /-- A mask of zeros. -/
  mask (width height : Int) : Except String Mask
  /-- A picture at another size. -/
  resize (width height : Int) (how : Resampling) (image : Raster) : Except String Raster
  /-- A picture at the greatest size that fits into a box, with its proportions kept. -/
  contain (width height : Int) (how : Resampling) (image : Raster) : Except String Raster
  /-- The alpha of a picture. -/
  alpha (image : Raster) : Except String Mask
  /-- A picture with another alpha. -/
  withAlpha (alpha : Mask) (image : Raster) : Except String Raster
  /-- A mask with every level replaced by what a table of 256 values has for it. -/
  mapLevels (table : List Int) (mask : Mask) : Except String Mask
  /-- Fills the ellipse inside a box with a level. -/
  ellipse (box : Box α) (level : Int) (mask : Mask) : Except String Mask
  /-- Fills a box with a level. -/
  fill (box : Box Int) (level : Int) (mask : Mask) : Except String Mask
  /-- The levels of one mask where a third one is open, and those of another elsewhere. -/
  select (inside outside selector : Mask) : Except String Mask
  /-- Fills a box with rounded corners. -/
  roundedBox (box : Box α) (radius : α) (fill : Color) (image : Raster) : Except String Raster
  /-- Writes a text whose corner is at a place. -/
  write (x y : α) (text : List Char) (font : Font) (fill : Color) (image : Raster) :
    Except String Raster
  /-- Moves a picture; what comes in from outside is transparent. -/
  move (dx dy : α) (image : Raster) : Except String Raster
  /-- Blurs a picture. -/
  blur (radius : α) (image : Raster) : Except String Raster
  /-- Pastes a picture through its own alpha, with its corner at a place. -/
  paste (top : Raster) (x y : Int) (below : Raster) : Except String Raster
  /-- Lays a picture over another one of the same size. -/
  lay (top below : Raster) : Except String Raster
  /-- The length of the diagonal of a box. -/
  diagonal (width height : Int) : α
  /-- The square root of two. -/
  rootTwo : α

end TimelineExport
