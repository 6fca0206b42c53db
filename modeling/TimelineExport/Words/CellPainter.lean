import TimelineExport.Paint.ColorLibrary
import TimelineExport.Words.Block

/-!
# A painter of cells

`Painter.cells` is the painter with which overlays are run where pictures are compared pixel by
pixel. A word is a filled cell of its width in `Typeface.cells` and its font's size, a pixel of a
picture at another size is one pixel of the original, and a blur changes nothing. Nothing is proved
of it.

All arithmetic on channels is integer arithmetic with its own roundings: products of two channels
are divided by 255 and rounded (`scaleChannel`), and `Pixel.onto` lays one pixel over another.
Pasting a picture through its own alpha multiplies every channel, alpha too, by alpha; what is
pasted onto an empty layer is therefore darkened, and its alpha squared (`Pixel.pasted`).
-/

namespace TimelineExport

/-- The product of two channels on the scale of one channel, rounded. -/
def scaleChannel (a b : Nat) : Nat :=
  let t := a * b + 128
  (t / 256 + t) / 256

/-- A value confined to the range of a channel. -/
def clampChannel (n : Int) : Nat := (min 255 (max 0 n)).toNat

/-- A colour as a pixel. -/
def Color.toPixel (c : Color) : Pixel :=
  ⟨clampChannel c.red, clampChannel c.green, clampChannel c.blue, clampChannel c.alpha⟩

namespace Pixel

/-- Applies a function to the colours and keeps alpha. -/
def mapColors (f : Nat → Nat) (p : Pixel) : Pixel := ⟨f p.red, f p.green, f p.blue, p.alpha⟩

/-- A pixel laid over another. -/
def onto (top below : Pixel) : Pixel :=
  if top.alpha = 0 then below
  else
    let out := top.alpha * 255 + below.alpha * (255 - top.alpha)
    let share := top.alpha * 255 * 255 * 128 / out
    let rest := 255 * 128 - share
    let mix (s d : Nat) : Nat :=
      let t := s * share + d * rest + 128 * 128
      (t / 256 + t) / 256 / 128
    let t := out + 128
    ⟨mix top.red below.red, mix top.green below.green, mix top.blue below.blue,
      (t / 256 + t) / 256⟩

/-- A pixel pasted onto an empty one through its own alpha. -/
def pasted (p : Pixel) : Pixel :=
  let f := (scaleChannel · p.alpha)
  ⟨f p.red, f p.green, f p.blue, f p.alpha⟩

/-- A pixel after its colours were multiplied by alpha and divided again, as happens when a
picture changes its size. -/
def resampled (p : Pixel) : Pixel :=
  if p.alpha = 255 then p
  else if p.alpha = 0 then clear
  else p.mapColors fun c => min 255 (255 * scaleChannel c p.alpha / p.alpha)

end Pixel

namespace Raster

/-- Whether a place is inside. -/
def contains (r : Raster) (x y : Int) : Bool :=
  0 ≤ x && x < r.width && 0 ≤ y && y < r.height

/-- The pixel at a place, which is empty outside. -/
def pixelAt (r : Raster) (x y : Int) : Pixel := if r.contains x y then r.pixel x y else .clear

/-- A picture laid over another of the same size. -/
def onto (top below : Raster) : Raster :=
  { below with pixel := fun x y => (top.pixel x y).onto (below.pixel x y) }

/-- A picture pasted through its own alpha onto an empty layer. -/
def pasteAt (left top : Int) (r : Raster) (width height : Nat) : Raster :=
  ⟨width, height, fun x y => (r.pixelAt (x - left) (y - top)).pasted⟩

/-- A picture at another size. -/
def resize (width height : Nat) (r : Raster) : Raster :=
  if r.width = width ∧ r.height = height then r
  else
    ⟨width, height, fun x y =>
      (r.pixelAt (x * r.width / width) (y * r.height / height)).resampled⟩

end Raster

/-- The greatest coordinate. -/
def maxCoordinate : Int := 2147483647

/-- The number above the greatest one that any coordinate can be told in. -/
def coordinateLimit : Int := 9223372036854775808

/-- What a reader is told about a coordinate outside the range. -/
def coordinateMessage (n : Int) : String :=
  if coordinateLimit ≤ n ∨ n < -coordinateLimit then "Python int too large to convert to C long"
  else if maxCoordinate < n then "signed integer is greater than maximum"
  else "signed integer is less than minimum"

section
variable {α : Type} [Scalar α]

/-- A coordinate as a whole number; one without a value counts as zero. -/
def wholeOrZero (x : Except NonFinite Int) : Int := x.toOption.getD 0

/-- The size at which a picture is contained in a box with its proportions kept. -/
def containedSize (width height : Nat) (box : Int × Int) : Except NonFinite (Int × Int) := do
  let w : α := Scalar.ofInt width
  let h : α := Scalar.ofInt height
  let ratio := w / h
  let target : α := Scalar.ofInt box.1 / Scalar.ofInt box.2
  if ratio == target then return box
  else if ratio > target then return (box.1, ← Scalar.nearest (h / w * Scalar.ofInt box.1))
  else return (← Scalar.nearest (w / h * Scalar.ofInt box.2), box.2)

/-- Whether a place lies inside a disc: a pixel whose centre is less than half a pixel outside still
counts. A disc without a radius is empty. The distance is compared in squares. -/
def Box.discCovers (b : Box α) (x y : Int) : Bool :=
  let radius := (b.right - b.left) / 2
  let dx : α := Scalar.ofInt x + 0.5 - (b.left + b.right) / 2
  let dy : α := Scalar.ofInt y + 0.5 - (b.top + b.bottom) / 2
  let beyond := dx * dx + dy * dy - radius * radius - 0.25
  decide (0 < radius) && (decide (beyond ≤ 0) || decide (beyond * beyond ≤ radius * radius))

/-- Whether a place is inside a box. Outside the corners' discs the corners are cut off. -/
def Box.covers (b : Box α) (radius : α) (x y : Int) : Bool :=
  if radius == 0 then
    let side (v : α) := wholeOrZero (Scalar.truncated v)
    side b.left ≤ x && x ≤ side b.right && side b.top ≤ y && y ≤ side b.bottom
  else
    let side (v : α) := wholeOrZero (Scalar.nearest v)
    let (x₀, y₀, x₁, y₁) := (side b.left, side b.top, side b.right, side b.bottom)
    let r := Scalar.least radius (Scalar.ofInt (min (x₁ - x₀) (y₁ - y₀)) / 2)
    let reach (v low high : Int) : α :=
      Scalar.greatest 0 (Scalar.greatest (Scalar.ofInt (low - v) + r) (Scalar.ofInt (v - high) + r))
    let dx := reach x x₀ x₁
    let dy := reach y y₀ y₁
    x₀ ≤ x && x ≤ x₁ && y₀ ≤ y && y ≤ y₁ && decide (dx * dx + dy * dy ≤ r * r + r)

/-- Whether a place is inside a word's cell. -/
def cellCovers (x y : α) (text : List Char) (font : Font) (px py : Int) : Bool :=
  let left := wholeOrZero (Scalar.truncated x)
  let top := wholeOrZero (Scalar.truncated y)
  let width := wholeOrZero (Scalar.truncated ((Typeface.cells : Typeface α).width font text))
  left ≤ px && px < left + width && top ≤ py && py < top + font.size

/-- The coordinate from which a moved layer takes its pixel. -/
def movedFrom (x : Int) (offset : α) : Int :=
  let v : α := Scalar.ofInt x + 0.5 - offset
  if v < 0 then -1 else wholeOrZero (Scalar.truncated v)

/-- Pastes a picture, unless a coordinate of it is out of range. -/
def Raster.pasteWithin (top : Raster) (x y : Int) (below : Raster) : Except String Raster :=
  match [x, y, x + top.width, y + top.height].find? fun n =>
    maxCoordinate < n ∨ n < -maxCoordinate - 1 with
  | some n => .error (coordinateMessage n)
  | none => .ok (top.pasteAt x y below.width below.height)

/-- The painter of cells, with a function that takes square roots. -/
def Painter.cells (root : α → α) : Painter α where
  colors := .standard
  picture width height color := .ok (.solid width.toNat height.toNat color.toPixel)
  mask width height := .ok ⟨width.toNat, height.toNat, fun _ _ => 0⟩
  resize width height _ image := .ok (image.resize width.toNat height.toNat)
  contain width height _ image := do
    let (w, h) ← (containedSize (α := α) image.width image.height (width, height)).mapError
      NonFinite.message
    return image.resize w.toNat h.toNat
  alpha image := .ok ⟨image.width, image.height, fun x y => (image.pixel x y).alpha⟩
  withAlpha alpha image :=
    .ok { image with pixel := fun x y => { image.pixel x y with alpha := alpha.level x y } }
  mapLevels table mask :=
    .ok { mask with level := fun x y => clampChannel (table[mask.level x y]?.getD 0) }
  ellipse box level mask :=
    .ok { mask with
      level := fun x y => if box.discCovers x y then clampChannel level else mask.level x y }
  fill box level mask :=
    .ok { mask with
      level := fun x y =>
        if box.left ≤ x ∧ x < box.right ∧ box.top ≤ y ∧ y < box.bottom then clampChannel level
        else mask.level x y }
  select inside outside selector :=
    .ok { inside with
      level := fun x y =>
        if selector.level x y = 0 then outside.level x y else inside.level x y }
  roundedBox box radius color image :=
    .ok { image with
      pixel := fun x y => if box.covers radius x y then color.toPixel else image.pixel x y }
  write x y text font color image :=
    .ok { image with
      pixel := fun px py =>
        if cellCovers x y text font px py then color.toPixel else image.pixel px py }
  move dx dy image :=
    .ok { image with pixel := fun x y => image.pixelAt (movedFrom x dx) (movedFrom y dy) }
  blur _ image := .ok image
  paste top x y below := top.pasteWithin x y below
  lay top below := .ok (top.onto below)
  diagonal width height := root (Scalar.ofInt (width * width + height * height))
  rootTwo := root 2

end

end TimelineExport
