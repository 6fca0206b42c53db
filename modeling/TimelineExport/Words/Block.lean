import TimelineExport.Paint.Painter
import TimelineExport.Words.BlockStyle
import TimelineExport.Words.Layout

/-!
# Text blocks

A text block is runs of words under a block style: its lines, the box behind them and its
shadows. `TextBlock.ofRuns` breaks the lines, measures them, and places every word; around the
block is a margin with room for the shadows, so the block itself begins at (margin, margin).
`TextBlock.draw` paints it: from below, the shadow of the box, the box, the shadow of the words, and
the words.

How wide words are is up to a typeface, and what is painted is up to a painter.
-/

namespace TimelineExport

/-- Why a text block cannot be drawn. -/
inductive BlockFault where
  | nonFinite (fault : NonFinite)
  | negativeSize
  /-- The box ends before it begins, across. -/
  | invertedWidth
  /-- The box ends before it begins, down. -/
  | invertedHeight
  deriving DecidableEq, Repr

/-- What is known of the typefaces: how wide a text is in a font. -/
structure Typeface (α : Type) where
  width : Font → List Char → α

/-- A box with rounded corners. -/
structure BoxMark (α : Type) where
  left : α
  top : α
  right : α
  bottom : α
  radius : α
  fill : Color
  /-- The blur of a box that is a shadow. -/
  blur : α
  deriving Repr

/-- A word at its place. -/
structure WordMark (α : Type) where
  x : α
  y : α
  width : α
  text : List Char
  font : Font
  fill : Color
  deriving Repr

/-- A text block with everything placed. -/
structure TextBlock (α : Type) where
  width : Nat
  height : Nat
  margin : Int
  shadowBox : Option (BoxMark α) := none
  box : Option (BoxMark α) := none
  words : List (WordMark α) := []
  textShadow : Option (Shadow α) := none
  deriving Repr

section
variable {α : Type} [Scalar α]

/-- The typeface in which every character is a cell half as wide as the font's size, and three
quarters in bold. -/
def Typeface.cells : Typeface α where
  width font text :=
    Scalar.ofInt text.length *
      (if font.bold then Scalar.ofInt font.size * 0.75 else Scalar.ofInt font.size * 0.5)

namespace BlockStyle

/-- The font of a run. -/
def fontOf (style : BlockStyle α) (r : Run) : Font :=
  { family := style.fontFamily, size := style.fontSize, bold := r.bold || style.bold }

/-- How wide a run is. -/
def runWidth (face : Typeface α) (style : BlockStyle α) (r : Run) : α :=
  face.width (style.fontOf r) r.text

/-- How wide a line is. -/
def lineWidth (face : Typeface α) (style : BlockStyle α) (line : List Run) : α :=
  Scalar.total (line.map (style.runWidth face))

/-- The room that a shadow needs on every side. -/
def shadowReach (s : Shadow α) : α := Scalar.magnitude s.dx + Scalar.magnitude s.dy + 2 * s.blur

/-- The largest of a list of values, and zero of none. -/
def largest : List α → α
  | [] => 0
  | x :: xs => xs.foldl Scalar.greatest x

/-- The width at which lines are wrapped in a block of the given width. -/
def wrapWidth (style : BlockStyle α) (maxWidth : Option Int) : Except NonFinite (Option α) :=
  match maxWidth with
  | none => .ok none
  | some width =>
    (Scalar.truncated (Scalar.ofInt width - 2 * style.paddingX)).map fun n =>
      some (Scalar.ofInt (max 1 n))

/-- Where a line begins in a block. -/
def lineStart (style : BlockStyle α) (margin blockWidth : Int) (width : α) : α :=
  match style.align with
  | .left => Scalar.ofInt margin + style.paddingX
  | .right => Scalar.ofInt (margin + blockWidth) - style.paddingX - width
  | .center => Scalar.ofInt margin + (Scalar.ofInt blockWidth - width) / 2

/-- The words of a line from a place on. -/
def placeWords (face : Typeface α) (style : BlockStyle α) (y : α) : α → List Run →
    List (WordMark α)
  | _, [] => []
  | x, r :: rs =>
    let width := style.runWidth face r
    { x, y, width, text := r.text, font := style.fontOf r, fill := r.color.getD style.color } ::
      placeWords face style y (x + width) rs

/-- The words of all lines from a height on. -/
def placeLines (face : Typeface α) (style : BlockStyle α) (margin blockWidth lineHeight : Int) :
    α → List (List Run) → List (WordMark α)
  | _, [] => []
  | y, line :: lines =>
    placeWords face style y (style.lineStart margin blockWidth (style.lineWidth face line)) line ++
      placeLines face style margin blockWidth lineHeight (y + Scalar.ofInt lineHeight) lines

end BlockStyle

/-- Checks that a box does not end before it begins. -/
def BoxMark.check (b : BoxMark α) : Except BlockFault Unit :=
  if b.right < b.left then .error .invertedWidth
  else if b.bottom < b.top then .error .invertedHeight
  else .ok ()

/-- The size of a block around lines of the given widths: its width, the height of a line, and
its height. -/
def blockSize (style : BlockStyle α) (widths : List α) : Except NonFinite (Int × Int × Int) := do
  let lineHeight ← Scalar.truncated (Scalar.ofInt style.fontSize * style.lineHeight)
  let content := (← Scalar.truncated (BlockStyle.largest widths)) + 1
  let width ← Scalar.truncated (Scalar.ofInt content + 2 * style.paddingX)
  let height ← Scalar.truncated
    (Scalar.ofInt (lineHeight * widths.length) + 2 * style.paddingY)
  return (width, lineHeight, height)

namespace TextBlock

/-- Lays runs out under a style, wrapped to fit a width if one is given. -/
def ofRuns (face : Typeface α) (runs : List Run) (style : BlockStyle α) (maxWidth : Option Int) :
    Except BlockFault (TextBlock α) := do
  let lift {β : Type} (x : Except NonFinite β) : Except BlockFault β := x.mapError .nonFinite
  let wrap ← lift (style.wrapWidth maxWidth)
  let lines := layoutLines (style.runWidth face) wrap runs
  let (blockWidth, lineHeight, blockHeight) ← lift (blockSize style (lines.map (style.lineWidth face)))
  let shadows := style.textShadow.toList ++ style.boxShadow.toList
  let margin ← lift (Scalar.truncated (BlockStyle.largest (shadows.map BlockStyle.shadowReach)))
  let width := blockWidth + 2 * margin
  let height := blockHeight + 2 * margin
  if width < 0 ∨ height < 0 then throw .negativeSize
  let filled := style.background.alpha > 0
  let box : BoxMark α := {
    left := Scalar.ofInt margin, top := Scalar.ofInt margin
    right := Scalar.ofInt (margin + blockWidth - 1)
    bottom := Scalar.ofInt (margin + blockHeight - 1)
    radius := style.borderRadius, fill := style.background, blur := 0 }
  let shadowBox := style.boxShadow.bind fun s =>
    if filled then some { box with
      left := box.left + s.dx, top := box.top + s.dy, right := box.right + s.dx
      bottom := box.bottom + s.dy, fill := s.color, blur := s.blur }
    else none
  shadowBox.forM BoxMark.check
  if filled then box.check
  return {
    width := width.toNat, height := height.toNat, margin, shadowBox
    box := if filled then some box else none
    words := style.placeLines face margin blockWidth lineHeight
      (Scalar.ofInt margin + style.paddingY) lines
    textShadow := style.textShadow }

end TextBlock

/-! ### The picture of a block -/

/-- A picture under the blur of a shadow. -/
def Painter.soften (painter : Painter α) (blur : α) (image : Raster) : Except String Raster :=
  if blur > 0 then painter.blur (blur / 2) image else .ok image

/-- Paints a box as a layer. -/
def BoxMark.draw (painter : Painter α) (width height : Nat) (b : BoxMark α) :
    Except String Raster := do
  let layer ← painter.picture width height .transparent
  let layer ← painter.roundedBox ⟨b.left, b.top, b.right, b.bottom⟩ b.radius b.fill layer
  painter.soften b.blur layer

/-- Paints words as a layer, one after another. -/
def drawWords (painter : Painter α) (width height : Nat) (words : List (WordMark α)) :
    Except String Raster := do
  let layer ← painter.picture width height .transparent
  words.foldlM (fun layer w => painter.write w.x w.y w.text w.font w.fill layer) layer

/-- The levels of alpha behind a shadow whose own alpha is given. -/
def shadowLevels (alpha : Int) : List Int := (List.range 256).map fun a : Nat => a * alpha / 255

/-- Paints the shadow of a layer of words. -/
def Shadow.cast (painter : Painter α) (width height : Nat) (s : Shadow α) (words : Raster) :
    Except String Raster := do
  let alpha ← painter.alpha words
  let layer ← painter.picture width height { s.color with alpha := 0 }
  let layer ← painter.withAlpha (← painter.mapLevels (shadowLevels s.color.alpha) alpha) layer
  painter.soften s.blur (← painter.move s.dx s.dy layer)

namespace TextBlock

/-- Lays a box of a block over what is painted of it, if there is a box. -/
def layBox (painter : Painter α) (b : TextBlock α) (box : Option (BoxMark α)) (image : Raster) :
    Except String Raster :=
  match box with
  | some box => do painter.lay (← box.draw painter b.width b.height) image
  | none => .ok image

/-- Paints a text block. -/
def draw (painter : Painter α) (b : TextBlock α) : Except String Raster := do
  let image ← painter.picture b.width b.height .transparent
  let image ← b.layBox painter b.shadowBox image
  let image ← b.layBox painter b.box image
  let words ← drawWords painter b.width b.height b.words
  match b.textShadow with
  | some s =>
    let image ← painter.lay (← s.cast painter b.width b.height words) image
    painter.lay words image
  | none => painter.lay words image

end TextBlock

end

end TimelineExport
