import TimelineExport.Number.Scalar

/-!
# Colours

A colour has red, green, blue and alpha, in the range 0 to 255 where it is drawn. A style sheet
may spell values outside the range; they are kept as they are, and confined to the range only by
the drawing (`Color.toPixel`).
-/

namespace TimelineExport

/-- A colour with alpha. -/
structure Color where
  red : Int
  green : Int
  blue : Int
  alpha : Int
  deriving DecidableEq, Repr, Inhabited

namespace Color

/-- No colour at all. -/
def transparent : Color := ⟨0, 0, 0, 0⟩

/-- Opaque white. -/
def white : Color := ⟨255, 255, 255, 255⟩

/-- The channels in order. -/
def channels (c : Color) : List Int := [c.red, c.green, c.blue, c.alpha]

/-- Whether all channels are in the range that can be drawn. -/
def InRange (c : Color) : Prop := ∀ n ∈ c.channels, 0 ≤ n ∧ n ≤ 255

/-- The colour with its alpha multiplied by a factor and rounded. -/
def withAlpha {α : Type} [Scalar α] (c : Color) (factor : α) : Except NonFinite Color := do
  return { c with alpha := ← Scalar.nearest (Scalar.ofInt c.alpha * factor) }

end Color

end TimelineExport
