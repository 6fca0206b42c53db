import TimelineExport.Number.Numeral
import TimelineExport.Paint.Shadow
import TimelineExport.Timeline.Classify

/-!
# Styles of text blocks

A block style is what the drawing of a text block needs, with every default filled in. Captions
have their own defaults: bold white words on translucent black. `BlockStyle.ofStyle` takes what
an editor's style sets and reads its colours, shadows and weight; a colour or shadow that cannot
be read gives way to the default.

It fails only on numbers and digits that have no value: a size or a channel that is infinite or
undefined, and a weight of digits that do not form a number or are too many.
-/

namespace TimelineExport

/-- Why a style cannot be used. -/
inductive StyleFault where
  | nonFinite (fault : NonFinite)
  /-- A weight that is all digits, but no numeral. -/
  | weight (text : String)
  /-- A weight that begins with more decimal digits than an integer may have. -/
  | overlongWeight (count : Nat)
  deriving DecidableEq, Repr

/-- Everything that the drawing of a text block needs. -/
structure BlockStyle (α : Type) where
  fontFamily : Option String
  fontSize : Int
  bold : Bool
  color : Color
  background : Color
  borderRadius : α
  paddingX : α
  paddingY : α
  align : Align
  lineHeight : α
  textShadow : Option (Shadow α)
  boxShadow : Option (Shadow α)
  deriving Repr

/-- The least weight that counts as bold. -/
def boldWeight : Int := 600

/-- Whether a font weight is bold. -/
def isBoldWeight (weight : Option String) : Except StyleFault Bool :=
  match weight with
  | none => .ok false
  | some w =>
    if w = "" then .ok false
    else if w.toList.all isDigitLike then
      let digits := (w.toList.takeWhile isDecimalDigit).length
      if maxDigits < digits then .error (.overlongWeight digits)
      else
        match Numeral.readInt? w with
        | some n => .ok (boldWeight ≤ n)
        | none => .error (.weight w)
    else .ok (w = "bold" ∨ w = "bolder")

namespace BlockStyle

section
variable {α : Type} [Scalar α]

/-- The style of plain text. -/
def ofText : BlockStyle α where
  fontFamily := none
  fontSize := 48
  bold := false
  color := .white
  background := .transparent
  borderRadius := 0
  paddingX := 8
  paddingY := 8
  align := .center
  lineHeight := 1.4
  textShadow := none
  boxShadow := none

/-- The style of captions. -/
def ofCaption : BlockStyle α :=
  { ofText with
    fontSize := 36
    bold := true
    background := ⟨0, 0, 0, 204⟩
    borderRadius := 4
    paddingX := 16 }

/-- The style that holds where nothing is set. -/
def default (caption : Bool) : BlockStyle α := if caption then ofCaption else ofText

/-- A number that is set and is not zero. -/
def nonZero (x : Option α) : Option α := x.filter fun v => !(v == 0)

/-- The style of a block under an editor's style and an opacity. -/
def ofStyle (library : ColorLibrary) (style : Option (Style α)) (caption : Bool) (opacity : α) :
    Except StyleFault (BlockStyle α) := do
  let defaults : BlockStyle α := default caption
  let lift {β : Type} (x : Except NonFinite β) : Except StyleFault β := x.mapError .nonFinite
  match style with
  | none =>
    return { defaults with
      color := ← lift (defaults.color.withAlpha opacity)
      background := ← lift (defaults.background.withAlpha opacity) }
  | some s =>
    let background ← lift
      (readColor library ((nonEmpty s.backgroundColor).or s.background) defaults.background)
    let fontSize ←
      match nonZero s.fontSize with
      | some size => lift (Scalar.truncated size)
      | none => pure defaults.fontSize
    let bold ← isBoldWeight s.fontWeight
    let color ← lift (readColor library s.textColor defaults.color)
    let color ← lift (color.withAlpha opacity)
    let background ← lift (background.withAlpha opacity)
    let textShadow ← lift (readShadow library s.textShadow)
    let boxShadow ← lift (readShadow library s.boxShadow)
    return { defaults with
      fontFamily := s.fontFamily
      fontSize, color, background, textShadow, boxShadow
      bold := bold || defaults.bold
      borderRadius := (nonZero s.borderRadius).getD defaults.borderRadius
      paddingX := s.padding.getD defaults.paddingX
      paddingY := s.padding.getD defaults.paddingY
      align := s.textAlign.getD defaults.align }

end

end BlockStyle

end TimelineExport
