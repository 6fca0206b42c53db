import TimelineExport.Json.Value
import TimelineExport.Words.Block

/-!
# Words as JSON

Colours, shadows, runs and styles as JSON values, and the marks of a text block in the order in
which they are drawn.
-/

namespace TimelineExport

/-- A colour as the list of its channels. -/
def Color.toJson (c : Color) : Json := .ofList .int c.channels

/-- A shadow as an object. -/
def Shadow.toJson (s : Shadow Float) : Json :=
  .object [("dx", .float s.dx), ("dy", .float s.dy), ("blur", .float s.blur),
    ("color", s.color.toJson)]

namespace Run

/-- The characters of a run as a text. -/
def string (r : Run) : String := String.ofList r.text

/-- A run as a list of what it holds. -/
def toJson (r : Run) : Json :=
  .array [.text r.string, .ofOption Color.toJson r.color, .bool r.bold]

/-- A run as an object. -/
def describe (r : Run) : Json :=
  .object [("text", .text r.string), ("color", .ofOption Color.toJson r.color),
    ("bold", .bool r.bold)]

end Run

/-- The style of a block as an object. -/
def BlockStyle.toJson (s : BlockStyle Float) : Json :=
  .object [("font_family", .ofOption .text s.fontFamily), ("font_size", .int s.fontSize),
    ("bold", .bool s.bold), ("color", s.color.toJson), ("background", s.background.toJson),
    ("border_radius", .float s.borderRadius), ("padding_x", .float s.paddingX),
    ("padding_y", .float s.paddingY), ("align", .text s.align.name),
    ("line_height", .float s.lineHeight), ("text_shadow", .ofOption Shadow.toJson s.textShadow),
    ("box_shadow", .ofOption Shadow.toJson s.boxShadow)]

/-- A box as an object. -/
def BoxMark.toJson (m : BoxMark Float) : Json :=
  .object [("shape", .text "box"), ("radius", .float m.radius), ("fill", m.fill.toJson),
    ("box", .ofList .float [m.left, m.top, m.right, m.bottom])]

/-- A word at its place as an object. -/
def WordMark.toJson (m : WordMark Float) : Json :=
  .object [("shape", .text "text"), ("x", .float m.x), ("y", .float m.y),
    ("text", .text (String.ofList m.text)), ("size", .int m.font.size), ("bold", .bool m.font.bold),
    ("fill", m.fill.toJson)]

/-- A block as an object. -/
def TextBlock.members (b : TextBlock Float) : List (String × Json) :=
  [("size", .array [.int b.width, .int b.height]), ("margin", .int b.margin),
    ("drawn", .array ((b.shadowBox.toList ++ b.box.toList).map BoxMark.toJson ++
      b.words.map WordMark.toJson))]

end TimelineExport
