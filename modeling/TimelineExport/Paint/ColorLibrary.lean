import TimelineExport.Paint.ColorName
import TimelineExport.Paint.ColorReader

/-!
# The standard library of colours

`ColorLibrary.standard` stands for the library of colours where styles are drawn. It knows
hexadecimal digits, functions of channels, of percentages and of hues, and names; letters may be of
either case, and at most a hundred characters are read. Nothing is proved of it.
-/

namespace TimelineExport

/-- The colour of three, four or six hexadecimal digits; a short form doubles each digit. -/
def shortHexColor? (cs : List Char) : Option LibraryColor :=
  match cs.mapM hexValue? with
  | some [r, g, b] => some ⟨17 * r, 17 * g, 17 * b, none⟩
  | some [r, g, b, a] => some ⟨17 * r, 17 * g, 17 * b, some (17 * a)⟩
  | some [r, r', g, g', b, b'] => some ⟨16 * r + r', 16 * g + g', 16 * b + b', none⟩
  | _ => none

/-! ### Hues -/

/-- The channel that a hue has between two bounds. -/
def hueChannel (low high hue : Float) : Float :=
  let hue := Scalar.modulo hue 1
  if hue < 1 / 6 then low + (high - low) * hue * 6
  else if hue < 0.5 then high
  else if hue < 2 / 3 then low + (high - low) * (2 / 3 - hue) * 6
  else low

/-- Red, green and blue of a hue with saturation and lightness. -/
def ofLightness (hue saturation lightness : Float) : Float × Float × Float :=
  if saturation == 0 then (lightness, lightness, lightness)
  else
    let high :=
      if lightness ≤ 0.5 then lightness * (1 + saturation)
      else lightness + saturation - lightness * saturation
    let low := 2 * lightness - high
    (hueChannel low high (hue + 1 / 3), hueChannel low high hue, hueChannel low high (hue - 1 / 3))

/-- Red, green and blue of a hue with saturation and value. -/
def ofValue (hue saturation value : Float) : Float × Float × Float :=
  if saturation == 0 then (value, value, value)
  else
    let sector := ((Scalar.truncated (hue * 6)).toOption).getD 0
    let f := hue * 6 - Float.ofInt sector
    let p := value * (1 - saturation)
    let q := value * (1 - saturation * f)
    let t := value * (1 - saturation * (1 - f))
    match sector.toNat % 6 with
    | 0 => (value, t, p)
    | 1 => (q, value, p)
    | 2 => (p, value, t)
    | 3 => (p, q, value)
    | 4 => (t, p, value)
    | _ => (value, p, q)

/-- An opaque colour of three fractions. -/
def ofFractions (c : Float × Float × Float) : Option LibraryColor := do
  let channel (x : Float) : Option Int := (Scalar.truncated (x * 255 + 0.5)).toOption
  return ⟨← channel c.1, ← channel c.2.1, ← channel c.2.2, none⟩

/-! ### Functions -/

/-- A whole number in digits of any script, between optional blanks. -/
def wholeNumber? (part : List Char) : Option Nat :=
  let digits := trimBoth part
  if digits.isEmpty || digits.any (!isDecimalDigit ·) then none
  else some (Numeral.value (Numeral.foldDigits digits))

/-- A number without a sign: digits, and perhaps a point with digits. -/
def unsignedNumber? (part : List Char) : Option Float :=
  let digits := trimBoth part
  let rest := digits.dropWhile isDecimalDigit
  if (digits.head?.any isDecimalDigit) && (match rest with
      | [] => true
      | c :: places => c = '.' && places.all isDecimalDigit) then
    Numeral.readFloat? (String.ofList digits)
  else none

/-- What stands before a percent sign, with no blank before the sign. -/
def beforePercent? (part : List Char) : Option (List Char) :=
  match (trimEnd part).reverse with
  | '%' :: inner =>
    if inner.head?.any isBlank then none else some inner.reverse
  | _ => none

/-- A percentage as a channel. -/
def percentChannel? (part : List Char) : Option Int := do
  let n ← (beforePercent? part).bind wholeNumber?
  (Scalar.truncated (Float.ofInt (n * 255) / 100 + 0.5)).toOption

/-- A percentage as a fraction. -/
def percentFraction? (part : List Char) : Option Float := do
  return (← (beforePercent? part).bind unsignedNumber?) / 100

/-- A hue and two percentages. -/
def hueArguments? (parts : List (List Char)) : Option (Float × Float × Float) :=
  match parts with
  | [h, s, l] => do
    return ((← unsignedNumber? h) / 360, ← percentFraction? s, ← percentFraction? l)
  | _ => none

/-- The colour of a function in lower case. -/
def functionColor? (cs : List Char) : Option LibraryColor :=
  let arguments (stem : String) := (argumentOf? stem cs).map (·.splitOn ',')
  let plain := do
    match ← arguments "rgb" with
    | [r, g, b] =>
      let whole : Option LibraryColor := do
        return ⟨← wholeNumber? r, ← wholeNumber? g, ← wholeNumber? b, none⟩
      whole.or do
        return ⟨← percentChannel? r, ← percentChannel? g, ← percentChannel? b, none⟩
    | _ => none
  let withAlpha := do
    match ← arguments "rgba" with
    | [r, g, b, a] =>
      return ⟨← wholeNumber? r, ← wholeNumber? g, ← wholeNumber? b, some (← wholeNumber? a)⟩
    | _ => none
  let byLightness := do
    let (h, s, l) ← (arguments "hsl").bind hueArguments?
    ofFractions (ofLightness h s l)
  let byValue := do
    let (h, s, v) ← ((arguments "hsv").or (arguments "hsb")).bind hueArguments?
    ofFractions (ofValue h s v)
  ((plain.or withAlpha).or byLightness).or byValue

/-- An opaque colour, from one number of six hexadecimal digits. -/
def LibraryColor.ofHex (n : Nat) : LibraryColor := ⟨n / 65536 % 256, n / 256 % 256, n % 256, none⟩

/-- The colour of a name, in letters of either case. -/
def ColorLibrary.named : ColorLibrary := fun text =>
  let lower := text.toList.map fun c => if c = '\u212a' then 'k' else c.toLower
  (namedColors.lookup (String.ofList lower)).map LibraryColor.ofHex

/-- The colour of any spelling. -/
def ColorLibrary.standard : ColorLibrary := fun text =>
  if 100 < text.length then none
  else
    (named text).or
      (match text.toList.map Char.toLower with
        | '#' :: digits => shortHexColor? digits
        | lower => functionColor? lower)

end TimelineExport
