import TimelineExport.Number.Numeral
import TimelineExport.Paint.Color

/-!
# Reading colours

A style sheet spells a colour as hexadecimal digits, as red, green and blue with or without alpha,
by hue, or by name. Two spellings are read here: channels in parentheses in lower case, which are
real numbers that are cut off, with alpha as a fraction (`channelColor?`), and eight hexadecimal
digits (`hexColor?`). All others are up to a library of colours, which is a parameter. `readColor`
gives a default for what is not known. The only failure is an infinite channel.
-/

namespace TimelineExport

/-- A colour as a library of colours has it: with alpha, or without. -/
structure LibraryColor where
  red : Int
  green : Int
  blue : Int
  alpha : Option Int := none
  deriving DecidableEq, Repr

namespace LibraryColor

/-- The channels that are there, in order. -/
def channels (c : LibraryColor) : List Int := [c.red, c.green, c.blue] ++ c.alpha.toList

/-- The colour, opaque if it has no alpha. -/
def toColor (c : LibraryColor) : Color := ⟨c.red, c.green, c.blue, c.alpha.getD 255⟩

end LibraryColor

/-- A library of colours: what a text stands for, unless the library refuses it. -/
abbrev ColorLibrary := (text : String) → Option LibraryColor

/-- Whether all channels that a library gives are in the range that can be drawn. -/
def ColorLibrary.IsInRange (library : ColorLibrary) : Prop :=
  ∀ text c, library text = some c → ∀ n ∈ c.channels, 0 ≤ n ∧ n ≤ 255

/-- The number that hexadecimal digits spell, if there is at least one. -/
def hexNumber? : List Char → Option Nat
  | [] => none
  | cs => cs.foldl (fun n c => do return 16 * (← n) + (← hexValue? c)) (some 0)

/-- The number that a pair of characters spells in base sixteen: digits of any script, with a
sign or blanks about them. -/
def hexPair? (a b : Char) : Option Int :=
  match Numeral.foldDigits (trimWhile isSpace [a, b]) with
  | '-' :: cs => (hexNumber? cs).map fun n => -(n : Int)
  | '+' :: cs => (hexNumber? cs).map Int.ofNat
  | cs => (hexNumber? cs).map Int.ofNat

/-- The colour of eight characters: four pairs. -/
def hexColor? : List Char → Option Color
  | [a, b, c, d, e, f, g, h] => do
    return ⟨← hexPair? a b, ← hexPair? c d, ← hexPair? e f, ← hexPair? g h⟩
  | _ => none

/-! ### Channels in parentheses -/

/-- What stands between a stem with a parenthesis and the closing one at the very end, if there
is no other closing one. -/
def argumentOf? (stem : String) (cs : List Char) : Option (List Char) := do
  match (← (stem.toList ++ ['(']).isPrefixOf? cs).reverse with
  | ')' :: inner => if inner.contains ')' then none else some inner.reverse
  | _ => none

/-- A channel spelled as a real number, cut off. Without a number there is none. -/
def channelValue (part : List Char) : Except NonFinite (Option Int) :=
  match Numeral.readFloat? (String.ofList part) with
  | none => .ok none
  | some x =>
    match Scalar.truncated x with
    | .ok n => .ok (some n)
    | .error .undefined => .ok none
    | .error .infinite => .error .infinite

/-- Alpha spelled as a fraction, confined to the range. -/
def alphaValue (part : List Char) : Except NonFinite (Option Int) :=
  match Numeral.readFloat? (String.ofList part) with
  | none => .ok none
  | some x =>
    match Scalar.nearest (x * 255) with
    | .ok n => .ok (some (max 0 (min 255 n)))
    | .error .undefined => .ok none
    | .error .infinite => .error .infinite

/-- The colour of real channels between commas; the first fault from the left decides. -/
def channelColor? (parts : List (List Char)) : Except NonFinite (Option Color) := do
  match parts with
  | r :: g :: b :: rest =>
    let some red ← channelValue r | return none
    let some green ← channelValue g | return none
    let some blue ← channelValue b | return none
    match rest with
    | [] => return some ⟨red, green, blue, 255⟩
    | a :: _ =>
      let some alpha ← alphaValue a | return none
      return some ⟨red, green, blue, alpha⟩
  | r :: rest =>
    let some _ ← channelValue r | return none
    match rest with
    | g :: _ =>
      let _ ← channelValue g
      return none
    | [] => return none
  | [] => return none

/-- Reads a colour; what is absent, transparent or unknown is the default. -/
def readColor (library : ColorLibrary) (value : Option String) (default : Color) :
    Except NonFinite Color :=
  match value with
  | none => .ok default
  | some s =>
    if s = "" ∨ s = "transparent" then .ok default
    else
      let cs := trimBoth s.toList
      match (argumentOf? "rgb" cs).or (argumentOf? "rgba" cs) with
      | some channels =>
        (channelColor? ((channels.splitOn ',').map trimBoth)).map fun c => c.getD default
      | none =>
        let digits := cs.dropWhile (· = '#')
        if cs.head? = some '#' ∧ digits.length = 8 then .ok ((hexColor? digits).getD default)
        else .ok (((library (String.ofList cs)).map LibraryColor.toColor).getD default)

end TimelineExport
