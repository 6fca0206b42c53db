import TimelineExport.Paint.ColorReader

/-!
# Shadows

A style sheet spells a shadow as lengths and a colour, in any order: two lengths of the offset,
perhaps one of the blur, and perhaps further ones without a meaning here. Of several layers
between commas the first is taken; a comma inside parentheses does not divide layers.
-/

namespace TimelineExport

/-- A shadow: its offset, its blur and its colour. -/
structure Shadow (α : Type) where
  dx : α
  dy : α
  blur : α
  color : Color
  deriving Repr

/-- The colour of a shadow that names none. -/
def shadowColor : Color := ⟨0, 0, 0, 128⟩

/-- Whether a closing parenthesis comes before any opening one. -/
def closesFirst : List Char → Bool
  | [] => false
  | c :: cs => if c = ')' then true else if c = '(' then false else closesFirst cs

/-- The first layer: what stands before the first comma outside parentheses. -/
def firstLayer : List Char → List Char
  | [] => []
  | c :: cs => if c = ',' && !closesFirst cs then [] else c :: firstLayer cs

/-- The length of the token at the start of a text that begins with no blank: a colour function
with all its parentheses hold, a number sign with hexadecimal digits, or else everything up to a
blank. -/
def tokenLength (cs : List Char) : Nat :=
  match (functionLength "rgb(" cs).or (functionLength "rgba(" cs) with
  | some n => n
  | none =>
    let digits :=
      match cs with
      | '#' :: rest => (rest.takeWhile fun c => (hexValue? c).isSome).length
      | _ => 0
    if 0 < digits then digits + 1 else (cs.takeWhile fun c => !isBlank c).length
where
  /-- The length of a function up to its closing parenthesis. -/
  functionLength (opening : String) (cs : List Char) : Option Nat :=
    let stem := opening.toList
    (stem.isPrefixOf? cs).bind fun rest => (rest.idxOf? ')').map (stem.length + · + 1)

/-- The tokens of a layer. The fuel bounds the characters. -/
def shadowTokens : (fuel : Nat) → List Char → List (List Char)
  | 0, _ => []
  | fuel + 1, cs =>
    match trimStart cs with
    | [] => []
    | rest =>
      let n := tokenLength rest
      rest.take n :: shadowTokens fuel (rest.drop n)

/-- The length that a token spells: digits, perhaps a point with digits, perhaps a unit of
pixels, and perhaps a sign of minus in front. -/
def pixelToken? {α : Type} [Scalar α] (token : List Char) : Option α :=
  let (negative, body) :=
    match token with
    | '-' :: cs => (true, cs)
    | cs => (false, cs)
  let whole := body.takeWhile isDecimalDigit
  let rest := body.dropWhile isDecimalDigit
  let (places, unit, dangling) :=
    match rest with
    | '.' :: cs =>
      (cs.takeWhile isDecimalDigit, cs.dropWhile isDecimalDigit, !(cs.head?.any isDecimalDigit))
    | cs => ([], cs, false)
  if whole.isEmpty || dangling || !(unit.isEmpty || unit = ['p', 'x']) then none
  else
    let digits := Numeral.value (Numeral.foldDigits (whole ++ places))
    let size : α := OfScientific.ofScientific digits true places.length
    some (if negative then -size else size)

/-- Reads a shadow. A text without two lengths is none. -/
def readShadow {α : Type} [Scalar α] (library : ColorLibrary) (value : Option String) :
    Except NonFinite (Option (Shadow α)) := do
  match value with
  | none => return none
  | some s =>
    if s = "" ∨ trimText s = "none" then return none
    else
      let layer := trimBoth (firstLayer s.toList)
      let tokens := shadowTokens layer.length layer
      let lengths : List α := tokens.filterMap pixelToken?
      let colors := tokens.filter fun t =>
        (pixelToken? (α := α) t).isNone && t ≠ "inset".toList
      match lengths with
      | dx :: dy :: rest =>
        let blur := rest.head?.getD 0
        let color ← readColor library (colors.head?.map String.ofList) shadowColor
        return some { dx, dy, blur := Scalar.greatest 0 blur, color }
      | _ => return none

end TimelineExport
