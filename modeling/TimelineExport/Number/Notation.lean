import TimelineExport.Number.Shortest

/-!
# Notations: how numbers are laid out as text

Four layouts occur. `shortestText` is the shortest text that reads back, positional for decimal
exponents from -4 to 15 and with an exponent otherwise. `generalText` keeps six significant
digits, for messages. `fixedText` has a given number of decimal places. `numberText` and
`secondsText` are exact and plain, for the options of a filter program.
-/

namespace TimelineExport

/-- A sign and an exponent of at least two digits, such as `e-07`. -/
def exponentText (e : Int) : String :=
  let magnitude := toString e.natAbs
  "e" ++ (if e < 0 then "-" else "+") ++
    (if magnitude.length < 2 then "0" ++ magnitude else magnitude)

/-- One digit, the point and the rest of the digits, as scientific notation begins. -/
def leadingDigit (digits : List Char) : List Char :=
  match digits with
  | [] => []
  | [d] => [d]
  | d :: rest => d :: '.' :: rest

/-- The shortest text that reads back as the number; a whole number ends in `.0`. -/
def shortestText (x : Float) : String :=
  match shortest x with
  | .undefined => "nan"
  | .infinite negative => if negative then "-inf" else "inf"
  | .finite d =>
    let sign := if d.negative then "-" else ""
    let n := d.normalize
    let digits := Decimal.digits n.coefficient
    if d.coefficient = 0 then sign ++ "0.0"
    else
      let order := n.exponent + digits.length - 1
      if -4 ≤ order ∧ order < 16 then
        let body := Decimal.positional n.coefficient n.exponent
        sign ++ String.ofList body ++ (if 0 ≤ n.exponent then ".0" else "")
      else sign ++ String.ofList (leadingDigit digits) ++ exponentText order

/-- The decimal with `places` significant digits that is nearest to a positive rational; a half
goes to the even neighbour. -/
def significant (places : Nat) (v : Rat) : Decimal :=
  let k := decimalScale v - places
  ⟨false, (nearestInt (v / tenPow k)).toNat, k⟩

/-- Six significant digits without trailing zeros: positional for decimal exponents from -4 to
5, otherwise with an exponent. -/
def generalText (x : Float) : String :=
  match FloatForm.ofFloat x with
  | .undefined => "nan"
  | .infinite negative => if negative then "-inf" else "inf"
  | .finite negative parts =>
    let sign := if negative then "-" else ""
    if parts.significand = 0 then sign ++ "0"
    else
      let n := (significant 6 parts.toRat).normalize
      let digits := Decimal.digits n.coefficient
      let order := n.exponent + digits.length - 1
      if -4 ≤ order ∧ order < 6 then
        sign ++ String.ofList (Decimal.positional n.coefficient n.exponent)
      else sign ++ String.ofList (leadingDigit digits) ++ exponentText order

/-- The number with exactly `places` decimal places; a half goes to the even neighbour. -/
def fixedText (places : Nat) (x : Float) : String :=
  match FloatForm.ofFloat x with
  | .undefined => "nan"
  | .infinite negative => if negative then "-inf" else "inf"
  | .finite negative parts =>
    let scaled := (nearestInt (parts.toRat * 10 ^ places)).toNat
    (if negative then "-" else "") ++ String.ofList (Decimal.positional scaled (-(places : Int)))

/-- The exact plain text of a special value. -/
def infiniteText (negative : Bool) : String := if negative then "-Infinity" else "Infinity"

/-- A number in a filter option: a whole number with all its exact digits, any other as its
shortest decimal, never with an exponent. -/
def numberText (x : Float) : String :=
  match FloatForm.ofFloat x with
  | .undefined => "NaN"
  | .infinite negative => infiniteText negative
  | .finite negative parts =>
    let value := parts.toRat
    if value.den = 1 then Decimal.plainText ⟨negative, value.num.natAbs, 0⟩
    else { parts.shortest with negative }.plainText

/-- The quotient of a decimal by a thousand, to 28 significant digits. -/
def thousandth (d : Decimal) : Decimal := (d.shiftRight 3).roundTo 28

/-- A time in milliseconds, written as plain decimal seconds. -/
def secondsText (ms : Float) : String :=
  match shortest ms with
  | .undefined => "NaN"
  | .infinite negative => infiniteText negative
  | .finite d => (thousandth d).plainText

end TimelineExport
