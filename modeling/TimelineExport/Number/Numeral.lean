import TimelineExport.Number.Scalar
import TimelineExport.Text.Blank
import TimelineExport.Text.Digit

/-!
# Numerals: numbers read from text

A numeral has an optional sign and decimal digits, with single underscores allowed between two
digits. A real numeral may have a decimal point, an exponent, or be one of the words for the
special values. `Numeral.int?` and `Numeral.float?` read a text that is exactly one numeral in
ASCII digits; `Numeral.readInt?` and `Numeral.readFloat?` also take the digits of other scripts
and trim surrounding blanks.
-/

namespace TimelineExport.Numeral

/-- The characters that match `p`, with single underscores between two of them left out, and the
rest of the text. -/
def run (p : Char → Bool) : List Char → List Char × List Char
  | [] => ([], [])
  | c :: '_' :: d :: cs =>
    if !p c then ([], c :: '_' :: d :: cs)
    else if p d then
      let (ds, rest) := run p (d :: cs)
      (c :: ds, rest)
    else ([c], '_' :: d :: cs)
  | c :: cs =>
    if p c then
      let (ds, rest) := run p cs
      (c :: ds, rest)
    else ([], c :: cs)

/-- The value of a list of ASCII digits. -/
def value (ds : List Char) : Nat := ds.foldl (fun n c => 10 * n + (c.toNat - 48)) 0

/-- A leading sign and what follows it. -/
def sign : List Char → Bool × List Char
  | '-' :: cs => (true, cs)
  | '+' :: cs => (false, cs)
  | cs => (false, cs)

/-- Writes the digits of all scripts with the ASCII digits. -/
def foldDigits (cs : List Char) : List Char :=
  cs.map fun c =>
    match digitValue? c with
    | some n => Char.ofNat (48 + n)
    | none => c

/-- The integer that a text spells, if it is an integer numeral. -/
def int? (cs : List Char) : Option Int :=
  let (negative, body) := sign cs
  match run Char.isDigit body with
  | ([], _) => none
  | (ds, []) => some (if negative then -(value ds : Int) else value ds)
  | _ => none

/-- The exponent part of a real numeral: nothing, or `e` with a signed integer. -/
def exponent? : List Char → Option Int
  | [] => some 0
  | c :: cs =>
    if c ≠ 'e' ∧ c ≠ 'E' then none
    else
      let (negative, body) := sign cs
      match run Char.isDigit body with
      | ([], _) => none
      | (ds, []) => some (if negative then -(value ds : Int) else value ds)
      | _ => none

/-- The floating-point number nearest to `m * 10 ^ e`. Far outside the range of finite values
the power of ten need not be computed. -/
def nearestFloat (m : Nat) (e : Int) : Float :=
  let size := (Nat.toDigits 10 m).length + e
  if m = 0 ∨ size < -400 then 0
  else if 400 < size then 1 / 0
  else Float.ofScientific m (e < 0) e.natAbs

/-- The magnitude that an unsigned real numeral spells. -/
def magnitude? (cs : List Char) : Option Float :=
  let word := cs.map Char.toLower
  if word = "inf".toList ∨ word = "infinity".toList then some (1 / 0)
  else if word = "nan".toList then some (0 / 0)
  else
    let (whole, rest) := run Char.isDigit cs
    let (places, tail) :=
      match rest with
      | '.' :: cs => run Char.isDigit cs
      | cs => ([], cs)
    if whole.isEmpty && places.isEmpty then none
    else (exponent? tail).map fun e => nearestFloat (value (whole ++ places)) (e - places.length)

/-- The floating-point number that a text spells, if it is a real numeral. -/
def float? (cs : List Char) : Option Float :=
  let (negative, body) := sign cs
  (magnitude? body).map fun x => if negative then -x else x

/-- The integer that a text spells in the digits of any script, between optional blanks. -/
def readInt? (s : String) : Option Int := int? (foldDigits (trimWhile isSpace s.toList))

/-- The floating-point number that a text spells in the digits of any script, between optional
blanks. -/
def readFloat? (s : String) : Option Float := float? (foldDigits (trimWhile isSpace s.toList))

end TimelineExport.Numeral
