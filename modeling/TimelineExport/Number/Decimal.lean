import TimelineExport.Number.Scalar

/-!
# Decimals: exact decimal numbers and their plain text

A `Decimal` is a sign, a coefficient and a power of ten. `normalize` removes the trailing zeros
of the coefficient, `roundTo` keeps a number of significant digits, and `plainText` writes the
number positionally, without an exponent. Times and numbers in a filter program are written
this way, because its reader does not take exponents everywhere.
-/

namespace TimelineExport

/-- The decimal number `± coefficient * 10 ^ exponent`. -/
structure Decimal where
  negative : Bool
  coefficient : Nat
  exponent : Int
  deriving DecidableEq, Repr

namespace Decimal

/-- The rational that a decimal stands for. -/
def toRat (d : Decimal) : Rat :=
  (if d.negative then -(d.coefficient : Rat) else d.coefficient) * (10 : Rat) ^ d.exponent

/-- An integer as a decimal. -/
def ofInt (n : Int) : Decimal := ⟨n < 0, n.natAbs, 0⟩

/-- The digits of a natural number, most significant first. -/
def digits (n : Nat) : List Char := Nat.toDigits 10 n

/-- Removes the trailing zeros of a coefficient, raising the exponent for each. -/
def stripZeros (coefficient : Nat) (exponent : Int) : Nat × Int :=
  if h : coefficient ≠ 0 ∧ coefficient % 10 = 0 then
    stripZeros (coefficient / 10) (exponent + 1)
  else (coefficient, exponent)
termination_by coefficient
decreasing_by omega

/-- The same number with no trailing zero in its coefficient. -/
def normalize (d : Decimal) : Decimal :=
  let (coefficient, exponent) := stripZeros d.coefficient d.exponent
  { d with coefficient, exponent }

/-- The quotient of two natural numbers rounded to the nearest; a half goes to the even
neighbour. -/
def roundDiv (n d : Nat) : Nat :=
  let quotient := n / d
  let rest := n % d
  if 2 * rest < d then quotient
  else if d < 2 * rest then quotient + 1
  else if quotient % 2 = 0 then quotient else quotient + 1

/-- The number rounded to at most `places` significant digits; a half goes to the even
neighbour. -/
def roundTo (places : Nat) (d : Decimal) : Decimal :=
  let excess := (digits d.coefficient).length - places
  if excess = 0 then d
  else { d with
    coefficient := roundDiv d.coefficient (Nat.pow 10 excess)
    exponent := d.exponent + excess }

/-- The number divided by a power of ten. -/
def shiftRight (places : Nat) (d : Decimal) : Decimal :=
  { d with exponent := d.exponent - places }

/-- The digits of a magnitude with the decimal point in its place, and at least one digit
before it. -/
def positional (coefficient : Nat) (exponent : Int) : List Char :=
  let ds := digits coefficient
  if 0 ≤ exponent then ds ++ List.replicate exponent.toNat '0'
  else
    let places := (-exponent).toNat
    let padded := List.replicate (places + 1 - ds.length) '0' ++ ds
    padded.take (padded.length - places) ++ '.' :: padded.drop (padded.length - places)

/-- The number written positionally, without superfluous zeros; zero is written `0`. -/
def plainText (d : Decimal) : String :=
  if d.coefficient = 0 then "0"
  else
    let n := d.normalize
    let sign := if d.negative then ['-'] else []
    String.ofList (sign ++ positional n.coefficient n.exponent)

end Decimal

end TimelineExport
