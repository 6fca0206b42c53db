/-!
# Scalars: the numbers that times, speeds and sizes are made of

A timeline is measured in numbers that are added, scaled, compared and at last rounded to
frames, pixels or samples. `Scalar` lists exactly these operations. Two kinds of number have
them: binary floating point (`Float`), with which an export is computed, and the exact
rationals (`Rat`), over which its timing laws are stated. Every definition that is written
against `Scalar` is therefore one definition, read at either kind.

A floating-point value need not be finite, so the conversions to integers may fail
(`NonFinite`); over the rationals they always succeed.
-/

namespace TimelineExport

/-- The two ways in which a floating-point value has no integer part. -/
inductive NonFinite where
  /-- Positive or negative infinity. -/
  | infinite
  /-- The result of an undefined operation. -/
  | undefined
  deriving DecidableEq, Repr

/-- What a reader is told about a value without an integer part. -/
def NonFinite.message : NonFinite → String
  | infinite => "cannot convert float infinity to integer"
  | undefined => "cannot convert float NaN to integer"

/-- Numbers with the operations that timing, sizing and rounding need. -/
class Scalar (α : Type) extends
    Add α, Sub α, Mul α, Div α, Neg α, LT α, LE α, BEq α, OfScientific α where
  /-- Strict comparison can be decided. -/
  decLt : DecidableLT α
  /-- Comparison can be decided. -/
  decLe : DecidableLE α
  /-- An integer as a scalar, rounded if it has too many digits. -/
  ofInt : Int → α
  /-- A number of thousandths, unless it is too large. -/
  thousandths : Int → Option α
  /-- The remainder of a division, with the sign of the divisor. -/
  modulo : α → α → α
  /-- The nearest integer; a half goes to the even neighbour. -/
  nearest : α → Except NonFinite Int
  /-- The integer part, toward zero. -/
  truncated : α → Except NonFinite Int
  /-- The least integer that is not below the value. -/
  ceiling : α → Except NonFinite Int
  /-- The value rounded to so many decimal places; a half goes to the even neighbour. -/
  rounded : Nat → α → α
  /-- A number of halvings, or doublings, after which a positive value has passed one. -/
  halvings : α → Nat

namespace Scalar

variable {α : Type} [Scalar α]

instance : DecidableLT α := Scalar.decLt

instance : DecidableLE α := Scalar.decLe

instance (priority := low) instOfNat {n : Nat} : OfNat α n := ⟨Scalar.ofInt n⟩

/-- The smaller of two values, and the first unless the second is strictly smaller. -/
def least (a b : α) : α := if b < a then b else a

/-- The larger of two values, and the first unless the second is strictly larger. -/
def greatest (a b : α) : α := if a < b then b else a

/-- The distance of a value from zero. -/
def magnitude (a : α) : α := if a < 0 then -a else a

/-- The sum of a list, added from the left. -/
def total (xs : List α) : α := xs.foldl (· + ·) 0

end Scalar

/-! ### Exact rationals -/

/-- The integer nearest to a rational; a half goes to the even neighbour. -/
def nearestInt (q : Rat) : Int :=
  let below := q.floor
  let rest := q - below
  if rest < 1 / 2 then below
  else if 1 / 2 < rest then below + 1
  else if below % 2 = 0 then below else below + 1

/-- The integer part of a rational, toward zero. -/
def truncatedInt (q : Rat) : Int := if q < 0 then q.ceil else q.floor

instance : Scalar Rat where
  decLt := inferInstance
  decLe := inferInstance
  ofInt n := n
  thousandths n := some (n / 1000)
  modulo a b := a - b * (a / b).floor
  nearest q := .ok (nearestInt q)
  truncated q := .ok (truncatedInt q)
  ceiling q := .ok q.ceil
  rounded places q := nearestInt (q * 10 ^ places) / 10 ^ places
  halvings q := q.num.natAbs + q.den

/-! ### Binary floating point -/

/-- The significand `m` and exponent `e` of a finite floating-point magnitude `m * 2 ^ e`. -/
structure BinaryParts where
  significand : Nat
  exponent : Int
  deriving DecidableEq, Repr

namespace BinaryParts

/-- The magnitude that the parts stand for. -/
def toRat (p : BinaryParts) : Rat := p.significand * (2 : Rat) ^ p.exponent

/-- Whether the next smaller magnitude is nearer than the next larger one: the significand is
the least that has the full width, and the exponent is not the least. -/
def isNarrow (p : BinaryParts) : Bool := p.significand == Nat.pow 2 52 && p.exponent != -1074

end BinaryParts

/-- What a floating-point value stands for. -/
inductive FloatForm where
  | undefined
  | infinite (negative : Bool)
  | finite (negative : Bool) (magnitude : BinaryParts)
  deriving DecidableEq, Repr

/-- Reads sign, exponent and fraction off the 64 bits of a value. -/
def FloatForm.ofFloat (x : Float) : FloatForm :=
  let word := x.toBits.toNat
  let negative := Nat.pow 2 63 ≤ word
  let biased : Nat := word / Nat.pow 2 52 % Nat.pow 2 11
  let fraction : Nat := word % Nat.pow 2 52
  if biased = 2047 then
    if fraction = 0 then .infinite negative else .undefined
  else if biased = 0 then .finite negative ⟨fraction, -1074⟩
  else .finite negative ⟨Nat.pow 2 52 + fraction, (biased : Int) - 1075⟩

/-- The exact value of a finite floating-point number. -/
def exactValue (x : Float) : Except NonFinite Rat :=
  match FloatForm.ofFloat x with
  | .undefined => .error .undefined
  | .infinite _ => .error .infinite
  | .finite negative parts => .ok (if negative then -parts.toRat else parts.toRat)

/-- The floating-point number nearest to `m / 10 ^ places`, with the given sign. -/
def floatOfDecimal (negative : Bool) (m places : Nat) : Float :=
  let magnitude := Float.ofScientific m true places
  if negative then -magnitude else magnitude

/-- The floating-point number of a rational with few enough digits: the numerator over a power
of two. -/
def floatOfDyadic (q : Rat) : Float := (Float.ofInt q.num).scaleB (-(q.den.log2 : Int))

/-- The remainder of a floating-point division, with the sign of the divisor. The remainder
toward zero has no more digits than the operands, so it is exact; one of the wrong sign is moved
up by the divisor. -/
def floatModulo (a b : Float) : Float :=
  match exactValue a, exactValue b with
  | .ok x, .ok y =>
    if y = 0 then 0 / 0
    else
      let r := x - y * truncatedInt (x / y)
      if r = 0 then (if b < 0 then -0 else 0)
      else if (r < 0) = (y < 0) then floatOfDyadic r
      else floatOfDyadic r + b
  | .ok x, .error .infinite => if x = 0 ∨ (x < 0) = (b < 0) then a else b
  | _, _ => 0 / 0

instance : Scalar Float where
  decLt := inferInstance
  decLe := inferInstance
  ofInt := Float.ofInt
  thousandths n :=
    let x := floatOfDecimal (n < 0) n.natAbs 3
    if x.isInf then none else some x
  modulo := floatModulo
  nearest x := (exactValue x).map nearestInt
  truncated x := (exactValue x).map truncatedInt
  ceiling x := (exactValue x).map Rat.ceil
  rounded places x :=
    match exactValue x with
    | .error _ => x
    | .ok q =>
      let m := nearestInt (q * 10 ^ places)
      if m = 0 then (if x.toBits.toNat < Nat.pow 2 63 then 0 else -0)
      else floatOfDecimal (m < 0) m.natAbs places
  halvings _ := 1100

end TimelineExport
