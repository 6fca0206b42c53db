import TimelineExport.Number.Decimal

/-!
# Shortest decimals: the fewest digits that read back

Every finite floating-point number is the nearest one to all reals of an interval around it.
`shortest` gives the decimal with the fewest digits inside that interval, and of two such
decimals the one nearer to the number. It is found by exact rational arithmetic: for one digit,
two digits and so on the number's two neighbours on that decimal grid are tried in turn.
-/

namespace TimelineExport

/-- A power of ten, as a rational. -/
def tenPow (k : Int) : Rat := (10 : Rat) ^ k

/-- The `k` with `10 ^ (k - 1) ≤ v < 10 ^ k`, for a positive rational `v`. -/
def decimalScale (v : Rat) : Int :=
  if 1 ≤ v then (Decimal.digits v.floor.toNat).length
  else
    let below : Int := 1 - (Decimal.digits (v⁻¹).floor.toNat).length
    if v < tenPow below then below else below + 1

namespace BinaryParts

/-- The distance from the number to the end of its interval below. -/
def lowerGap (p : BinaryParts) : Rat :=
  if p.isNarrow then (2 : Rat) ^ (p.exponent - 2) else (2 : Rat) ^ (p.exponent - 1)

/-- The distance from the number to the end of its interval above. -/
def upperGap (p : BinaryParts) : Rat := (2 : Rat) ^ (p.exponent - 1)

/-- Whether a rational is read back as this number: it lies in the number's interval, whose ends
belong to it when the significand is even. -/
def readsBack (p : BinaryParts) (q : Rat) : Bool :=
  let low := p.toRat - p.lowerGap
  let high := p.toRat + p.upperGap
  if p.significand % 2 = 0 then low ≤ q && q ≤ high else low < q && q < high

/-- The neighbour on the grid `10 ^ k` that reads back and is nearest to the number, if any. -/
def onGrid? (p : BinaryParts) (k : Int) : Option Nat :=
  let scaled := p.toRat / tenPow k
  let below := scaled.floor.toNat
  let fits (n : Nat) := p.readsBack (n * tenPow k)
  match fits below, fits (below + 1) with
  | true, false => some below
  | false, true => some (below + 1)
  | true, true => some (nearestInt scaled).toNat
  | false, false => none

/-- Tries the grids that are `n` digits below the scale, from the coarsest to seventeen digits. -/
def search (p : BinaryParts) (scale : Int) : (tries n : Nat) → Option Decimal
  | 0, _ => none
  | tries + 1, n =>
    match p.onGrid? (scale - n) with
    | some coefficient => some (Decimal.normalize ⟨false, coefficient, scale - n⟩)
    | none => p.search scale tries (n + 1)

/-- The exact value as a decimal: a negative power of two is a power of five over one of ten. -/
def exactDecimal (p : BinaryParts) : Decimal :=
  if 0 ≤ p.exponent then ⟨false, p.significand * Nat.pow 2 p.exponent.toNat, 0⟩
  else ⟨false, p.significand * Nat.pow 5 (-p.exponent).toNat, p.exponent⟩

/-- The shortest decimal that reads back as this magnitude. -/
def shortest (p : BinaryParts) : Decimal :=
  if p.significand = 0 then ⟨false, 0, 0⟩
  else (p.search (decimalScale p.toRat) 17 1).getD p.exactDecimal

end BinaryParts

/-- A floating-point number as it is written: one of the special values, or the shortest decimal
that reads back as the number. -/
inductive WrittenFloat where
  | undefined
  | infinite (negative : Bool)
  | finite (value : Decimal)
  deriving DecidableEq, Repr

/-- The written form of a floating-point number. -/
def shortest (x : Float) : WrittenFloat :=
  match FloatForm.ofFloat x with
  | .undefined => .undefined
  | .infinite negative => .infinite negative
  | .finite negative parts => .finite { parts.shortest with negative }

end TimelineExport
