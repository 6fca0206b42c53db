import Mathlib.Algebra.Order.Field.Rat
import Mathlib.Tactic.Linarith
import Mathlib.Tactic.NormNum
import TimelineExport.Number.Scalar
import TimelineExport.Timeline.Validation

/-!
# Scalars read as rationals

Over the rationals the operations of a scalar are the usual ones: literals are casts, and values are
equal if the numbers are. The timing laws are stated with the usual operations, so these equations
come first in their proofs.
-/

namespace TimelineExport

namespace Scalar

theorem ofNat_rat (n : Nat) : (@OfNat.ofNat Rat n instOfNat) = (n : Rat) :=
  Int.cast_natCast n

theorem zero_rat : (@OfNat.ofNat Rat 0 instOfNat) = 0 := ofNat_rat 0

theorem beq_rat (a b : Rat) : (a == b) = decide (a = b) := rfl

theorem greatest_rat (a b : Rat) : greatest a b = max a b := by
  unfold greatest
  split
  · next h => exact (max_eq_right h.le).symm
  · next h => exact (max_eq_left (not_lt.mp h)).symm

theorem magnitude_rat (a : Rat) : magnitude a = |a| := by
  unfold magnitude
  rw [zero_rat]
  split
  · next h => exact (abs_of_neg h).symm
  · next h => exact (abs_of_nonneg (not_lt.mp h)).symm

end Scalar

theorem minSpeed_rat : (minSpeed : Rat) = 1 / 16 := by
  unfold minSpeed
  norm_num

theorem maxSpeed_rat : (maxSpeed : Rat) = 16 := by
  unfold maxSpeed
  norm_num

theorem Element.rangeTolerance_rat (settings : ExportSettings) (e : Element Rat) :
    e.rangeTolerance settings = max 1 (settings.frameMs * e.speed) := by
  unfold rangeTolerance
  rw [Scalar.greatest_rat, Scalar.ofNat_rat, Nat.cast_one]

end TimelineExport
