import Mathlib
import TimelineExport.Proofs.Number.FloatOrder
import TimelineExport.Proofs.Number.Nearest

/-!
# How results of floating-point operations are rounded

An exact result is rounded to a multiple of its last place, which depends on its size, and to the
even one of two that are equally near: `roundedAmount`. The model shifts a significand to the
right and remembers in two bits what it has shifted out; these tell on which side of the half the
exact result lies (`Describes.shiftRight`), and so how it is rounded (`Describes.nearestInt_eq`).
What comes out has canonical parts, and its amount is the rounded one (`isRounded_round`). Packing
keeps it unless it is too large, and then makes it infinite (`amount?_pack`).

Rounding keeps the order of amounts (`roundedAmount_mono`), and leaves alone those that canonical
parts have (`roundedAmount_signed`).
-/

namespace TimelineExport

open Float.Model (Format UnpackedFloat totalExponent)
open Float.Model.UnpackedFloat (Sign ExtendedMantissa)

/-! ### Bits that are shifted out -/

/-- What the two bits of an extended significand tell about an exact value: whether it is the
significand or the half above it, and if not, on which side of the half it is. -/
def Describes (em : ExtendedMantissa) (q : Rat) : Prop :=
  match em.roundBit, em.stickyBit with
  | false, false => q = em.mantissa
  | false, true => em.mantissa < q ∧ q < em.mantissa + 1 / 2
  | true, false => q = em.mantissa + 1 / 2
  | true, true => em.mantissa + 1 / 2 < q ∧ q < em.mantissa + 1

namespace Describes

variable {em : ExtendedMantissa} {q : Rat}

theorem floor_eq (h : Describes em q) : q.floor = em.mantissa := by
  have hbounds : (em.mantissa : Rat) ≤ q ∧ q < em.mantissa + 1 := by
    obtain ⟨m, roundBit, stickyBit⟩ := em
    cases roundBit <;> cases stickyBit <;> simp only [Describes] at h ⊢ <;> constructor <;> linarith
  exact floor_eq_of_le_of_lt (by exact_mod_cast hbounds.1) (by exact_mod_cast hbounds.2)

/-- **The two bits tell how a value is rounded.** -/
theorem nearestInt_eq (h : Describes em q) : nearestInt q = em.roundedMantissa := by
  rw [nearestInt_eq_of_floor h.floor_eq]
  obtain ⟨m, roundBit, stickyBit⟩ := em
  cases roundBit <;> cases stickyBit <;> simp only [Describes] at h
  · rw [if_pos (by push_cast; linarith)]
    rfl
  · rw [if_pos (by push_cast; linarith)]
    rfl
  · rw [if_neg (by push_cast; linarith), if_neg (by push_cast; linarith)]
    simp only [ExtendedMantissa.roundedMantissa, ExtendedMantissa.accuracy,
      Float.Model.UnpackedFloat.Accuracy.roundToNearestEven]
    split <;> omega
  · rw [if_neg (by push_cast; linarith), if_pos (by push_cast; linarith)]
    rfl

theorem shiftRightOne (h : Describes em q) : Describes em.shiftRightOne (q / 2) := by
  obtain ⟨m, roundBit, stickyBit⟩ := em
  have hm : ((m % 2 : Nat) : Rat) + 2 * ((m / 2 : Nat) : Rat) = m := by
    exact_mod_cast Nat.mod_add_div m 2
  obtain hbit | hbit := Nat.mod_two_eq_zero_or_one m <;> rw [hbit] at hm <;> push_cast at hm <;>
    cases roundBit <;> cases stickyBit <;>
    simp only [Describes, ExtendedMantissa.shiftRightOne, hbit, Bool.or_true, Bool.or_false,
      bne_self_eq_false, Nat.reduceBNe] at h ⊢ <;>
    first | linarith | (constructor <;> linarith)

/-- **Shifting to the right** keeps track of the exact value. -/
theorem shiftRight (h : Describes em q) (n : Nat) : Describes (em >>> n) (q / 2 ^ n) := by
  change Describes (n.repeat ExtendedMantissa.shiftRightOne em) _
  induction n with
  | zero =>
    rw [pow_zero, div_one]
    exact h
  | succ n ih =>
    rw [pow_succ, ← div_div]
    exact ih.shiftRightOne

end Describes

/-! ### The last place -/

/-- The exponent of the last place of an amount. There are 53 places, and none beyond the least
one. -/
def lastPlace (q : Rat) : Int := max (Int.log 2 |q| - 52) (-1074)

/-- What an exact result is rounded to, as long as that is not too large. -/
def roundedAmount (q : Rat) : Rat := nearestInt (q / 2 ^ lastPlace q) * 2 ^ lastPlace q

theorem lastPlace_neg (q : Rat) : lastPlace (-q) = lastPlace q := by
  unfold lastPlace
  rw [abs_neg]

theorem roundedAmount_neg (q : Rat) : roundedAmount (-q) = -roundedAmount q := by
  unfold roundedAmount
  rw [lastPlace_neg, neg_div, nearestInt_neg, Int.cast_neg, neg_mul]

theorem roundedAmount_zero : roundedAmount 0 = 0 := by
  unfold roundedAmount
  rw [zero_div, ← Int.cast_zero, nearestInt_intCast, Int.cast_zero, zero_mul]

theorem neg_1074_le_lastPlace (q : Rat) : -1074 ≤ lastPlace q := le_max_right _ _

section
variable {q r : Rat}

/-- An amount has at most 53 places. -/
theorem div_lastPlace_lt (hq : 0 < q) : q / 2 ^ lastPlace q < 2 ^ 53 := by
  have hlog : Int.log 2 q + 1 ≤ lastPlace q + 53 := by
    unfold lastPlace
    rw [abs_of_pos hq]
    omega
  rw [div_lt_iff₀ (zpow_pos two_pos _)]
  calc q < 2 ^ (Int.log 2 q + 1) := by exact_mod_cast Int.lt_zpow_succ_log_self one_lt_two q
    _ ≤ 2 ^ (lastPlace q + 53) := zpow_le_zpow_right₀ one_le_two hlog
    _ = 2 ^ 53 * 2 ^ lastPlace q := by
      rw [add_comm, zpow_add₀ two_ne_zero]
      rfl

/-- An amount that has fewer places ends at the least one. -/
theorem le_div_lastPlace (hq : 0 < q) (h : lastPlace q ≠ -1074) :
    2 ^ 52 ≤ q / 2 ^ lastPlace q := by
  have hlog : lastPlace q + 52 = Int.log 2 q := by
    unfold lastPlace at h ⊢
    rw [abs_of_pos hq] at h ⊢
    omega
  rw [le_div_iff₀ (zpow_pos two_pos _)]
  calc (2 : Rat) ^ 52 * 2 ^ lastPlace q = 2 ^ (lastPlace q + 52) := by
        rw [add_comm, zpow_add₀ two_ne_zero]
        rfl
    _ = 2 ^ Int.log 2 q := by rw [hlog]
    _ ≤ q := by exact_mod_cast Int.zpow_log_le_self one_lt_two hq

theorem lastPlace_mono (hq : 0 < q) (h : q ≤ r) : lastPlace q ≤ lastPlace r := by
  have hlog := Int.log_mono_right (b := 2) hq h
  unfold lastPlace
  rw [abs_of_pos hq, abs_of_pos (hq.trans_le h)]
  omega

/-- A rounded amount has at most 53 places, or it is a power of two. -/
theorem nearestInt_div_lastPlace_le (hq : 0 < q) : nearestInt (q / 2 ^ lastPlace q) ≤ 2 ^ 53 := by
  have hle : q / 2 ^ lastPlace q ≤ ((2 ^ 53 : Int) : Rat) := by
    push_cast
    exact (div_lastPlace_lt hq).le
  exact (nearestInt_mono hle).trans_eq (nearestInt_intCast _)

theorem le_nearestInt_div_lastPlace (hq : 0 < q) (h : lastPlace q ≠ -1074) :
    2 ^ 52 ≤ nearestInt (q / 2 ^ lastPlace q) := by
  have hle : ((2 ^ 52 : Int) : Rat) ≤ q / 2 ^ lastPlace q := by
    push_cast
    exact le_div_lastPlace hq h
  exact (nearestInt_intCast _).symm.trans_le (nearestInt_mono hle)

theorem roundedAmount_nonneg (hq : 0 ≤ q) : 0 ≤ roundedAmount q := by
  have hpow : (0 : Rat) < 2 ^ lastPlace q := zpow_pos two_pos _
  exact mul_nonneg (by exact_mod_cast nearestInt_nonneg (div_nonneg hq hpow.le)) hpow.le

private theorem roundedAmount_mono_of_pos (hq : 0 < q) (h : q ≤ r) :
    roundedAmount q ≤ roundedAmount r := by
  have hpow : ∀ k : Int, (0 : Rat) ≤ 2 ^ k := fun k => (zpow_pos two_pos k).le
  unfold roundedAmount
  obtain hlt | heq := (lastPlace_mono hq h).lt_or_eq
  -- what has a smaller last place is below the least amount with the larger one
  · have hle := nearestInt_div_lastPlace_le hq
    have hge := le_nearestInt_div_lastPlace (hq.trans_le h)
      (by have := neg_1074_le_lastPlace q; omega)
    calc (nearestInt (q / 2 ^ lastPlace q) : Rat) * 2 ^ lastPlace q
      _ ≤ 2 ^ 53 * 2 ^ lastPlace q :=
        mul_le_mul_of_nonneg_right (by exact_mod_cast hle) (hpow _)
      _ = 2 ^ 52 * 2 ^ (lastPlace q + 1) := by
        rw [zpow_add₀ two_ne_zero]
        ring
      _ ≤ 2 ^ 52 * 2 ^ lastPlace r :=
        mul_le_mul_of_nonneg_left (zpow_le_zpow_right₀ one_le_two hlt) (by positivity)
      _ ≤ nearestInt (r / 2 ^ lastPlace r) * 2 ^ lastPlace r :=
        mul_le_mul_of_nonneg_right (by exact_mod_cast hge) (hpow _)
  · rw [heq]
    refine mul_le_mul_of_nonneg_right ?_ (hpow _)
    exact_mod_cast nearestInt_mono (div_le_div_of_nonneg_right h (hpow _))

/-- **Rounding keeps the order** of amounts. -/
theorem roundedAmount_mono (h : q ≤ r) : roundedAmount q ≤ roundedAmount r := by
  obtain hq | rfl | hq := lt_trichotomy q 0
  · obtain hr | hr := lt_or_ge r 0
    · have hneg := roundedAmount_mono_of_pos (neg_pos.mpr hr) (neg_le_neg h)
      rw [roundedAmount_neg, roundedAmount_neg] at hneg
      exact neg_le_neg_iff.mp hneg
    · have hneg := roundedAmount_nonneg (neg_pos.mpr hq).le
      rw [roundedAmount_neg, neg_nonneg] at hneg
      exact hneg.trans (roundedAmount_nonneg hr)
  · exact roundedAmount_zero.trans_le (roundedAmount_nonneg h)
  · exact roundedAmount_mono_of_pos hq h

end

/-! ### The last place of binary parts -/

namespace BinaryParts

theorem log_toRat {m : Nat} (hm : 0 < m) (e : Int) : Int.log 2 (mk m e).toRat = m.log2 + e := by
  have hpos := toRat_pos hm e
  have hlow : (2 : Rat) ^ ((m.log2 : Int) + e) ≤ (mk m e).toRat := by
    rw [zpow_add₀ two_ne_zero, zpow_natCast]
    refine mul_le_mul_of_nonneg_right ?_ (zpow_pos two_pos e).le
    exact_mod_cast Nat.log2_self_le hm.ne'
  have hhigh : (mk m e).toRat < (2 : Rat) ^ ((m.log2 : Int) + e + 1) := by
    have hexp : (m.log2 : Int) + e + 1 = ((m.log2 + 1 : Nat) : Int) + e := by omega
    rw [hexp, zpow_add₀ two_ne_zero, zpow_natCast]
    refine mul_lt_mul_of_pos_right ?_ (zpow_pos two_pos e)
    exact_mod_cast Nat.lt_log2_self
  refine le_antisymm ?_ ?_
  · refine Int.lt_add_one_iff.mp ((Int.lt_zpow_iff_log_lt one_lt_two hpos).mp ?_)
    exact_mod_cast hhigh
  · exact (Int.zpow_le_iff_le_log one_lt_two hpos).mp (by exact_mod_cast hlow)

/-- The model chooses the last place by the first one. -/
theorem targetExponent_eq {m : Nat} (hm : 0 < m) (e : Int) :
    Format.binary64.targetExponent (totalExponent m e) = lastPlace (mk m e).toRat := by
  unfold lastPlace
  rw [abs_of_pos (toRat_pos hm e), log_toRat hm]
  change max ((m.log2 : Int) + 1 + e - 53) (-1074) = _
  omega

/-- Canonical parts end at the last place. -/
theorem lastPlace_toRat {p : BinaryParts} (hp : p.IsCanonical) (hpos : 0 < p.significand) :
    lastPlace p.toRat = p.exponent := by
  have hlog : p.significand.log2 < 53 := (Nat.log2_lt hpos.ne').mpr hp.fits
  have hwide : p.exponent ≠ -1074 → 52 ≤ p.significand.log2 := fun hne =>
    (Nat.le_log2 hpos.ne').mpr (hp.wide hne)
  have hleast := hp.least
  rw [lastPlace, abs_of_pos (toRat_pos hpos _), log_toRat hpos]
  omega

end BinaryParts

/-- **Rounding leaves canonical parts alone.** -/
theorem roundedAmount_signed {p : BinaryParts} (hp : p.IsCanonical) (negative : Bool) :
    roundedAmount (p.signed negative) = p.signed negative := by
  have hpos : roundedAmount p.toRat = p.toRat := by
    obtain hzero | hpos := Nat.eq_zero_or_pos p.significand
    · have hrat : p.toRat = 0 := by rw [BinaryParts.toRat, hzero, Nat.cast_zero, zero_mul]
      rw [hrat, roundedAmount_zero]
    · have hsignificand : p.toRat / 2 ^ p.exponent = ((p.significand : Int) : Rat) := by
        rw [BinaryParts.toRat, mul_div_cancel_right₀ _ (zpow_pos two_pos _).ne', Int.cast_natCast]
      rw [roundedAmount, BinaryParts.lastPlace_toRat hp hpos, hsignificand, nearestInt_intCast]
      rfl
  cases negative with
  | false => exact hpos
  | true => exact (roundedAmount_neg _).trans (congrArg Neg.neg hpos)

/-! ### Rounding in the model -/

open Float.Model.UnpackedFloat in
theorem shiftToTargetExponent_of_lt {m : Nat} (hm : m < 2 ^ 53) {t : Int} (ht : -1074 ≤ t) :
    shiftToTargetExponent Format.binary64 m t .exact = (⟨m, false, false⟩, t) := by
  have hlog : m.log2 < 53 := by
    obtain rfl | hpos := Nat.eq_zero_or_pos m
    · decide
    · exact (Nat.log2_lt hpos.ne').mpr hm
  have htarget : Format.binary64.targetExponent (totalExponent m t) ≤ t := by
    change max ((m.log2 : Int) + 1 + t - 53) (-1074) ≤ t
    omega
  have hshift : (Format.binary64.targetExponent (totalExponent m t) - t).toNat = 0 := by omega
  unfold shiftToTargetExponent shiftToExponent
  dsimp only
  rw [hshift, Nat.cast_zero, add_zero]
  rfl

open Float.Model.UnpackedFloat in
theorem shiftToTargetExponent_of_eq {t : Int} (ht : -1074 ≤ t) :
    shiftToTargetExponent Format.binary64 (2 ^ 53) t .exact = (⟨2 ^ 52, false, false⟩, t + 1) := by
  have htarget : Format.binary64.targetExponent (totalExponent (2 ^ 53) t) = t + 1 := by
    change max (((2 ^ 53 : Nat).log2 : Int) + 1 + t - 53) (-1074) = t + 1
    rw [Nat.log2_two_pow]
    omega
  have hshift : (Format.binary64.targetExponent (totalExponent (2 ^ 53) t) - t).toNat = 1 := by
    omega
  unfold shiftToTargetExponent shiftToExponent
  dsimp only
  rw [hshift]
  rfl

/-- Whether an unpacked value is what an exact result is rounded to. -/
def IsRounded (f : UnpackedFloat) (q : Rat) : Prop :=
  ∃ negative p, FloatForm.ofUnpacked f = .finite negative p ∧ p.IsCanonical ∧
    p.signed negative = roundedAmount q

/-- The significand of an amount, rounded to its last place. -/
theorem roundedMantissa_shift {m : Nat} {e t : Int} (he : e ≤ t) :
    ((ExtendedMantissa.ofMantissaAndAccuracy m .exact >>> (t - e).toNat).roundedMantissa : Int) =
      nearestInt ((BinaryParts.mk m e).toRat / 2 ^ t) := by
  have hexact : Describes (.ofMantissaAndAccuracy m .exact) m := rfl
  have hquot : (BinaryParts.mk m e).toRat / 2 ^ t = m / 2 ^ (t - e).toNat := by
    have hexp : ((t - e).toNat : Int) = t - e := Int.toNat_of_nonneg (by omega)
    rw [BinaryParts.toRat, ← zpow_natCast, hexp, zpow_sub₀ two_ne_zero, mul_div_assoc,
      div_div_eq_mul_div, mul_div_assoc]
  rw [hquot]
  exact (hexact.shiftRight _).nearestInt_eq.symm

theorem isCanonical_zero : (BinaryParts.mk 0 (-1074)).IsCanonical :=
  ⟨le_rfl, by decide, fun hne => absurd rfl hne⟩

/-- What is rounded to canonical parts, with the sign that it has. -/
theorem isRounded_of_ofUnpacked {f : UnpackedFloat} {negative : Bool} {p : BinaryParts} {q : Rat}
    (hform : FloatForm.ofUnpacked f = .finite negative p) (hp : p.IsCanonical)
    (hamount : p.toRat = roundedAmount q) : IsRounded f (if negative then -q else q) := by
  refine ⟨negative, p, hform, hp, ?_⟩
  cases negative with
  | false => exact hamount
  | true => exact (congrArg Neg.neg hamount).trans (roundedAmount_neg q).symm

/-- The value that the model makes of a significand and an exponent. -/
def ofSignificand (s : Sign) (em : ExtendedMantissa) (e : Int) : UnpackedFloat :=
  if h : em.mantissa = 0 then .zero s else .finite s em.mantissa e (Nat.pos_of_ne_zero h)

open Float.Model.UnpackedFloat in
/-- A significand that was rounded to the last place is at the last place, or one place above it. -/
theorem isRounded_ofSignificand (s : Sign) {m : Nat} {t : Int} {q : Rat} (hle : m ≤ 2 ^ 53)
    (hwide : t ≠ -1074 → 2 ^ 52 ≤ m) (hleast : -1074 ≤ t)
    (hamount : roundedAmount q = m * 2 ^ t) :
    IsRounded (ofSignificand s (shiftToTargetExponent Format.binary64 m t .exact).1
      (shiftToTargetExponent Format.binary64 m t .exact).2) (if isNegative s then -q else q) := by
  obtain hlt | rfl := hle.lt_or_eq
  · rw [shiftToTargetExponent_of_lt hlt hleast]
    unfold ofSignificand
    split
    · next hzero =>
      have hzero : m = 0 := hzero
      refine isRounded_of_ofUnpacked rfl isCanonical_zero ?_
      rw [hamount, hzero, Nat.cast_zero, zero_mul]
      exact BinaryParts.signed_zero false _
    · exact isRounded_of_ofUnpacked rfl ⟨hleast, hlt, hwide⟩ hamount.symm
  -- rounding up has carried into another place
  · have hcarried : (2 : Nat) ^ 52 < 2 ^ 53 := by decide
    rw [shiftToTargetExponent_of_eq hleast, ofSignificand, dif_neg (Nat.two_pow_pos 52).ne']
    refine isRounded_of_ofUnpacked rfl ⟨by dsimp only; omega, hcarried, fun _ => le_rfl⟩ ?_
    rw [hamount, BinaryParts.toRat, zpow_add₀ two_ne_zero]
    push_cast
    ring

open Float.Model.UnpackedFloat in
/-- A significand is shifted to the last place. -/
theorem shiftToTargetExponent_eq {m : Nat} (hm : 0 < m) {e : Int}
    (he : e ≤ lastPlace (BinaryParts.mk m e).toRat) :
    shiftToTargetExponent Format.binary64 m e .exact =
      (ExtendedMantissa.ofMantissaAndAccuracy m .exact >>>
        (lastPlace (BinaryParts.mk m e).toRat - e).toNat,
      lastPlace (BinaryParts.mk m e).toRat) := by
  unfold shiftToTargetExponent shiftToExponent
  rw [BinaryParts.targetExponent_eq hm e]
  dsimp only
  rw [Int.toNat_of_nonneg (by omega), add_sub_cancel]

open Float.Model.UnpackedFloat in
/-- **The model rounds to the last place.** -/
theorem isRounded_roundWithAccuracy (s : Sign) {m : Nat} (hm : 0 < m) {e : Int}
    (he : e ≤ lastPlace (BinaryParts.mk m e).toRat) :
    IsRounded (roundWithAccuracy Format.binary64 s m e .exact)
      ((BinaryParts.mk m e).signed (isNegative s)) := by
  have hpos := BinaryParts.toRat_pos hm e
  have hround := roundedMantissa_shift (m := m) he
  have hle := nearestInt_div_lastPlace_le hpos
  have hwide := le_nearestInt_div_lastPlace hpos
  rw [← hround] at hle hwide
  have hfirst := shiftToTargetExponent_eq hm he
  unfold roundWithAccuracy
  rw [hfirst]
  refine isRounded_ofSignificand s (by exact_mod_cast hle) (fun hne => by exact_mod_cast hwide hne)
    (neg_1074_le_lastPlace _) ?_
  rw [roundedAmount, ← hround]
  rfl

theorem toRat_shiftLeft (m k : Nat) (e : Int) :
    (BinaryParts.mk (m <<< k) (e - k)).toRat = (BinaryParts.mk m e).toRat := by
  rw [BinaryParts.toRat, BinaryParts.toRat, Nat.shiftLeft_eq, zpow_sub₀ two_ne_zero, zpow_natCast]
  push_cast
  field_simp

open Float.Model.UnpackedFloat in
theorem isRounded_round (s : Sign) {m : Nat} (hm : 0 < m) (e : Int) :
    IsRounded (UnpackedFloat.round Format.binary64 s m e)
      ((BinaryParts.mk m e).signed (isNegative s)) := by
  have htarget := BinaryParts.targetExponent_eq hm e
  unfold UnpackedFloat.round decreaseExponent
  dsimp only
  rw [htarget]
  generalize hk : (e - lastPlace (BinaryParts.mk m e).toRat).toNat = k
  have hrat := toRat_shiftLeft m k e
  have hsigned : (BinaryParts.mk m e).signed (isNegative s) =
      (BinaryParts.mk (m <<< k) (e - k)).signed (isNegative s) := by
    unfold BinaryParts.signed
    rw [hrat]
  rw [hsigned]
  refine isRounded_roundWithAccuracy s ?_ ?_
  · rw [Nat.shiftLeft_eq]
    exact Nat.mul_pos hm (Nat.two_pow_pos k)
  · rw [hrat]
    omega

open Float.Model.UnpackedFloat in
/-- **An exact sum is rounded.** -/
theorem isRounded_normalize (z e : Int) :
    IsRounded (UnpackedFloat.normalize Format.binary64 z e .positive) (z * 2 ^ e) := by
  unfold UnpackedFloat.normalize
  obtain hz | rfl | hz := lt_trichotomy z 0
  · rw [Int.compare_eq_lt.mpr hz]
    have hcast : ((-z).toNat : Int) = -z := Int.toNat_of_nonneg (by omega)
    have hsigned : (BinaryParts.mk (-z).toNat e).signed true = z * 2 ^ e := by
      change -(((-z).toNat : Rat) * 2 ^ e) = _
      rw [← Int.cast_natCast, hcast]
      push_cast
      ring
    rw [← hsigned]
    exact isRounded_round .negative (by omega) e
  · rw [Int.cast_zero, zero_mul]
    exact ⟨false, _, rfl, isCanonical_zero,
      (BinaryParts.signed_zero _ _).trans roundedAmount_zero.symm⟩
  · rw [Int.compare_eq_gt.mpr hz]
    have hcast : (z.toNat : Int) = z := Int.toNat_of_nonneg hz.le
    have hsigned : (BinaryParts.mk z.toNat e).signed false = z * 2 ^ e := by
      change ((z.toNat : Rat) * 2 ^ e) = _
      rw [← Int.cast_natCast, hcast]
    rw [← hsigned]
    exact isRounded_round .positive (by omega) e

/-! ### Packing -/

open Float.Model.UnpackedFloat in
theorem unpackSign_packComponents {spec : Format} (s : Sign) (exponent : BitVec spec.exponentBits)
    (mantissa : BitVec spec.mantissaBitsWithoutImplicit) :
    unpackSign (packComponents spec s exponent mantissa) = s.toBitVec := by
  refine BitVec.eq_of_getLsbD_eq fun i hi => ?_
  obtain rfl : i = 0 := by omega
  simp [unpackSign, packComponents, BitVec.getLsbD_append, BitVec.getElem_append]

open Float.Model.UnpackedFloat in
/-- The form of a packed value, by its components. -/
theorem FloatForm.ofUnpacked_packComponents (s : Sign) (exponent : BitVec 11)
    (mantissa : BitVec 52) :
    ofUnpacked (unpack Format.binary64 (packComponents Format.binary64 s exponent mantissa)) =
      if exponent.toNat = 2047 then
        if mantissa.toNat = 0 then .infinite (isNegative s) else .undefined
      else if exponent.toNat = 0 then .finite (isNegative s) ⟨mantissa.toNat, -1074⟩
      else
        .finite (isNegative s) ⟨Nat.pow 2 52 + mantissa.toNat, (exponent.toNat : Int) - 1075⟩ := by
  have hsign : Sign.ofBitVec s.toBitVec = s := by cases s <;> rfl
  rw [ofUnpacked_unpack, unpackSign_packComponents, unpackExponent_packComponents,
    unpackMantissa_packComponents, hsign]

/-- An amount, or infinity if it is too large for a floating-point value. -/
def boundedAmount (q : Rat) : WithBot (WithTop Rat) :=
  if 2 ^ 1024 ≤ q then ⊤
  else if q ≤ -2 ^ 1024 then ⊥
  else ((q : WithTop Rat) : WithBot (WithTop Rat))

theorem boundedAmount_mono {q r : Rat} (h : q ≤ r) : boundedAmount q ≤ boundedAmount r := by
  have hlimit : (0 : Rat) < 2 ^ 1024 := by positivity
  unfold boundedAmount
  generalize (2 : Rat) ^ 1024 = limit at *
  split_ifs
  any_goals first | exact le_top | exact bot_le | (exfalso; linarith)
  exact WithBot.coe_le_coe.mpr (WithTop.coe_le_coe.mpr h)

theorem boundedAmount_of_abs_lt {q : Rat} (h : |q| < 2 ^ 1024) :
    boundedAmount q = ((q : WithTop Rat) : WithBot (WithTop Rat)) := by
  obtain ⟨hlow, hhigh⟩ := abs_lt.mp h
  rw [boundedAmount, if_neg hhigh.not_ge, if_neg hlow.not_ge]

namespace BinaryParts

variable {p : BinaryParts}

theorem abs_signed (p : BinaryParts) (negative : Bool) : |p.signed negative| = p.toRat := by
  cases negative with
  | false => exact abs_of_nonneg p.toRat_nonneg
  | true => exact (abs_neg _).trans (abs_of_nonneg p.toRat_nonneg)

/-- Canonical parts whose exponent fits are not too large. -/
theorem toRat_lt_of_exponent_le (hp : p.IsCanonical) (h : p.exponent ≤ 971) :
    p.toRat < 2 ^ 1024 := by
  have hfits : (p.significand : Rat) < 2 ^ 53 := by exact_mod_cast hp.fits
  calc p.significand * (2 : Rat) ^ p.exponent
    _ < 2 ^ 53 * 2 ^ p.exponent := mul_lt_mul_of_pos_right hfits (zpow_pos two_pos _)
    _ ≤ 2 ^ 53 * 2 ^ (971 : Int) :=
      mul_le_mul_of_nonneg_left (zpow_le_zpow_right₀ one_le_two h) (by positivity)
    _ = 2 ^ 1024 := by
      rw [← zpow_natCast, ← zpow_natCast, ← zpow_add₀ two_ne_zero]
      rfl

/-- Canonical parts whose exponent does not fit are too large. -/
theorem le_toRat_of_lt_exponent (hp : p.IsCanonical) (h : 971 < p.exponent) :
    2 ^ 1024 ≤ p.toRat := by
  have hwide : (2 : Rat) ^ 52 ≤ p.significand := by exact_mod_cast hp.wide (by omega)
  calc (2 : Rat) ^ 1024 = 2 ^ 52 * 2 ^ (972 : Int) := by
        rw [← zpow_natCast, ← zpow_natCast, ← zpow_add₀ two_ne_zero]
        rfl
    _ ≤ 2 ^ 52 * 2 ^ p.exponent :=
      mul_le_mul_of_nonneg_left (zpow_le_zpow_right₀ one_le_two h) (by positivity)
    _ ≤ p.significand * 2 ^ p.exponent :=
      mul_le_mul_of_nonneg_right hwide (zpow_pos two_pos _).le

end BinaryParts

open Float.Model.UnpackedFloat in
/-- **Packing** keeps canonical parts whose exponent fits, and makes all others infinite. -/
theorem FloatForm.ofUnpacked_pack_finite (s : Sign) {m : Nat} {e : Int} (hm : 0 < m)
    (hp : (BinaryParts.mk m e).IsCanonical) :
    ofUnpacked (unpack Format.binary64 (pack Format.binary64 (.finite s m e hm))) =
      if e ≤ 971 then .finite (isNegative s) ⟨m, e⟩ else .infinite (isNegative s) := by
  obtain ⟨hleast, hfits, hwide⟩ := hp
  dsimp only at hleast hfits hwide
  have hbiased : (e + Format.binary64.exponentBias +
      (Format.binary64.mantissaBitsWithoutImplicit : Int)).toNat = (e + 1075).toNat := by
    change (e + 1023 + 52).toNat = _
    omega
  unfold UnpackedFloat.pack
  dsimp only
  rw [hbiased]
  by_cases hexponent : e ≤ 971
  · rw [if_neg (by omega), if_pos hexponent]
    have hlog : m.log2 + 1 = Format.binary64.mantissaBits ↔ 2 ^ 52 ≤ m := by
      change m.log2 + 1 = 53 ↔ _
      rw [← Nat.le_log2 hm.ne']
      have := (Nat.log2_lt hm.ne').mpr hfits
      omega
    have hexponentBits : (BitVec.ofNat 11 (e + 1075).toNat).toNat = (e + 1075).toNat := by
      rw [BitVec.toNat_ofNat]
      omega
    have hmantissaBits : (BitVec.ofNat 52 m).toNat = m % 2 ^ 52 := BitVec.toNat_ofNat _ _
    split
    · next hnormal =>
      have hnormal := hlog.mp hnormal
      rw [ofUnpacked_packComponents, hexponentBits, hmantissaBits, if_neg (by omega),
        if_neg (by omega)]
      congr 2
      · rw [Nat.pow_eq]
        omega
      · omega
    · next hsubnormal =>
      have hsubnormal := fun h => hsubnormal (hlog.mpr h)
      rw [ofUnpacked_packComponents, hmantissaBits, BitVec.toNat_zero, if_neg (by decide),
        if_pos rfl]
      congr 2
      · omega
      · by_contra hne
        exact hsubnormal (hwide (Ne.symm hne))
  · rw [if_pos (by omega), if_neg hexponent]
    exact ofUnpacked_packComponents s (-1#_) 0

theorem FloatForm.ofFloat_pack_zero (s : Sign) :
    ofFloat ⟨.pack (.zero s)⟩ = .finite (isNegative s) ⟨0, -1074⟩ :=
  (ofFloat_eq_ofUnpacked _).trans (ofUnpacked_packComponents s 0 0)

theorem FloatForm.ofFloat_pack_infinity (s : Sign) :
    ofFloat ⟨.pack (.infinity s)⟩ = .infinite (isNegative s) :=
  (ofFloat_eq_ofUnpacked _).trans (ofUnpacked_packComponents s (-1#_) 0)

theorem FloatForm.ofFloat_pack_notANumber : ofFloat ⟨.pack .notANumber⟩ = .undefined :=
  (ofFloat_eq_ofUnpacked _).trans (ofUnpacked_packComponents .positive (-1#_) (1#_ <<< 51))

/-- **The amount of a packed value** is the rounded one, or infinite if that is too large. -/
theorem amount?_pack {f : UnpackedFloat} {q : Rat} (h : IsRounded f q) :
    amount? ⟨.pack f⟩ = some (boundedAmount (roundedAmount q)) := by
  obtain ⟨negative, p, hform, hp, hamount⟩ := h
  rw [← hamount, amount?]
  cases f with
  | notANumber | infinity => cases hform
  | zero s =>
    cases hform
    rw [FloatForm.ofFloat_pack_zero, boundedAmount_of_abs_lt]
    · rfl
    · rw [BinaryParts.signed_zero]
      norm_num
  | finite s m e hm =>
    cases hform
    rw [FloatForm.ofFloat_eq_ofUnpacked]
    change (FloatForm.ofUnpacked (UnpackedFloat.unpack Format.binary64
      (UnpackedFloat.pack Format.binary64 (.finite s m e hm)))).amount? = _
    rw [FloatForm.ofUnpacked_pack_finite s hm hp]
    have habs := (BinaryParts.mk m e).abs_signed (isNegative s)
    split
    · next hexponent =>
      rw [boundedAmount_of_abs_lt (habs.trans_lt (BinaryParts.toRat_lt_of_exponent_le hp hexponent))]
      rfl
    · next hexponent =>
      have hlarge := BinaryParts.le_toRat_of_lt_exponent hp (not_le.mp hexponent)
      have hlimit : (0 : Rat) < 2 ^ 1024 := by positivity
      cases s with
      | positive => exact congrArg some (if_pos hlarge).symm
      | negative =>
        have hneg : (BinaryParts.mk m e).signed true ≤ -2 ^ 1024 := neg_le_neg hlarge
        have hpos : ¬ 2 ^ 1024 ≤ (BinaryParts.mk m e).signed true := by
          generalize (2 : Rat) ^ 1024 = limit at *
          linarith
        refine congrArg some (.symm ?_)
        exact (if_neg hpos).trans (if_pos hneg)

end TimelineExport
