import Mathlib
import TimelineExport.Number.Scalar

/-!
# The order of floating-point values

A floating-point value stands for a rational or an infinity, or for nothing: `amount?`. The forms
that are read off the bits of a value are those of its unpacked model (`ofFloat_eq_ofUnpacked`).
The model compares two finite values by their exponents first and by their significands next, which
is right since it unpacks every value into canonical parts (`compare_toRat`). So values compare as
their amounts do (`lt_iff_amount`, `le_iff_amount`), and no comparison with an undefined value
holds. The two zeros compare equal, and it makes no difference which of them is added
(`exactValue_add_zero`).
-/

namespace TimelineExport

open Float.Model (Format UnpackedFloat)
open Float.Model.UnpackedFloat (Sign unpackExponent unpackMantissa unpackSign)

/-! ### Amounts -/

/-- The rational of a sign and a magnitude. -/
def BinaryParts.signed (negative : Bool) (p : BinaryParts) : Rat :=
  if negative then -p.toRat else p.toRat

/-- What a form stands for: a rational, an infinity or, if it is undefined, nothing. -/
@[simp]
def FloatForm.amount? : FloatForm → Option (WithBot (WithTop Rat))
  | undefined => none
  | infinite negative => some (if negative then ⊥ else ⊤)
  | finite negative p => some ((p.signed negative : Rat) : WithTop Rat)

/-- What a floating-point value stands for. -/
def amount? (x : Float) : Option (WithBot (WithTop Rat)) := (FloatForm.ofFloat x).amount?

/-- The exact value is the amount, if that is a rational. -/
theorem exactValue_eq_ok_iff {x : Float} {q : Rat} :
    exactValue x = .ok q ↔ amount? x = some ((q : WithTop Rat) : WithBot (WithTop Rat)) := by
  unfold exactValue amount?
  cases FloatForm.ofFloat x with
  | undefined => simp [FloatForm.amount?]
  | infinite negative => cases negative <;> simp [FloatForm.amount?]
  | finite negative p =>
    rw [FloatForm.amount?, Except.ok.injEq, Option.some.injEq, WithBot.coe_inj, WithTop.coe_inj]
    rfl

namespace BinaryParts

theorem toRat_nonneg (p : BinaryParts) : 0 ≤ p.toRat :=
  mul_nonneg (Nat.cast_nonneg _) (zpow_pos two_pos _).le

theorem toRat_pos {m : Nat} (h : 0 < m) (e : Int) : 0 < (mk m e).toRat :=
  mul_pos (Nat.cast_pos.mpr h) (zpow_pos two_pos e)

theorem signed_zero (negative : Bool) (e : Int) : (mk 0 e).signed negative = 0 := by
  cases negative <;> simp [signed, toRat]

theorem signed_neg {m : Nat} (h : 0 < m) (e : Int) : (mk m e).signed true < 0 :=
  neg_neg_of_pos (toRat_pos h e)

theorem signed_pos {m : Nat} (h : 0 < m) (e : Int) : 0 < (mk m e).signed false :=
  toRat_pos h e

theorem signed_neg_lt_pos {m n : Nat} (hm : 0 < m) (hn : 0 < n) (e f : Int) :
    (mk m e).signed true < (mk n f).signed false :=
  (signed_neg hm e).trans (signed_pos hn f)

theorem compare_signed_false (p q : BinaryParts) :
    compare (p.signed false) (q.signed false) = compare p.toRat q.toRat := rfl

theorem compare_signed_true (p q : BinaryParts) :
    compare (p.signed true) (q.signed true) = (compare p.toRat q.toRat).swap := by
  change compare (-p.toRat) (-q.toRat) = _
  obtain h | h | h := lt_trichotomy p.toRat q.toRat
  · rw [compare_lt_iff_lt.mpr h, compare_gt_iff_gt.mpr (neg_lt_neg h), Ordering.swap]
  · rw [h, compare_eq_iff_eq.mpr rfl, compare_eq_iff_eq.mpr rfl, Ordering.swap]
  · rw [compare_gt_iff_gt.mpr h, compare_lt_iff_lt.mpr (neg_lt_neg h), Ordering.swap]

/-! ### Canonical parts -/

/-- **Canonical parts**: the significand has at most 53 bits, and it has fewer only at the least
exponent. -/
structure IsCanonical (p : BinaryParts) : Prop where
  least : -1074 ≤ p.exponent
  fits : p.significand < 2 ^ 53
  wide : p.exponent ≠ -1074 → 2 ^ 52 ≤ p.significand

/-- Of canonical parts, those with the smaller exponent are smaller. -/
theorem toRat_lt_of_exponent_lt {p q : BinaryParts} (hp : p.IsCanonical) (hq : q.IsCanonical)
    (h : p.exponent < q.exponent) : p.toRat < q.toRat := by
  have hleast := hp.least
  have hfits : (p.significand : Rat) < 2 ^ 53 := by exact_mod_cast hp.fits
  have hwide : (2 : Rat) ^ 52 ≤ q.significand := by exact_mod_cast hq.wide (by omega)
  calc p.significand * (2 : Rat) ^ p.exponent
    _ < 2 ^ 53 * 2 ^ p.exponent := mul_lt_mul_of_pos_right hfits (zpow_pos two_pos _)
    _ = 2 ^ 52 * 2 ^ (p.exponent + 1) := by
      rw [zpow_add₀ two_ne_zero]
      ring
    _ ≤ 2 ^ 52 * 2 ^ q.exponent :=
      mul_le_mul_of_nonneg_left (zpow_le_zpow_right₀ one_le_two h) (by positivity)
    _ ≤ q.significand * 2 ^ q.exponent :=
      mul_le_mul_of_nonneg_right hwide (zpow_pos two_pos _).le

/-- **Canonical parts compare by their exponents**, and by their significands if these agree. -/
theorem compare_toRat {p q : BinaryParts} (hp : p.IsCanonical) (hq : q.IsCanonical) :
    (compare p.exponent q.exponent).then (compare p.significand q.significand) =
      compare p.toRat q.toRat := by
  obtain h | h | h := lt_trichotomy p.exponent q.exponent
  · rw [compare_lt_iff_lt.mpr h, compare_lt_iff_lt.mpr (toRat_lt_of_exponent_lt hp hq h)]
    rfl
  · have hpow : (0 : Rat) < 2 ^ q.exponent := zpow_pos two_pos _
    rw [compare_eq_iff_eq.mpr h, Ordering.then, toRat, toRat, h]
    obtain hm | hm | hm := lt_trichotomy p.significand q.significand
    · rw [compare_lt_iff_lt.mpr hm,
        compare_lt_iff_lt.mpr (mul_lt_mul_of_pos_right (Nat.cast_lt.mpr hm) hpow)]
    · rw [compare_eq_iff_eq.mpr hm, hm, compare_eq_iff_eq.mpr rfl]
    · rw [compare_gt_iff_gt.mpr hm,
        compare_gt_iff_gt.mpr (mul_lt_mul_of_pos_right (Nat.cast_lt.mpr hm) hpow)]
  · rw [compare_gt_iff_gt.mpr h, compare_gt_iff_gt.mpr (toRat_lt_of_exponent_lt hq hp h)]
    rfl

end BinaryParts

/-! ### Unpacked values -/

/-- Whether a sign is negative. -/
@[simp]
def isNegative : Sign → Bool
  | .negative => true
  | .positive => false

/-- The form of an unpacked value. -/
@[simp]
def FloatForm.ofUnpacked : UnpackedFloat → FloatForm
  | .notANumber => .undefined
  | .infinity s => .infinite (isNegative s)
  | .zero s => .finite (isNegative s) ⟨0, -1074⟩
  | .finite s m e _ => .finite (isNegative s) ⟨m, e⟩

section
variable (b : BitVec Format.binary64.numBits)

theorem toNat_unpackMantissa : (unpackMantissa b).toNat = b.toNat % Nat.pow 2 52 := by
  simp [unpackMantissa, BitVec.extractLsb, BitVec.extractLsb']

theorem toNat_unpackExponent :
    (unpackExponent b).toNat = b.toNat / Nat.pow 2 52 % Nat.pow 2 11 := by
  simp [unpackExponent, BitVec.extractLsb, BitVec.extractLsb', Nat.shiftRight_eq_div_pow]

theorem toNat_unpackSign : (unpackSign b).toNat = b.toNat / Nat.pow 2 63 % 2 := by
  simp [unpackSign, BitVec.extractLsb, BitVec.extractLsb', Nat.shiftRight_eq_div_pow]

theorem isNegative_unpackSign :
    isNegative (Sign.ofBitVec (unpackSign b)) = decide (Nat.pow 2 63 ≤ b.toNat) := by
  have hlt : b.toNat < 2 ^ 64 := b.isLt
  have hzero : unpackSign b = 0#1 ↔ ¬ Nat.pow 2 63 ≤ b.toNat := by
    rw [← BitVec.toNat_inj, toNat_unpackSign, BitVec.toNat_zero, Nat.pow_eq]
    omega
  unfold Sign.ofBitVec
  by_cases h : Nat.pow 2 63 ≤ b.toNat
  · rw [if_neg (hzero.not.mpr (not_not.mpr h)), decide_eq_true h, isNegative]
  · rw [if_pos (hzero.mpr h), decide_eq_false h, isNegative]

/-- The significand of a normal value has a leading one that its bits leave out. -/
theorem toNat_one_append_unpackMantissa :
    (1#1 ++ unpackMantissa b).toNat = Nat.pow 2 52 + (unpackMantissa b).toNat := by
  rw [BitVec.toNat_append, ← Nat.shiftLeft_add_eq_or_of_lt (BitVec.isLt _)]
  rfl

end

/-- The form of an unpacked value, by the numbers in its fields. -/
theorem FloatForm.ofUnpacked_unpack (b : BitVec Format.binary64.numBits) :
    ofUnpacked (UnpackedFloat.unpack Format.binary64 b) =
      (let negative := isNegative (Sign.ofBitVec (unpackSign b))
      let biased := (unpackExponent b).toNat
      let fraction := (unpackMantissa b).toNat
      if biased = 2047 then if fraction = 0 then .infinite negative else .undefined
      else if biased = 0 then .finite negative ⟨fraction, -1074⟩
      else .finite negative ⟨Nat.pow 2 52 + fraction, (biased : Int) - 1075⟩) := by
  -- the model tests its fields as bit vectors
  have hspecial : (unpackExponent b).toNat = 2047 ↔ unpackExponent b = -1#_ :=
    BitVec.toNat_inj (y := -1#11)
  have hleast : (unpackExponent b).toNat = 0 ↔ unpackExponent b = 0#_ :=
    BitVec.toNat_inj (y := 0#11)
  have hwhole : (unpackMantissa b).toNat = 0 ↔ unpackMantissa b = 0#_ :=
    BitVec.toNat_inj (y := 0#52)
  unfold UnpackedFloat.unpack
  simp only [hspecial, hleast, hwhole]
  split
  · split <;> rfl
  · split
    · next hexponent =>
      split
      · next hmantissa =>
        rw [hwhole.mpr hmantissa]
        rfl
      · rw [hleast.mpr hexponent]
        rfl
    · rw [ofUnpacked, toNat_one_append_unpackMantissa]
      rfl

/-- **The form of a value is that of its unpacked model.** -/
theorem FloatForm.ofFloat_eq_ofUnpacked (x : Float) :
    FloatForm.ofFloat x = .ofUnpacked x.toModel.unpack := by
  change _ = ofUnpacked (UnpackedFloat.unpack Format.binary64 x.toBits.toBitVec)
  rw [ofUnpacked_unpack, isNegative_unpackSign, toNat_unpackExponent, toNat_unpackMantissa]
  rfl

/-- Whether the parts of an unpacked value are canonical. -/
def IsCanonical : UnpackedFloat → Prop
  | .finite _ m e _ => (BinaryParts.mk m e).IsCanonical
  | _ => True

/-- Values are unpacked into canonical parts. -/
theorem isCanonical_unpack (b : BitVec Format.binary64.numBits) :
    IsCanonical (UnpackedFloat.unpack Format.binary64 b) := by
  have hfraction : (unpackMantissa b).toNat < 2 ^ 52 := BitVec.isLt _
  unfold UnpackedFloat.unpack
  dsimp only
  split
  · split <;> trivial
  · split
    · next hexponent =>
      split
      · trivial
      · rw [hexponent]
        exact ⟨le_rfl, hfraction.trans (by decide), fun hne => absurd rfl hne⟩
    · next hexponent =>
      have hpos : 0 < (unpackExponent b).toNat :=
        Nat.pos_of_ne_zero fun hzero => hexponent (BitVec.toNat_inj.mp hzero)
      have hbias : (Format.binary64.exponentBias : Int) = 1023 := rfl
      have hsignificand := toNat_one_append_unpackMantissa b
      rw [Nat.pow_eq] at hsignificand
      refine ⟨?_, ?_, fun _ => ?_⟩ <;> dsimp only <;> omega

/-! ### Comparisons -/

@[simp]
theorem compare_coe_coe (p q : Rat) :
    compare ((p : WithTop Rat) : WithBot (WithTop Rat)) (q : WithTop Rat) = compare p q := by
  obtain h | rfl | h := lt_trichotomy p q
  · rw [compare_lt_iff_lt.mpr h, compare_lt_iff_lt]
    exact WithBot.coe_lt_coe.mpr (WithTop.coe_lt_coe.mpr h)
  · rw [compare_eq_iff_eq.mpr rfl, compare_eq_iff_eq.mpr rfl]
  · rw [compare_gt_iff_gt.mpr h, compare_gt_iff_gt]
    exact WithBot.coe_lt_coe.mpr (WithTop.coe_lt_coe.mpr h)

@[simp]
theorem coe_coe_lt_top (p : Rat) : ((p : WithTop Rat) : WithBot (WithTop Rat)) < ⊤ :=
  WithBot.coe_lt_coe.mpr (WithTop.coe_lt_top p)

open BinaryParts in
/-- **Unpacked values compare as their amounts.** -/
theorem compare_unpacked {a b : UnpackedFloat} (ha : IsCanonical a) (hb : IsCanonical b) :
    (FloatForm.ofUnpacked a).amount?.bind
        (fun x => (FloatForm.ofUnpacked b).amount?.map (compare x)) = a.compare b := by
  cases a with
  | notANumber => cases b <;> rfl
  | infinity s =>
    cases b with
    | notANumber => rfl
    | infinity t =>
      cases s <;> cases t <;> simp [UnpackedFloat.compare] <;> rfl
    | zero t => cases s <;> simp [UnpackedFloat.compare, compare_lt_iff_lt, compare_gt_iff_gt]
    | finite t n f hn =>
      cases s <;> simp [UnpackedFloat.compare, compare_lt_iff_lt, compare_gt_iff_gt]
  | zero s =>
    cases b with
    | notANumber => rfl
    | infinity t => cases t <;> simp [UnpackedFloat.compare, compare_lt_iff_lt, compare_gt_iff_gt]
    | zero t => simp [UnpackedFloat.compare, signed_zero]
    | finite t n f hn =>
      cases t <;> simp [UnpackedFloat.compare, compare_lt_iff_lt, compare_gt_iff_gt,
        signed_zero, signed_neg hn, signed_pos hn]
  | finite s m e hm =>
    cases b with
    | notANumber => rfl
    | infinity t => cases t <;> simp [UnpackedFloat.compare, compare_lt_iff_lt, compare_gt_iff_gt]
    | zero t =>
      cases s <;> simp [UnpackedFloat.compare, compare_lt_iff_lt, compare_gt_iff_gt,
        signed_zero, signed_neg hm, signed_pos hm]
    | finite t n f hn =>
      have hparts := compare_toRat ha hb
      cases s <;> cases t
      · simp [UnpackedFloat.compare, hparts, compare_signed_true]
      · simp [UnpackedFloat.compare, compare_lt_iff_lt, signed_neg_lt_pos hm hn]
      · simp [UnpackedFloat.compare, compare_gt_iff_gt, signed_neg_lt_pos hn hm]
      · simp [UnpackedFloat.compare, hparts, compare_signed_false]

/-- What stands for nothing compares with nothing, and amounts compare as such. -/
theorem compare_unpack (x y : Float) :
    x.toModel.unpack.compare y.toModel.unpack =
      (amount? x).bind fun a => (amount? y).map (compare a) := by
  rw [amount?, amount?, FloatForm.ofFloat_eq_ofUnpacked, FloatForm.ofFloat_eq_ofUnpacked]
  exact (compare_unpacked (isCanonical_unpack _) (isCanonical_unpack _)).symm

/-- **One value is less than another** exactly if its amount is. -/
theorem lt_iff_amount {x y : Float} : x < y ↔ ∃ a ∈ amount? x, ∃ b ∈ amount? y, a < b := by
  have hmodel : x < y ↔ (x.toModel.unpack.compare y.toModel.unpack == some .lt) = true :=
    decide_eq_true_iff
  rw [hmodel, compare_unpack, beq_iff_eq, Option.bind_eq_some_iff]
  simp only [Option.map_eq_some_iff, compare_lt_iff_lt, Option.mem_def]

/-- **One value is at most another** exactly if its amount is. -/
theorem le_iff_amount {x y : Float} : x ≤ y ↔ ∃ a ∈ amount? x, ∃ b ∈ amount? y, a ≤ b := by
  have hmodel : x ≤ y ↔ (x.toModel.unpack.compare y.toModel.unpack).any (·.isLE) = true :=
    decide_eq_true_iff
  rw [hmodel, compare_unpack]
  cases amount? x <;> cases amount? y <;> simp [Ordering.isLE_iff_ne_gt, compare_le_iff_le]

/-- A value is no number exactly if it stands for nothing. -/
theorem isNaN_iff_amount {x : Float} : x.isNaN = true ↔ amount? x = none := by
  change x.toModel.unpack.isNaN = true ↔ _
  rw [amount?, FloatForm.ofFloat_eq_ofUnpacked]
  cases x.toModel.unpack <;> simp [UnpackedFloat.isNaN]

/-- A value is finite exactly if it has an exact value. -/
theorem isFinite_iff_exactValue {x : Float} : x.isFinite = true ↔ ∃ q, exactValue x = .ok q := by
  change x.toModel.unpack.isFinite = true ↔ _
  simp only [exactValue_eq_ok_iff, amount?, FloatForm.ofFloat_eq_ofUnpacked]
  cases x.toModel.unpack with
  | notANumber => simp [UnpackedFloat.isFinite]
  | infinity s => cases s <;> simp [UnpackedFloat.isFinite]
  | zero s => exact iff_of_true rfl ⟨_, rfl⟩
  | finite s m e hm => exact iff_of_true rfl ⟨_, rfl⟩

/-! ### Zeros -/

/-- A value that compares equal to zero is one of the two zeros. -/
theorem unpack_of_beq_zero {d : Float} (h : (d == (Scalar.ofInt 0 : Float)) = true) :
    ∃ s, d.toModel.unpack = .zero s := by
  have hmodel : d.toModel.unpack.beq (.zero .positive) = true := h
  cases hd : d.toModel.unpack with
  | notANumber => simp [hd, UnpackedFloat.beq, UnpackedFloat.compare] at hmodel
  | infinity s => cases s <;> simp [hd, UnpackedFloat.beq, UnpackedFloat.compare] at hmodel
  | zero s => exact ⟨s, rfl⟩
  | finite s m e hm => cases s <;> simp [hd, UnpackedFloat.beq, UnpackedFloat.compare] at hmodel

/-- **It does not matter which zero is added**: the exact value of the sum is the same. -/
theorem exactValue_add_zero (x : Float) {d d' : Float}
    (h : (d == (Scalar.ofInt 0 : Float)) = true) (h' : (d' == (Scalar.ofInt 0 : Float)) = true) :
    exactValue (x + d) = exactValue (x + d') := by
  obtain ⟨s, hs⟩ := unpack_of_beq_zero h
  obtain ⟨s', hs'⟩ := unpack_of_beq_zero h'
  change exactValue ⟨.pack (UnpackedFloat.add _ x.toModel.unpack d.toModel.unpack)⟩ =
    exactValue ⟨.pack (UnpackedFloat.add _ x.toModel.unpack d'.toModel.unpack)⟩
  rw [hs, hs']
  cases x.toModel.unpack with
  | notANumber => rfl
  | infinity t => rfl
  | finite t m e hm => rfl
  -- the sum of two zeros is a zero, but its sign depends on theirs
  | zero t => cases s <;> cases s' <;> cases t <;> decide +kernel

end TimelineExport
