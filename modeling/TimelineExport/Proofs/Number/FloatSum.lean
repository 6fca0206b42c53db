import TimelineExport.Proofs.Number.Rounding

/-!
# Sums and products of floating-point values

The amount of a sum or a product of two finite values is the exact one, rounded
(`amount?_add`, `amount?_mul`). Since rounding keeps the order, so does adding to a value
(`add_le_add_of_finite`); and what is not negative does not lessen the value to which it is added
(`le_add_of_nonneg`). An integer stands for itself, rounded (`amount?_ofNat`,
`eq_roundedAmount_of_exactValue_ofInt`); powers of two are values as long as they are not too large
(`exactValue_ofNat_two_pow`).
-/

namespace TimelineExport

open Float.Model (Format UnpackedFloat)
open Float.Model.UnpackedFloat (Sign)

/-! ### Finite values -/

/-- A finite value is unpacked to a zero or to canonical parts. -/
theorem unpack_of_exactValue {x : Float} {q : Rat} (h : exactValue x = .ok q) :
    (∃ s, x.toModel.unpack = .zero s ∧ q = 0) ∨
      ∃ s m e hm, x.toModel.unpack = .finite s m e hm ∧ (BinaryParts.mk m e).IsCanonical ∧
        q = (BinaryParts.mk m e).signed (isNegative s) := by
  have hcanonical : IsCanonical x.toModel.unpack := isCanonical_unpack _
  unfold exactValue at h
  rw [FloatForm.ofFloat_eq_ofUnpacked] at h
  cases hx : x.toModel.unpack with
  | notANumber | infinity =>
    rw [hx] at h
    cases h
  | zero s =>
    rw [hx] at h
    exact .inl ⟨s, rfl, (Except.ok.inj h).symm.trans (BinaryParts.signed_zero _ _)⟩
  | finite s m e hm =>
    rw [hx] at h hcanonical
    exact .inr ⟨s, m, e, hm, rfl, hcanonical, (Except.ok.inj h).symm⟩

/-- What is a number is finite or infinite. -/
theorem exactValue_or_infinity {x : Float} (h : x.isNaN = false) :
    (∃ q, exactValue x = .ok q) ∨ ∃ s, x.toModel.unpack = .infinity s := by
  have hmodel : x.toModel.unpack.isNaN = false := h
  cases hx : x.toModel.unpack with
  | notANumber =>
    rw [hx] at hmodel
    cases hmodel
  | infinity s => exact .inr ⟨s, rfl⟩
  | zero s | finite s m e hm =>
    refine .inl ?_
    rw [exactValue, FloatForm.ofFloat_eq_ofUnpacked, hx]
    exact ⟨_, rfl⟩

/-- What is a number has an amount. -/
theorem exists_amount? {x : Float} (h : x.isNaN = false) : ∃ a, amount? x = some a :=
  Option.ne_none_iff_exists'.mp fun hnone => by
    rw [isNaN_iff_amount.mpr hnone] at h
    cases h

/-- A value is no number exactly if it has no exact value and is not infinite. -/
theorem isNaN_iff_exactValue {x : Float} : x.isNaN = true ↔ exactValue x = .error .undefined := by
  rw [isNaN_iff_amount, amount?, exactValue]
  cases FloatForm.ofFloat x <;> simp

/-- The exponent of a finite value fits. -/
theorem exponent_le_of_ofFloat {x : Float} {negative : Bool} {p : BinaryParts}
    (h : FloatForm.ofFloat x = .finite negative p) : p.exponent ≤ 971 := by
  unfold FloatForm.ofFloat at h
  dsimp only at h
  split at h
  · split at h <;> cases h
  · split at h
    · cases h
      dsimp only
      norm_num
    · next hbiased _ =>
      cases h
      dsimp only
      generalize hn : x.toBits.toNat / Nat.pow 2 52 % Nat.pow 2 11 = n at hbiased
      have hlt : n < 2 ^ 11 := hn ▸ Nat.mod_lt _ (Nat.two_pow_pos 11)
      omega

/-- A finite value is a rounded amount that is not too large. -/
theorem roundedAmount_exactValue {x : Float} {q : Rat} (h : exactValue x = .ok q) :
    roundedAmount q = q ∧ |q| < 2 ^ 1024 := by
  obtain ⟨s, -, rfl⟩ | ⟨s, m, e, hm, hx, hp, rfl⟩ := unpack_of_exactValue h
  · exact ⟨roundedAmount_zero, by rw [abs_zero]; positivity⟩
  · have hform : FloatForm.ofFloat x = .finite (isNegative s) ⟨m, e⟩ := by
      rw [FloatForm.ofFloat_eq_ofUnpacked, hx]
      rfl
    refine ⟨roundedAmount_signed hp _, ?_⟩
    rw [BinaryParts.abs_signed]
    exact BinaryParts.toRat_lt_of_exponent_le hp (exponent_le_of_ofFloat hform)

theorem boundedAmount_exactValue {x : Float} {q : Rat} (h : exactValue x = .ok q) :
    boundedAmount (roundedAmount q) = ((q : WithTop Rat) : WithBot (WithTop Rat)) := by
  obtain ⟨hrounded, hsmall⟩ := roundedAmount_exactValue h
  rw [hrounded, boundedAmount_of_abs_lt hsmall]

/-! ### Sums -/

/-- A significand at a smaller exponent, with its sign. -/
theorem apply_decreaseExponent (s : Sign) (m : Nat) {e t : Int} (ht : t ≤ e) :
    ((s.apply (m <<< (e - t).toNat : Nat) : Int) : Rat) * 2 ^ t =
      (BinaryParts.mk m e).signed (isNegative s) := by
  have hrat := toRat_shiftLeft m (e - t).toNat e
  rw [Int.toNat_of_nonneg (by omega), sub_sub_cancel] at hrat
  cases s with
  | negative =>
    refine Eq.trans ?_ (congrArg Neg.neg hrat)
    change ((-((m <<< (e - t).toNat : Nat) : Int) : Int) : Rat) * 2 ^ t = -(_ * 2 ^ t)
    rw [Int.cast_neg, Int.cast_natCast, neg_mul]
  | positive =>
    refine Eq.trans ?_ hrat
    change (((m <<< (e - t).toNat : Nat) : Int) : Rat) * 2 ^ t = _ * 2 ^ t
    rw [Int.cast_natCast]

theorem isRounded_zero (s : Sign) : IsRounded (.zero s) 0 :=
  ⟨_, _, rfl, isCanonical_zero, (BinaryParts.signed_zero _ _).trans roundedAmount_zero.symm⟩

theorem isRounded_finite (s : Sign) {m : Nat} {e : Int} (hm : 0 < m)
    (hp : (BinaryParts.mk m e).IsCanonical) :
    IsRounded (.finite s m e hm) ((BinaryParts.mk m e).signed (isNegative s)) :=
  ⟨_, _, rfl, hp, (roundedAmount_signed hp _).symm⟩

/-- **The amount of a sum** is the exact sum, rounded. -/
theorem amount?_add {x y : Float} {q r : Rat} (hx : exactValue x = .ok q)
    (hy : exactValue y = .ok r) :
    amount? (x + y) = some (boundedAmount (roundedAmount (q + r))) := by
  change amount? ⟨.pack (UnpackedFloat.add Format.binary64 x.toModel.unpack y.toModel.unpack)⟩ = _
  refine amount?_pack ?_
  obtain ⟨s, hxu, rfl⟩ | ⟨s, m, e, hm, hxu, hp, rfl⟩ := unpack_of_exactValue hx <;>
    obtain ⟨t, hyu, rfl⟩ | ⟨t, n, f, hn, hyu, hr, rfl⟩ := unpack_of_exactValue hy <;>
    rw [hxu, hyu]
  · rw [add_zero]
    unfold UnpackedFloat.add
    dsimp only
    split <;> exact isRounded_zero _
  · rw [zero_add]
    exact isRounded_finite t hn hr
  · rw [add_zero]
    exact isRounded_finite s hm hp
  · have hsum := isRounded_normalize
      (s.apply (m <<< (e - min e f).toNat : Nat) + t.apply (n <<< (f - min e f).toNat : Nat))
      (min e f)
    rw [Int.cast_add, add_mul, apply_decreaseExponent s m (min_le_left e f),
      apply_decreaseExponent t n (min_le_right e f)] at hsum
    exact hsum

/-- The amount of an infinite value, to which a finite one is added, stays. -/
theorem amount?_add_of_infinity {x y : Float} {s : Sign} {r : Rat}
    (hx : x.toModel.unpack = .infinity s) (hy : exactValue y = .ok r) :
    amount? (x + y) = amount? x := by
  have hsum : amount? (x + y) = amount? ⟨.pack (.infinity s)⟩ := by
    change amount? ⟨.pack (UnpackedFloat.add Format.binary64 x.toModel.unpack y.toModel.unpack)⟩ = _
    obtain ⟨t, hyu, -⟩ | ⟨t, n, f, hn, hyu, -⟩ := unpack_of_exactValue hy <;> rw [hx, hyu] <;> rfl
  have hamount : amount? x = (FloatForm.infinite (isNegative s)).amount? := by
    rw [amount?, FloatForm.ofFloat_eq_ofUnpacked, hx]
    rfl
  rw [hsum, hamount, amount?, FloatForm.ofFloat_pack_infinity]

/-- **Adding a larger finite value** gives a larger sum. -/
theorem add_le_add_of_finite {x y z : Float} {q r : Rat} (hx : x.isNaN = false)
    (hy : exactValue y = .ok q) (hz : exactValue z = .ok r) (h : q ≤ r) : x + y ≤ x + z := by
  rw [le_iff_amount]
  obtain ⟨p, hp⟩ | ⟨s, hs⟩ := exactValue_or_infinity hx
  · exact ⟨_, amount?_add hp hy, _, amount?_add hp hz,
      boundedAmount_mono (roundedAmount_mono (add_le_add_right h p))⟩
  · obtain ⟨a, ha⟩ := exists_amount? hx
    exact ⟨a, (amount?_add_of_infinity hs hy).trans ha, a,
      (amount?_add_of_infinity hs hz).trans ha, le_rfl⟩

/-- **Adding what is not negative** does not make a value smaller. -/
theorem le_add_of_nonneg {x y : Float} {q : Rat} (hx : x.isNaN = false) (hy : exactValue y = .ok q)
    (h : 0 ≤ q) : x ≤ x + y := by
  rw [le_iff_amount]
  obtain ⟨p, hp⟩ | ⟨s, hs⟩ := exactValue_or_infinity hx
  · refine ⟨_, exactValue_eq_ok_iff.mp hp, _, amount?_add hp hy, ?_⟩
    rw [← boundedAmount_exactValue hp]
    exact boundedAmount_mono (roundedAmount_mono (le_add_of_nonneg_right h))
  · obtain ⟨a, ha⟩ := exists_amount? hx
    exact ⟨a, ha, a, (amount?_add_of_infinity hs hy).trans ha, le_rfl⟩

/-! ### Products -/

theorem toRat_mul (m n : Nat) (e f : Int) :
    (BinaryParts.mk (m * n) (e + f)).toRat =
      (BinaryParts.mk m e).toRat * (BinaryParts.mk n f).toRat := by
  unfold BinaryParts.toRat
  rw [zpow_add₀ two_ne_zero, Nat.cast_mul]
  ring

theorem signed_mul (s t : Sign) (m n : Nat) (e f : Int) :
    (BinaryParts.mk (m * n) (e + f)).signed (isNegative (s * t)) =
      (BinaryParts.mk m e).signed (isNegative s) * (BinaryParts.mk n f).signed (isNegative t) := by
  have hmul := toRat_mul m n e f
  cases s <;> cases t
  · exact hmul.trans (neg_mul_neg _ _).symm
  · exact (congrArg Neg.neg hmul).trans (neg_mul _ _).symm
  · exact (congrArg Neg.neg hmul).trans (mul_neg _ _).symm
  · exact hmul

/-- A product of canonical parts ends no later than its last place. -/
theorem add_exponent_le_lastPlace {m n : Nat} {e f : Int} (hm : 0 < m) (hn : 0 < n)
    (hp : (BinaryParts.mk m e).IsCanonical) (hr : (BinaryParts.mk n f).IsCanonical) :
    e + f ≤ lastPlace (BinaryParts.mk (m * n) (e + f)).toRat := by
  have hpos := Nat.mul_pos hm hn
  rw [lastPlace, abs_of_pos (BinaryParts.toRat_pos hpos _), BinaryParts.log_toRat hpos]
  obtain hwide | hnarrow := le_or_gt (2 ^ 52) (m * n)
  · have hlog := (Nat.le_log2 hpos.ne').mpr hwide
    omega
  -- both significands are narrow, so both exponents are the least
  · have hm' : m < 2 ^ 52 := (Nat.le_mul_of_pos_right m hn).trans_lt hnarrow
    have hn' : n < 2 ^ 52 := (Nat.le_mul_of_pos_left n hm).trans_lt hnarrow
    have he : e = -1074 := by_contra fun hne => hm'.not_ge (hp.wide hne)
    have hf : f = -1074 := by_contra fun hne => hn'.not_ge (hr.wide hne)
    omega

/-- **The amount of a product** is the exact product, rounded. -/
theorem amount?_mul {x y : Float} {q r : Rat} (hx : exactValue x = .ok q)
    (hy : exactValue y = .ok r) :
    amount? (x * y) = some (boundedAmount (roundedAmount (q * r))) := by
  change amount? ⟨.pack (UnpackedFloat.mul Format.binary64 x.toModel.unpack y.toModel.unpack)⟩ = _
  refine amount?_pack ?_
  obtain ⟨s, hxu, rfl⟩ | ⟨s, m, e, hm, hxu, hp, rfl⟩ := unpack_of_exactValue hx <;>
    obtain ⟨t, hyu, rfl⟩ | ⟨t, n, f, hn, hyu, hr, rfl⟩ := unpack_of_exactValue hy <;>
    rw [hxu, hyu]
  · rw [mul_zero]
    exact isRounded_zero _
  · rw [zero_mul]
    exact isRounded_zero _
  · rw [mul_zero]
    exact isRounded_zero _
  · rw [← signed_mul]
    exact isRounded_roundWithAccuracy (s * t) (Nat.mul_pos hm hn)
      (add_exponent_le_lastPlace hm hn hp hr)

/-- A number times a finite value other than zero is a number. -/
theorem isNaN_mul {x y : Float} {r : Rat} (hx : x.isNaN = false) (hy : exactValue y = .ok r)
    (hr : r ≠ 0) : (x * y).isNaN = false := by
  have hnumber : amount? (x * y) ≠ none := by
    obtain ⟨q, hq⟩ | ⟨s, hs⟩ := exactValue_or_infinity hx
    · rw [amount?_mul hq hy]
      exact Option.some_ne_none _
    · change amount?
        ⟨.pack (UnpackedFloat.mul Format.binary64 x.toModel.unpack y.toModel.unpack)⟩ ≠ _
      obtain ⟨t, -, rfl⟩ | ⟨t, n, f, hn, hyu, -⟩ := unpack_of_exactValue hy
      · exact absurd rfl hr
      · rw [hs, hyu]
        change amount? ⟨.pack (.infinity (s * t))⟩ ≠ none
        rw [amount?, FloatForm.ofFloat_pack_infinity]
        exact Option.some_ne_none _
  exact Bool.eq_false_iff.mpr fun h => hnumber (isNaN_iff_amount.mp h)

/-- A finite value times one stands for the same. -/
theorem amount?_mul_one {x y : Float} {q : Rat} (hx : exactValue x = .ok q)
    (hy : exactValue y = .ok 1) : amount? (x * y) = amount? x := by
  rw [amount?_mul hx hy, mul_one, boundedAmount_exactValue hx, exactValue_eq_ok_iff.mp hx]

/-- **A product with a finite value other than zero is a number** exactly if the other factor is. -/
theorem isNaN_mul_iff {x y : Float} {r : Rat} (hy : exactValue y = .ok r) (hr : r ≠ 0) :
    (x * y).isNaN = true ↔ x.isNaN = true := by
  constructor
  · intro h
    by_contra hx
    rw [isNaN_mul (Bool.eq_false_iff.mpr hx) hy hr] at h
    cases h
  · intro h
    have hproduct : (x * y).isNaN = (⟨.pack (UnpackedFloat.mul Format.binary64 x.toModel.unpack
      y.toModel.unpack)⟩ : Float).isNaN := rfl
    have hnan : (⟨.pack .notANumber⟩ : Float).isNaN = true := by
      rw [isNaN_iff_exactValue, exactValue, FloatForm.ofFloat_pack_notANumber]
    have hx : x.toModel.unpack.isNaN = true := h
    rw [hproduct]
    cases hxu : x.toModel.unpack with
    | notANumber => cases y.toModel.unpack <;> exact hnan
    | infinity _ | zero _ | finite _ _ _ _ =>
      rw [hxu] at hx
      cases hx

/-- What is finite when it is multiplied by one is what it was. -/
theorem exactValue_of_mul_one {x y : Float} {q : Rat} (hy : exactValue y = .ok 1)
    (h : exactValue (x * y) = .ok q) : exactValue x = .ok q := by
  have hproduct : x * y =
      ⟨.pack (UnpackedFloat.mul Format.binary64 x.toModel.unpack y.toModel.unpack)⟩ := rfl
  obtain ⟨t, -, hzero⟩ | ⟨t, n, f, hn, hyu, -⟩ := unpack_of_exactValue hy
  · exact absurd hzero one_ne_zero
  cases hx : x.toModel.unpack with
  | notANumber =>
    have herror : exactValue ⟨.pack .notANumber⟩ = .error .undefined := by
      rw [exactValue, FloatForm.ofFloat_pack_notANumber]
    rw [hproduct, hx, hyu] at h
    cases herror.symm.trans h
  | infinity s =>
    have herror : exactValue ⟨.pack (.infinity (s * t))⟩ = .error .infinite := by
      rw [exactValue, FloatForm.ofFloat_pack_infinity]
    rw [hproduct, hx, hyu] at h
    cases herror.symm.trans h
  | zero s | finite s m e hm =>
    obtain ⟨r, hr⟩ : ∃ r, exactValue x = .ok r := by
      rw [exactValue, FloatForm.ofFloat_eq_ofUnpacked, hx]
      exact ⟨_, rfl⟩
    rwa [exactValue_eq_ok_iff, amount?_mul_one hr hy, ← exactValue_eq_ok_iff] at h

/-! ### Integers -/

theorem amount?_toFloat (n : UInt64) :
    amount? n.toFloat = some (boundedAmount (roundedAmount n.toNat)) := by
  have h := isRounded_normalize n.toNat 0
  rw [zpow_zero, mul_one, Int.cast_natCast] at h
  exact amount?_pack h

/-- Powers of two are not rounded. -/
theorem roundedAmount_two_pow (n : Nat) : roundedAmount (2 ^ n) = 2 ^ n := by
  have hfits : (2 : Nat) ^ 52 < 2 ^ 53 := by decide
  have hcanonical : (BinaryParts.mk (2 ^ 52) ((n : Int) - 52)).IsCanonical :=
    ⟨by dsimp only; omega, hfits, fun _ => le_rfl⟩
  have hrat : (BinaryParts.mk (2 ^ 52) ((n : Int) - 52)).signed false = 2 ^ n := by
    change (((2 ^ 52 : Nat) : Rat)) * 2 ^ ((n : Int) - 52) = 2 ^ n
    rw [Nat.cast_pow, Nat.cast_ofNat, ← zpow_natCast, ← zpow_natCast, ← zpow_add₀ two_ne_zero]
    congr 1
    omega
  rw [← hrat]
  exact roundedAmount_signed hcanonical false

theorem exactValue_powerOfTen_zero : exactValue (Float.ofBits 0x3FF0000000000000) = .ok 1 := by
  have hform : FloatForm.ofFloat (Float.ofBits 0x3FF0000000000000) =
      .finite false ⟨2 ^ 52, -52⟩ := by decide +kernel
  rw [exactValue, hform]
  norm_num [BinaryParts.toRat]

/-- A numeral without a power of ten is rounded. -/
theorem isRounded_ofScientific {m : Nat} (hm : 0 < m) :
    IsRounded (UnpackedFloat.ofScientific Format.binary64 m 0) m := by
  have hshift : 0 < m <<< 53 := by
    rw [Nat.shiftLeft_eq]
    exact Nat.mul_pos hm (Nat.two_pow_pos 53)
  have hrat : (BinaryParts.mk (m <<< 53) (-53)).toRat = m := by
    refine (toRat_shiftLeft m 53 0).trans ?_
    rw [BinaryParts.toRat, zpow_zero, mul_one]
  have hplace : (-53 : Int) ≤ lastPlace (BinaryParts.mk (m <<< 53) (-53)).toRat := by
    have hone : (2 : Rat) ^ (0 : Int) ≤ m := by exact_mod_cast hm
    have hlog := (Int.zpow_le_iff_le_log one_lt_two (Nat.cast_pos.mpr hm)).mp hone
    rw [hrat, lastPlace, Nat.abs_cast]
    omega
  have hrounded := isRounded_roundWithAccuracy .positive hshift hplace
  have hproduct : UnpackedFloat.ofScientific Format.binary64 m 0 =
      UnpackedFloat.roundWithAccuracy Format.binary64 .positive (m <<< 53) (-53) .exact := by
    have hbits : (0 : Int) ≤ 2 ^ Format.binary64.exponentBits := by positivity
    unfold UnpackedFloat.ofScientific
    rw [dif_neg hm.ne', if_neg (by omega), if_neg (by omega), if_pos le_rfl]
    change UnpackedFloat.roundWithAccuracy Format.binary64 .positive (m <<< 53 * 1) (-53) .exact = _
    rw [mul_one]
  rw [hproduct, ← hrat]
  exact hrounded

/-- **The amount of a natural number** is the number, rounded. -/
theorem amount?_ofNat (n : Nat) :
    amount? (Float.ofNat n) = some (boundedAmount (roundedAmount n)) := by
  change amount? (Float.ofScientific n false 0) = _
  unfold Float.ofScientific
  split
  · next hsmall =>
    have hword : n.toUInt64.toNat = n := Nat.mod_eq_of_lt (hsmall.1.trans (by decide))
    have hle : roundedAmount n ≤ 2 ^ 53 := by
      rw [← roundedAmount_two_pow]
      exact roundedAmount_mono (by exact_mod_cast hsmall.1.le)
    have hvalue : exactValue n.toUInt64.toFloat = .ok (roundedAmount n) := by
      rw [exactValue_eq_ok_iff, amount?_toFloat, hword, boundedAmount_of_abs_lt]
      rw [abs_of_nonneg (roundedAmount_nonneg (Nat.cast_nonneg n))]
      exact hle.trans_lt (pow_lt_pow_right₀ one_lt_two (by decide))
    refine (amount?_mul_one hvalue exactValue_powerOfTen_zero).trans ?_
    rw [amount?_toFloat, hword]
  · next hlarge =>
    have hpos : 0 < n := Nat.pos_of_ne_zero fun hzero => hlarge (by subst hzero; decide)
    exact amount?_pack (isRounded_ofScientific hpos)

/-- A finite amount is not changed by its bounds. -/
theorem eq_of_boundedAmount_eq {q r : Rat}
    (h : boundedAmount q = ((r : WithTop Rat) : WithBot (WithTop Rat))) : q = r := by
  unfold boundedAmount at h
  split_ifs at h
  · exact absurd (WithBot.coe_inj.mp h) WithTop.top_ne_coe
  · exact absurd h (WithBot.bot_ne_coe)
  · exact WithTop.coe_inj.mp (WithBot.coe_inj.mp h)

/-- The negative of a finite value stands for the negative. -/
theorem exactValue_neg {x : Float} {q : Rat} (h : exactValue x = .ok q) :
    exactValue x.neg = .ok (-q) := by
  obtain ⟨hrounded, hsmall⟩ := roundedAmount_exactValue h
  have hbounded : boundedAmount (roundedAmount (-q)) =
      ((-q : Rat) : WithTop Rat) := by
    rw [roundedAmount_neg, hrounded, boundedAmount_of_abs_lt (by rwa [abs_neg])]
  rw [exactValue_eq_ok_iff, ← hbounded]
  change amount? ⟨.pack x.toModel.unpack.neg⟩ = _
  refine amount?_pack ?_
  obtain ⟨s, hx, rfl⟩ | ⟨s, m, e, hm, hx, hp, rfl⟩ := unpack_of_exactValue h
  · rw [hx, neg_zero]
    exact isRounded_zero (-s)
  · have hsigned : -(BinaryParts.mk m e).signed (isNegative s) =
        (BinaryParts.mk m e).signed (isNegative (-s)) := by
      cases s with
      | positive => rfl
      | negative => exact neg_neg _
    rw [hx, hsigned]
    exact isRounded_finite (-s) hm hp

/-- If the negative of a number is finite, so is the number. -/
theorem exactValue_of_neg {x : Float} {q : Rat} (hx : x.isNaN = false)
    (h : exactValue x.neg = .ok q) : exactValue x = .ok (-q) := by
  obtain ⟨p, hp⟩ | ⟨s, hs⟩ := exactValue_or_infinity hx
  · cases (exactValue_neg hp).symm.trans h
    rwa [neg_neg]
  · have hneg : x.neg = ⟨.pack (.infinity (-s))⟩ := by
      change (⟨.pack x.toModel.unpack.neg⟩ : Float) = _
      rw [hs]
      rfl
    have herror : exactValue ⟨.pack (.infinity (-s))⟩ = .error .infinite := by
      rw [exactValue, FloatForm.ofFloat_pack_infinity]
    rw [hneg, herror] at h
    cases h

/-- **An integer that is a finite value** stands for itself, rounded. -/
theorem eq_roundedAmount_of_exactValue_ofInt {a : Int} {q : Rat}
    (h : exactValue (Float.ofInt a) = .ok q) : q = roundedAmount a := by
  have hnat (n : Nat) {q : Rat} (h : exactValue (Float.ofNat n) = .ok q) : q = roundedAmount n := by
    rw [exactValue_eq_ok_iff, amount?_ofNat] at h
    exact (eq_of_boundedAmount_eq (Option.some.inj h)).symm
  rcases a with n | n
  · exact hnat n h
  · have hnumber : (Float.ofNat n.succ).isNaN = false := by
      refine Bool.eq_false_iff.mpr fun hnan => ?_
      rw [isNaN_iff_amount, amount?_ofNat] at hnan
      cases hnan
    have hq := hnat n.succ (exactValue_of_neg hnumber h)
    rw [Int.cast_negSucc, roundedAmount_neg, ← Nat.succ_eq_add_one, ← hq, neg_neg]

/-- **Powers of two that are not too large** are floating-point values. -/
theorem exactValue_ofNat_two_pow {n : Nat} (hn : n < 1024) :
    exactValue (Float.ofNat (2 ^ n)) = .ok (2 ^ n) := by
  rw [exactValue_eq_ok_iff, amount?_ofNat, Nat.cast_pow, Nat.cast_ofNat, roundedAmount_two_pow,
    boundedAmount_of_abs_lt]
  rw [abs_of_pos (by positivity)]
  exact pow_lt_pow_right₀ one_lt_two hn

theorem exactValue_zero : exactValue (0 : Float) = .ok 0 := by
  have hform : FloatForm.ofFloat (0 : Float) = .finite false ⟨0, -1074⟩ := by decide +kernel
  rw [exactValue, hform]
  exact congrArg Except.ok (BinaryParts.signed_zero false _)

theorem exactValue_one : exactValue (1 : Float) = .ok 1 :=
  (exactValue_ofNat_two_pow (by decide : 0 < 1024)).trans (congrArg Except.ok (pow_zero 2))

/-- What lies between zero and one is finite. -/
theorem exactValue_of_zero_le_of_le_one {x : Float} (h : 0 ≤ x) (h' : x ≤ 1) :
    ∃ q, exactValue x = .ok q ∧ 0 ≤ q ∧ q ≤ 1 := by
  obtain ⟨a, ha, b, hb, hab⟩ := le_iff_amount.mp h
  obtain ⟨b', hb', c, hc, hbc⟩ := le_iff_amount.mp h'
  cases (exactValue_eq_ok_iff.mp exactValue_zero).symm.trans ha
  cases (exactValue_eq_ok_iff.mp exactValue_one).symm.trans hc
  cases hb.symm.trans hb'
  induction b using WithBot.recBotCoe with
  | bot => exact absurd hab (WithBot.not_coe_le_bot _)
  | coe b =>
    induction b using WithTop.recTopCoe with
    | top => exact absurd (WithBot.coe_le_coe.mp hbc) (WithTop.not_top_le_coe _)
    | coe q =>
      exact ⟨q, exactValue_eq_ok_iff.mpr hb, WithTop.coe_le_coe.mp (WithBot.coe_le_coe.mp hab),
        WithTop.coe_le_coe.mp (WithBot.coe_le_coe.mp hbc)⟩

end TimelineExport
