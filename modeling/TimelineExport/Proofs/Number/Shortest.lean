import Mathlib
import TimelineExport.Proofs.Number.FloatOrder
import TimelineExport.Proofs.Number.Nearest
import TimelineExport.Proofs.Number.PlainText

/-!
# The shortest decimal of a floating-point value

The rationals that are read back as a number fill an interval around it, and no other number is
nearer to them (`abs_sub_le_of_readsBack`). If a grid of decimals has any point in the interval, it
has one of the number's two neighbours there. The grid with seventeen digits is finer than the
interval is wide (`tenPow_lt_gaps`), so the search for a decimal ends there at the latest. It finds
the shortest decimal of the number (`isShortest_shortest`): no decimal with fewer digits is read
back, and none with as few is nearer.

So a finite number is spelled exactly by its texts in a program, as a time and as a number
(`finite_number_is_spelled`).
-/

namespace TimelineExport

open Decimal (magnitude digits)

/-! ### Powers of ten -/

theorem tenPow_pos (k : Int) : 0 < tenPow k := zpow_pos (by norm_num) k

theorem tenPow_add (j k : Int) : tenPow (j + k) = tenPow j * tenPow k :=
  zpow_add₀ (by norm_num) j k

theorem tenPow_natCast (n : Nat) : tenPow n = ((10 ^ n : Nat) : Rat) := by
  rw [tenPow, zpow_natCast, Nat.cast_pow]
  rfl

/-- The number of digits says between which powers of ten a number lies. -/
theorem pow_length_digits {n : Nat} (h : n ≠ 0) :
    10 ^ ((digits n).length - 1) ≤ n ∧ n < 10 ^ (digits n).length := by
  have hlength : 0 < (digits n).length := Nat.length_toDigits_pos
  refine ⟨?_, (Nat.length_toDigits_le_iff (by decide) hlength).mp le_rfl⟩
  obtain hone | hmore := Nat.eq_or_lt_of_le (Nat.succ_le_of_lt hlength)
  · rw [← hone]
    exact Nat.one_le_iff_ne_zero.mpr h
  · by_contra hlt
    have hshort : (digits n).length ≤ (digits n).length - 1 :=
      (Nat.length_toDigits_le_iff (by decide) (by omega)).mpr (not_le.mp hlt)
    omega

/-- The digits of the integer part of a rational say between which powers of ten it lies. -/
theorem tenPow_length_digits {q : Rat} (h : 1 ≤ q) :
    tenPow ((digits q.floor.toNat).length - 1 : Int) ≤ q ∧
      q < tenPow (digits q.floor.toNat).length := by
  have hfloor : q.floor.toNat = ⌊q⌋₊ := rfl
  have hne : ⌊q⌋₊ ≠ 0 := (Nat.floor_pos.mpr h).ne'
  have hlength : 0 < (digits ⌊q⌋₊).length := Nat.length_toDigits_pos
  obtain ⟨hle, hlt⟩ := pow_length_digits hne
  rw [hfloor, ← Nat.cast_one, ← Nat.cast_sub hlength, tenPow_natCast, tenPow_natCast]
  constructor
  · exact (Nat.cast_le.mpr hle).trans (Nat.floor_le (zero_le_one.trans h))
  · refine (Nat.lt_floor_add_one q).trans_le ?_
    exact_mod_cast hlt

theorem tenPow_neg (k : Int) : tenPow (-k) = (tenPow k)⁻¹ := zpow_neg 10 k

/-- **The scale of a positive rational**: it is less than this power of ten, and not less than the
one before. -/
theorem decimalScale_spec {v : Rat} (h : 0 < v) :
    tenPow (decimalScale v - 1) ≤ v ∧ v < tenPow (decimalScale v) := by
  unfold decimalScale
  split
  · next hone => exact tenPow_length_digits hone
  · next hone =>
    have hinv : 1 ≤ v⁻¹ := (one_le_inv₀ h).mpr (not_le.mp hone).le
    obtain ⟨hle, hlt⟩ := tenPow_length_digits hinv
    generalize ((digits v⁻¹.floor.toNat).length : Int) = n at hle hlt ⊢
    have habove : v ≤ tenPow (1 - n) := by
      rw [← neg_sub, tenPow_neg]
      exact (le_inv_comm₀ (tenPow_pos _) h).mp hle
    have hbelow : tenPow (-n) ≤ v := by
      rw [tenPow_neg]
      exact (inv_le_comm₀ h (tenPow_pos _)).mp hlt.le
    dsimp only
    split
    · next hsmall => exact ⟨by rwa [sub_right_comm, sub_self, zero_sub], hsmall⟩
    · next hlarge =>
      rw [add_sub_cancel_right]
      refine ⟨not_lt.mp hlarge, habove.trans_lt ?_⟩
      exact zpow_lt_zpow_right₀ (by norm_num) (lt_add_one _)

/-! ### The interval of a number -/

namespace BinaryParts

variable {p : BinaryParts}

theorem lowerGap_pos (p : BinaryParts) : 0 < p.lowerGap := by
  unfold lowerGap
  split <;> exact zpow_pos two_pos _

theorem upperGap_pos (p : BinaryParts) : 0 < p.upperGap := zpow_pos two_pos _

theorem upperGap_eq (p : BinaryParts) : p.upperGap = 2 ^ p.exponent / 2 :=
  zpow_sub_one₀ two_ne_zero _

theorem lowerGap_eq (p : BinaryParts) :
    p.lowerGap = if p.isNarrow then 2 ^ p.exponent / 4 else 2 ^ p.exponent / 2 := by
  have hquarter : (2 : Rat) ^ (p.exponent - 2) = 2 ^ p.exponent / 4 := by
    rw [zpow_sub₀ two_ne_zero]
    norm_num
  rw [lowerGap, hquarter, zpow_sub_one₀ two_ne_zero]
  rfl

/-- Between a number and a rational that is read back as it, all rationals are read back. -/
theorem readsBack_of_between {q r : Rat} (hq : p.readsBack q = true)
    (h : q ≤ r ∧ r ≤ p.toRat ∨ p.toRat ≤ r ∧ r ≤ q) : p.readsBack r = true := by
  have hlow := p.lowerGap_pos
  have hhigh := p.upperGap_pos
  unfold readsBack at hq ⊢
  split at hq
  · next heven =>
    rw [if_pos heven]
    simp only [Bool.and_eq_true, decide_eq_true_eq] at hq ⊢
    obtain h | h := h <;> constructor <;> linarith
  · next hodd =>
    rw [if_neg hodd]
    simp only [Bool.and_eq_true, decide_eq_true_eq] at hq ⊢
    obtain h | h := h <;> constructor <;> linarith

/-- What is not read back is no nearer than an end of the interval. -/
theorem lowerGap_le_of_not_readsBack {q : Rat} (hq : p.readsBack q = false) (h : q ≤ p.toRat) :
    p.lowerGap ≤ p.toRat - q := by
  have hhigh := p.upperGap_pos
  by_contra hnear
  rw [not_le] at hnear
  refine absurd hq (by
    unfold readsBack
    split <;> simp <;> constructor <;> linarith)

theorem upperGap_le_of_not_readsBack {q : Rat} (hq : p.readsBack q = false) (h : p.toRat ≤ q) :
    p.upperGap ≤ q - p.toRat := by
  have hlow := p.lowerGap_pos
  by_contra hnear
  rw [not_le] at hnear
  refine absurd hq (by
    unfold readsBack
    split <;> simp <;> constructor <;> linarith)

/-- Above canonical parts there is nothing for twice the gap. -/
theorem add_upperGap_le {q : BinaryParts} (hp : p.IsCanonical) (hq : q.IsCanonical)
    (h : p.toRat < q.toRat) : p.toRat + 2 * p.upperGap ≤ q.toRat := by
  have hpow : (0 : Rat) < 2 ^ p.exponent := zpow_pos two_pos _
  have hsucc : p.toRat + 2 * p.upperGap = (p.significand + 1 : Nat) * 2 ^ p.exponent := by
    rw [upperGap_eq, toRat]
    push_cast
    ring
  rw [hsucc]
  obtain hlt | heq | hgt := lt_trichotomy p.exponent q.exponent
  · have hfits : ((p.significand + 1 : Nat) : Rat) ≤ 2 ^ 53 := by exact_mod_cast hp.fits
    have hwide : (2 : Rat) ^ 52 ≤ q.significand := by
      exact_mod_cast hq.wide (by have := hp.least; omega)
    calc ((p.significand + 1 : Nat) : Rat) * 2 ^ p.exponent
      _ ≤ 2 ^ 53 * 2 ^ p.exponent := mul_le_mul_of_nonneg_right hfits hpow.le
      _ = 2 ^ 52 * 2 ^ (p.exponent + 1) := by
        rw [zpow_add₀ two_ne_zero]
        ring
      _ ≤ 2 ^ 52 * 2 ^ q.exponent :=
        mul_le_mul_of_nonneg_left (zpow_le_zpow_right₀ one_le_two hlt) (by positivity)
      _ ≤ q.significand * 2 ^ q.exponent :=
        mul_le_mul_of_nonneg_right hwide (zpow_pos two_pos _).le
  · rw [toRat, toRat, ← heq] at h
    have hsignificand := Nat.cast_lt.mp (lt_of_mul_lt_mul_right h hpow.le)
    rw [toRat, ← heq]
    exact mul_le_mul_of_nonneg_right (Nat.cast_le.mpr hsignificand) hpow.le
  · exact absurd (toRat_lt_of_exponent_lt hq hp hgt) (not_lt.mpr h.le)

/-- Below canonical parts there is nothing for twice the gap. -/
theorem add_lowerGap_le {q : BinaryParts} (hp : p.IsCanonical) (hq : q.IsCanonical)
    (h : q.toRat < p.toRat) : q.toRat + 2 * p.lowerGap ≤ p.toRat := by
  have hpow : (0 : Rat) < 2 ^ p.exponent := zpow_pos two_pos _
  have hgap : 2 * p.lowerGap ≤ 2 ^ p.exponent := by
    rw [lowerGap_eq]
    split <;> linarith
  obtain hlt | heq | hgt := lt_trichotomy q.exponent p.exponent
  · have hwide := hp.wide (by have := hq.least; omega)
    have hbound : q.toRat ≤ (2 ^ 53 - 1) * (2 ^ p.exponent / 2) := by
      have hfits : (q.significand + 1 : Rat) ≤ 2 ^ 53 := by exact_mod_cast hq.fits
      rw [← upperGap_eq, upperGap]
      exact mul_le_mul (by linarith) (zpow_le_zpow_right₀ one_le_two (Int.le_sub_one_of_lt hlt))
        (zpow_pos two_pos _).le (by norm_num)
    obtain heq | hmore := Nat.eq_or_lt_of_le hwide
    · have hnarrow : p.isNarrow = true := by
        have hleast : p.exponent ≠ -1074 := by have := hq.least; omega
        simp [isNarrow, ← heq, hleast]
      have hleast : p.toRat = 2 ^ 52 * 2 ^ p.exponent := by
        rw [toRat, ← heq]
        push_cast
        rfl
      rw [lowerGap_eq, if_pos hnarrow, hleast]
      linarith
    · have hmore : (2 ^ 52 + 1 : Rat) ≤ p.significand := by exact_mod_cast hmore
      have hlarge : (2 ^ 52 + 1) * 2 ^ p.exponent ≤ p.toRat :=
        mul_le_mul_of_nonneg_right hmore hpow.le
      linarith
  · rw [toRat, toRat, heq] at h
    have hsignificand := Nat.cast_lt.mp (lt_of_mul_lt_mul_right h hpow.le)
    have hsucc : (q.significand + 1 : Rat) * 2 ^ p.exponent ≤ p.toRat :=
      mul_le_mul_of_nonneg_right (by exact_mod_cast hsignificand) hpow.le
    rw [show q.toRat = q.significand * 2 ^ p.exponent by rw [toRat, heq]]
    linarith
  · exact absurd (toRat_lt_of_exponent_lt hp hq hgt) (not_lt.mpr h.le)

/-- **A rational is read back as the nearest number**: no other number is nearer. -/
theorem abs_sub_le_of_readsBack {q : BinaryParts} (hp : p.IsCanonical) (hq : q.IsCanonical)
    {r : Rat} (h : p.readsBack r = true) : |r - p.toRat| ≤ |r - q.toRat| := by
  have hinside : p.toRat - p.lowerGap ≤ r ∧ r ≤ p.toRat + p.upperGap := by
    unfold readsBack at h
    split at h <;> simp only [Bool.and_eq_true, decide_eq_true_eq] at h
    · exact h
    · exact ⟨h.1.le, h.2.le⟩
  have hlow := p.lowerGap_pos
  have hhigh := p.upperGap_pos
  obtain hlt | heq | hgt := lt_trichotomy p.toRat q.toRat
  · have hgap := add_upperGap_le hp hq hlt
    refine le_trans ?_ (neg_le_abs _)
    exact abs_le.mpr ⟨by linarith, by linarith⟩
  · rw [heq]
  · have hgap := add_lowerGap_le hp hq hgt
    refine le_trans ?_ (le_abs_self _)
    exact abs_le.mpr ⟨by linarith, by linarith⟩

/-! ### Grids -/

/-- The neighbour of a number below it on a grid. -/
def below (p : BinaryParts) (k : Int) : Nat := (p.toRat / tenPow k).floor.toNat

theorem below_eq (p : BinaryParts) (k : Int) : p.below k = ⌊p.toRat / tenPow k⌋₊ := rfl

theorem onGrid?_eq (p : BinaryParts) (k : Int) : p.onGrid? k =
    match p.readsBack (p.below k * tenPow k), p.readsBack ((p.below k + 1 : Nat) * tenPow k) with
    | true, false => some (p.below k)
    | false, true => some (p.below k + 1)
    | true, true => some (nearestInt (p.toRat / tenPow k)).toNat
    | false, false => none := rfl

/-- The integer nearest to a number on a grid is one of its neighbours. -/
theorem natCast_nearestInt (p : BinaryParts) (k : Int) :
    ((nearestInt (p.toRat / tenPow k)).toNat : Int) = nearestInt (p.toRat / tenPow k) ∧
      ((nearestInt (p.toRat / tenPow k)).toNat = p.below k ∨
        (nearestInt (p.toRat / tenPow k)).toNat = p.below k + 1) := by
  have hfloor : 0 ≤ (p.toRat / tenPow k).floor :=
    Int.floor_nonneg.mpr (div_nonneg p.toRat_nonneg (tenPow_pos k).le)
  obtain h | h := nearestInt_eq_or (p.toRat / tenPow k) <;> rw [h, below] <;> omega

/-- **A number lies between its neighbours on a grid.** -/
theorem between_neighbours (p : BinaryParts) (k : Int) :
    p.below k * tenPow k ≤ p.toRat ∧ p.toRat < (p.below k + 1 : Nat) * tenPow k := by
  rw [below_eq, ← le_div_iff₀ (tenPow_pos k), ← div_lt_iff₀ (tenPow_pos k)]
  refine ⟨Nat.floor_le (div_nonneg p.toRat_nonneg (tenPow_pos k).le), ?_⟩
  push_cast
  exact Nat.lt_floor_add_one _

/-- Every point of a grid is a neighbour of the number, or beyond one. -/
theorem beyond_neighbour (p : BinaryParts) (k : Int) (n : Nat) :
    n * tenPow k ≤ p.below k * tenPow k ∨ (p.below k + 1 : Nat) * tenPow k ≤ n * tenPow k := by
  obtain h | h := Nat.lt_or_ge (p.below k) n
  · exact .inr (mul_le_mul_of_nonneg_right (Nat.cast_le.mpr h) (tenPow_pos k).le)
  · exact .inl (mul_le_mul_of_nonneg_right (Nat.cast_le.mpr h) (tenPow_pos k).le)

/-- If no point of a grid is chosen, none is read back. -/
theorem not_readsBack_of_onGrid?_eq_none {k : Int} (h : p.onGrid? k = none) (n : Nat) :
    p.readsBack (n * tenPow k) = false := by
  obtain ⟨hbelow, habove⟩ := p.between_neighbours k
  have hfits : p.readsBack (p.below k * tenPow k) = false ∧
      p.readsBack ((p.below k + 1 : Nat) * tenPow k) = false := by
    rw [onGrid?_eq] at h
    split at h <;> cases h
    next hfirst hsecond => exact ⟨hfirst, hsecond⟩
  by_contra hreads
  rw [Bool.not_eq_false] at hreads
  obtain hle | hle := p.beyond_neighbour k n
  · rw [readsBack_of_between hreads (.inl ⟨hle, hbelow⟩)] at hfits
    exact absurd hfits.1 (by decide)
  · rw [readsBack_of_between hreads (.inr ⟨habove.le, hle⟩)] at hfits
    exact absurd hfits.2 (by decide)

/-- A grid that is finer than the interval is wide has a point in it. -/
theorem exists_onGrid? {k : Int} (h : tenPow k < p.lowerGap + p.upperGap) :
    ∃ c, p.onGrid? k = some c := by
  by_contra hnone
  have hnone : p.onGrid? k = none := Option.eq_none_iff_forall_ne_some.mpr fun c hc =>
    hnone ⟨c, hc⟩
  obtain ⟨hbelow, habove⟩ := p.between_neighbours k
  have hlower := lowerGap_le_of_not_readsBack (not_readsBack_of_onGrid?_eq_none hnone _) hbelow
  have hupper := upperGap_le_of_not_readsBack (not_readsBack_of_onGrid?_eq_none hnone _) habove.le
  push_cast at hupper
  linarith

/-- **The point of a grid that is chosen** is one of the neighbours; it is read back, and no other
point that is read back is nearer. -/
theorem onGrid?_eq_some {k : Int} {c : Nat} (h : p.onGrid? k = some c) :
    p.readsBack (c * tenPow k) = true ∧ c ≤ p.below k + 1 ∧
      ∀ n : Nat, p.readsBack (n * tenPow k) = true →
        |c * tenPow k - p.toRat| ≤ |n * tenPow k - p.toRat| := by
  obtain ⟨hbelow, habove⟩ := p.between_neighbours k
  have hpos := tenPow_pos k
  -- what is read back on one side only is nearest there
  have hside : ∀ n : Nat, p.readsBack (n * tenPow k) = true →
      (p.readsBack ((p.below k + 1 : Nat) * tenPow k) = false →
        n * tenPow k ≤ p.below k * tenPow k) ∧
      (p.readsBack (p.below k * tenPow k) = false →
        (p.below k + 1 : Nat) * tenPow k ≤ n * tenPow k) := by
    intro n hn
    obtain hle | hle := p.beyond_neighbour k n
    · refine ⟨fun _ => hle, fun hno => ?_⟩
      rw [readsBack_of_between hn (.inl ⟨hle, hbelow⟩)] at hno
      cases hno
    · refine ⟨fun hno => ?_, fun _ => hle⟩
      rw [readsBack_of_between hn (.inr ⟨habove.le, hle⟩)] at hno
      cases hno
  rw [onGrid?_eq] at h
  split at h
  · next hfirst hsecond =>
    cases h
    refine ⟨hfirst, Nat.le_succ _, fun n hn => ?_⟩
    have hle := (hside n hn).1 hsecond
    rw [abs_of_nonpos (sub_nonpos.mpr hbelow), abs_of_nonpos (sub_nonpos.mpr (hle.trans hbelow))]
    linarith
  · next hfirst hsecond =>
    cases h
    refine ⟨hsecond, le_rfl, fun n hn => ?_⟩
    have hle := (hside n hn).2 hfirst
    rw [abs_of_nonneg (sub_nonneg.mpr habove.le),
      abs_of_nonneg (sub_nonneg.mpr (habove.le.trans hle))]
    linarith
  · next hfirst hsecond =>
    cases h
    obtain ⟨hcast, hneighbour⟩ := p.natCast_nearestInt k
    refine ⟨?_, by omega, fun n _ => ?_⟩
    · obtain heq | heq := hneighbour <;> rw [heq]
      · exact hfirst
      · exact hsecond
    · have hscale : ∀ m : Rat, |m * tenPow k - p.toRat| =
          |m - p.toRat / tenPow k| * tenPow k := by
        intro m
        rw [← abs_of_pos hpos, ← abs_mul, abs_of_pos hpos, sub_mul, div_mul_cancel₀ _ hpos.ne']
      have hnearest := abs_nearestInt_sub_le (p.toRat / tenPow k) n
      rw [← hcast] at hnearest
      rw [hscale, hscale]
      exact mul_le_mul_of_nonneg_right (by exact_mod_cast hnearest) hpos.le
  · cases h

/-! ### The search -/

/-- What a search finds: the chosen point of the first grid that has one, without trailing zeros. -/
theorem search_eq_some {scale : Int} {tries n : Nat} {d : Decimal}
    (h : p.search scale tries n = some d) :
    ∃ j c, n ≤ j ∧ j < n + tries ∧ p.onGrid? (scale - j) = some c ∧
      d = Decimal.normalize ⟨false, c, scale - j⟩ ∧
      ∀ i : Nat, n ≤ i → i < j → p.onGrid? (scale - i) = none := by
  induction tries generalizing n with
  | zero => cases h
  | succ tries ih =>
    rw [search] at h
    split at h
    · next c hc =>
      cases h
      exact ⟨n, c, le_rfl, by omega, hc, rfl, fun i hle hlt => absurd hlt (by omega)⟩
    · next hnone =>
      obtain ⟨j, c, hle, hlt, hc, hd, hbefore⟩ := ih h
      refine ⟨j, c, by omega, by omega, hc, hd, fun i hi hij => ?_⟩
      obtain rfl | hi := Nat.eq_or_lt_of_le hi
      · exact hnone
      · exact hbefore i hi hij

/-- A search finds something if one of its grids has a point. -/
theorem exists_search {scale : Int} {tries n j c : Nat} (hle : n ≤ j) (hlt : j < n + tries)
    (h : p.onGrid? (scale - j) = some c) : ∃ d, p.search scale tries n = some d := by
  induction tries generalizing n with
  | zero => omega
  | succ tries ih =>
    rw [search]
    split
    · exact ⟨_, rfl⟩
    · next hnone =>
      refine ih (Nat.lt_of_le_of_ne hle ?_) (by omega)
      rintro rfl
      rw [hnone] at h
      cases h

/-- **The grid with seventeen digits is fine enough** for every number with 53 bits. -/
theorem tenPow_lt_gaps (hp : p.IsCanonical) {k : Int} (hscale : tenPow (k - 1) ≤ p.toRat) :
    tenPow (k - 17) < p.lowerGap + p.upperGap := by
  have hpow : (0 : Rat) < 2 ^ p.exponent := zpow_pos two_pos _
  have hgrid : tenPow (k - 17) = tenPow (k - 1) / 10 ^ 16 := by
    rw [show k - 17 = k - 1 + -16 by ring, tenPow_add, tenPow_neg, div_eq_mul_inv]
    rfl
  have hfits : p.toRat < 2 ^ 53 * 2 ^ p.exponent :=
    mul_lt_mul_of_pos_right (by exact_mod_cast hp.fits) hpow
  rw [hgrid, lowerGap_eq, upperGap_eq]
  split
  · next hnarrow =>
    have hleast : p.toRat = 2 ^ 52 * 2 ^ p.exponent := by
      have heq : p.significand = 2 ^ 52 := by
        simp only [isNarrow, Bool.and_eq_true, beq_iff_eq] at hnarrow
        exact hnarrow.1
      rw [toRat, heq]
      push_cast
      rfl
    rw [hleast] at hscale
    linarith
  · linarith

/-! ### Shortest decimals -/

/-- **The shortest decimal of a number**: it is read back, no decimal with fewer digits is, and none
with as few digits is nearer. -/
structure IsShortest (p : BinaryParts) (d : Decimal) : Prop where
  readsBack : p.readsBack d.magnitude = true
  fewest : ∀ d' : Decimal, (digits d'.coefficient).length < (digits d.coefficient).length →
    p.readsBack d'.magnitude = false
  nearest : ∀ d' : Decimal, (digits d'.coefficient).length ≤ (digits d.coefficient).length →
    p.readsBack d'.magnitude = true → |d.magnitude - p.toRat| ≤ |d'.magnitude - p.toRat|

/-- A decimal of few digits that is read back lies on the grid of so many digits, or has the power
of ten below the number between itself and the number. -/
theorem exists_onGrid_of_readsBack {k : Int} {n : Nat} (hn : 0 < n)
    (hscale : tenPow (k - 1) ≤ p.toRat) {d : Decimal} (hlength : (digits d.coefficient).length ≤ n)
    (h : p.readsBack d.magnitude = true) :
    ∃ m : Nat, p.readsBack (m * tenPow (k - n)) = true ∧
      |m * tenPow (k - n) - p.toRat| ≤ |d.magnitude - p.toRat| := by
  obtain hsmall | hlarge := lt_or_ge d.magnitude (tenPow (k - 1))
  · have hpower : ((10 ^ (n - 1) : Nat) : Rat) * tenPow (k - n) = tenPow (k - 1) := by
      rw [← tenPow_natCast, ← tenPow_add]
      congr 1
      omega
    refine ⟨10 ^ (n - 1), ?_, ?_⟩ <;> rw [hpower]
    · exact readsBack_of_between h (.inl ⟨hsmall.le, hscale⟩)
    · rw [abs_of_nonpos (sub_nonpos.mpr hscale),
        abs_of_nonpos (sub_nonpos.mpr (hsmall.le.trans hscale))]
      linarith
  · have hcoefficient : d.coefficient < 10 ^ n :=
      (Nat.length_toDigits_le_iff (by decide) hn).mp hlength
    have hbound : tenPow (k - 1) < tenPow (n + d.exponent) := by
      refine hlarge.trans_lt ?_
      rw [tenPow_add, tenPow_natCast]
      exact mul_lt_mul_of_pos_right (Nat.cast_lt.mpr hcoefficient) (tenPow_pos _)
    have hexponent : k - 1 < n + d.exponent := (zpow_lt_zpow_iff_right₀ (by norm_num)).mp hbound
    have hpoint : ((d.coefficient * 10 ^ (d.exponent - (k - n)).toNat : Nat) : Rat) *
        tenPow (k - n) = d.magnitude := by
      rw [Nat.cast_mul, ← tenPow_natCast, mul_assoc, ← tenPow_add,
        Int.toNat_of_nonneg (by omega), sub_add_cancel]
      rfl
    refine ⟨d.coefficient * 10 ^ (d.exponent - (k - n)).toNat, ?_, ?_⟩ <;> rw [hpoint]
    exact h

/-- The point that is chosen on a grid has no more digits than the grid allows. -/
theorem length_digits_normalize_le {k : Int} {j c : Nat} (hj : 0 < j)
    (hscale : p.toRat < tenPow k) (hc : c ≤ p.below (k - j) + 1) :
    (digits (Decimal.normalize ⟨false, c, k - j⟩).coefficient).length ≤ j := by
  have hbelow : p.below (k - j) < 10 ^ j := by
    have hlt := (p.between_neighbours (k - j)).1.trans_lt hscale
    rw [show tenPow k = ((10 ^ j : Nat) : Rat) * tenPow (k - j) by
      rw [← tenPow_natCast, ← tenPow_add, add_sub_cancel]] at hlt
    exact_mod_cast lt_of_mul_lt_mul_right hlt (tenPow_pos _).le
  have hle := Decimal.coefficient_normalize_le ⟨false, c, k - j⟩
  refine (Nat.length_toDigits_le_iff (by decide) hj).mpr (lt_of_le_of_ne (by simp at hle; omega) ?_)
  -- a power of ten would have trailing zeros
  intro heq
  have hne : c ≠ 0 := by
    rintro rfl
    have hpos := Nat.pow_pos (n := j) (show 0 < 10 by decide)
    simp at hle
    omega
  refine Decimal.coefficient_normalize_mod (d := ⟨false, c, k - j⟩) hne ?_
  rw [heq]
  exact Nat.mod_eq_zero_of_dvd (dvd_pow_self 10 hj.ne')

/-- **Every number is written with its shortest decimal**, which has at most seventeen digits. -/
theorem isShortest_shortest (hp : p.IsCanonical) :
    p.IsShortest p.shortest ∧ (digits p.shortest.coefficient).length ≤ 17 := by
  unfold shortest
  split
  · next hzero =>
    have hvalue : p.toRat = 0 := by rw [toRat, hzero, Nat.cast_zero, zero_mul]
    have hdecimal : (⟨false, 0, 0⟩ : Decimal).magnitude = p.toRat := by
      rw [hvalue, magnitude, Nat.cast_zero, zero_mul]
    refine ⟨⟨?_, fun d hlt => ?_, fun d _ _ => ?_⟩, by decide⟩
    · have hlow := p.lowerGap_pos
      have hhigh := p.upperGap_pos
      rw [hdecimal]
      unfold BinaryParts.readsBack
      split <;> simp <;> constructor <;> linarith
    · have hpos : 0 < (digits d.coefficient).length := Nat.length_toDigits_pos
      exact absurd hlt (not_lt.mpr hpos)
    · rw [hdecimal, sub_self, abs_zero]
      exact abs_nonneg _
  · next hne =>
    obtain ⟨hscale, hscale'⟩ := decimalScale_spec (toRat_pos (Nat.pos_of_ne_zero hne) p.exponent)
    change tenPow (decimalScale p.toRat - 1) ≤ p.toRat at hscale
    change p.toRat < tenPow (decimalScale p.toRat) at hscale'
    generalize decimalScale p.toRat = k at hscale hscale' ⊢
    obtain ⟨c, hc⟩ := exists_onGrid? (tenPow_lt_gaps hp hscale)
    obtain ⟨d, hd⟩ : ∃ d, p.search k 17 1 = some d :=
      exists_search (j := 17) (by decide) (by decide) hc
    rw [hd, Option.getD_some]
    obtain ⟨j, c, hj, hlast, hc, rfl, hbefore⟩ := search_eq_some hd
    obtain ⟨hreads, hneighbour, hnearest⟩ := onGrid?_eq_some hc
    have hlength := length_digits_normalize_le hj hscale' hneighbour
    have hmagnitude : (Decimal.normalize ⟨false, c, k - j⟩).magnitude = c * tenPow (k - j) :=
      Decimal.magnitude_normalize _
    refine ⟨⟨?_, fun d hlt => ?_, fun d hle hd => ?_⟩, by omega⟩
    · rw [hmagnitude]
      exact hreads
    · -- a decimal with fewer digits would have been found on an earlier grid
      have hpos : 0 < (digits d.coefficient).length := Nat.length_toDigits_pos
      by_contra hd
      rw [Bool.not_eq_false] at hd
      obtain ⟨m, hm, -⟩ := exists_onGrid_of_readsBack hpos hscale le_rfl hd
      rw [not_readsBack_of_onGrid?_eq_none (hbefore _ hpos (hlt.trans_le hlength))] at hm
      cases hm
    · obtain ⟨m, hm, hle⟩ := exists_onGrid_of_readsBack hj hscale (hle.trans hlength) hd
      rw [hmagnitude]
      exact (hnearest m hm).trans hle

end BinaryParts

/-! ### Texts -/

/-- The exact value of a finite number. -/
theorem exactValue_of_finite {x : Float} {negative : Bool} {p : BinaryParts}
    (h : FloatForm.ofFloat x = .finite negative p) : exactValue x = .ok (p.signed negative) := by
  rw [exactValue, h]
  rfl

/-- The parts of a finite number are canonical. -/
theorem exists_finite {x : Float} (h : x.isFinite = true) :
    ∃ negative p, FloatForm.ofFloat x = .finite negative p ∧ p.IsCanonical := by
  have hcanonical : IsCanonical x.toModel.unpack := isCanonical_unpack _
  have hfinite : x.toModel.unpack.isFinite = true := h
  rw [FloatForm.ofFloat_eq_ofUnpacked]
  cases hx : x.toModel.unpack with
  | notANumber => simp [hx, Float.Model.UnpackedFloat.isFinite] at hfinite
  | infinity s => simp [hx, Float.Model.UnpackedFloat.isFinite] at hfinite
  | zero s => exact ⟨_, _, rfl, le_rfl, by decide, fun hne => absurd rfl hne⟩
  | finite s m e hm =>
    rw [hx] at hcanonical
    exact ⟨_, _, rfl, hcanonical⟩

/-- A whole number is spelled with all its digits. -/
theorem toRat_of_whole {p : BinaryParts} (h : p.toRat.den = 1) (negative : Bool) :
    (⟨negative, p.toRat.num.natAbs, 0⟩ : Decimal).toRat = p.signed negative := by
  have hnum : ((p.toRat.num.natAbs : Int) : Rat) = p.toRat := by
    rw [Int.natAbs_of_nonneg (Rat.num_nonneg.mpr p.toRat_nonneg), Rat.coe_int_num_of_den_eq_one h]
  rw [Decimal.toRat_eq, magnitude, zpow_zero, mul_one, BinaryParts.signed]
  dsimp only
  rw [← Int.cast_natCast, hnum]

/-- **The texts of a finite number are plain numerals and exact.** The number has a shortest
decimal, of at most seventeen digits. As a time it is spelled as a thousandth of that decimal; as a
number it is spelled as that decimal, or as its own exact value if it is whole. -/
theorem finite_number_is_spelled {x : Float} (h : x.isFinite = true) :
    ∃ negative p d, FloatForm.ofFloat x = .finite negative p ∧
      exactValue x = .ok (p.signed negative) ∧
      shortest x = .finite d ∧ d.negative = negative ∧ p.IsShortest d ∧
      (digits d.coefficient).length ≤ 17 ∧
      Spells (secondsText x) (d.toRat / 1000) ∧
      Spells (numberText x) (if (p.signed negative).den = 1 then p.signed negative else d.toRat) := by
  obtain ⟨negative, p, hform, hcanonical⟩ := exists_finite h
  obtain ⟨⟨hreads, hfewest, hnearest⟩, hlength⟩ := BinaryParts.isShortest_shortest hcanonical
  have hshortest : shortest x = .finite { p.shortest with negative } := by rw [shortest, hform]
  have hden : (p.signed negative).den = p.toRat.den := by
    unfold BinaryParts.signed
    split
    · exact Rat.neg_den _
    · rfl
  refine ⟨negative, p, { p.shortest with negative }, hform, exactValue_of_finite hform, hshortest,
    rfl, ⟨hreads, hfewest, hnearest⟩, hlength, ?_, ?_⟩
  · rw [secondsText, hshortest]
    exact spells_thousandth (hlength.trans (by decide))
  · rw [numberText, hform, hden]
    dsimp only
    split
    · next hwhole =>
      rw [← toRat_of_whole hwhole]
      exact Decimal.spells_plainText _
    · exact Decimal.spells_plainText _

/-- A frame at thirty frames a second is spelled to the last digit. -/
theorem frame_time_is_spelled :
    (33.3 : Float).isFinite = true ∧ Spells (secondsText 33.3) (333 / 10000) ∧
      Spells (numberText 33.3) (333 / 10) := by
  have hfinite : (33.3 : Float).isFinite = true := by decide +kernel
  obtain ⟨negative, p, d, -, hvalue, hd, -, -, -, hseconds, hnumber⟩ :=
    finite_number_is_spelled hfinite
  have hshortest : shortest 33.3 = .finite ⟨false, 333, -1⟩ := by decide +kernel
  obtain rfl : ⟨false, 333, -1⟩ = d := by simpa [hshortest] using hd
  have hrat : Decimal.toRat ⟨false, 333, -1⟩ = 333 / 10 := by norm_num [Decimal.toRat]
  have hden : ((exactValue 33.3).map Rat.den).toOption ≠ some 1 := by decide +kernel
  have hwhole : (p.signed negative).den ≠ 1 := fun heq => by
    rw [hvalue] at hden
    exact hden (congrArg some heq)
  rw [hrat] at hseconds hnumber
  rw [if_neg hwhole] at hnumber
  refine ⟨hfinite, ?_, hnumber⟩
  norm_num at hseconds
  exact hseconds

end TimelineExport
