import Mathlib
import TimelineExport.Number.Scalar

/-!
# The nearest integer

The nearest integer of a rational is one of the two around it, and no other one is nearer
(`abs_nearestInt_sub_le`). To round keeps the order (`nearestInt_mono`) and the sign
(`nearestInt_neg`), and it leaves integers alone; so what lies between two bounds with so many
decimal places is rounded to a value between them (`rounded_mem_Icc`).
-/

namespace TimelineExport

variable {q r : Rat}

theorem floor_eq_of_le_of_lt {n : Int} (h : n ≤ q) (h' : q < n + 1) : q.floor = n :=
  Int.floor_eq_iff.mpr ⟨h, h'⟩

/-- The nearest integer of a rational whose integer part is known. -/
theorem nearestInt_eq_of_floor {n : Int} (h : q.floor = n) :
    nearestInt q = if q - n < 1 / 2 then n else if 1 / 2 < q - n then n + 1
      else if n % 2 = 0 then n else n + 1 := by
  unfold nearestInt
  rw [h]

theorem nearestInt_eq_or (q : Rat) : nearestInt q = q.floor ∨ nearestInt q = q.floor + 1 := by
  rw [nearestInt_eq_of_floor (q := q) rfl]
  split_ifs
  · exact .inl rfl
  · exact .inr rfl
  · exact .inl rfl
  · exact .inr rfl

theorem nearestInt_intCast (n : Int) : nearestInt n = n := by
  rw [nearestInt_eq_of_floor (Rat.floor_intCast n), sub_self, if_pos (by norm_num)]

/-- **No integer is nearer** to a rational than the nearest one. -/
theorem abs_nearestInt_sub_le (q : Rat) (m : Int) :
    |(nearestInt q : Rat) - q| ≤ |(m : Rat) - q| := by
  have hfloor : (q.floor : Rat) ≤ q := Rat.floor_le q
  have hceil : q < q.floor + 1 := by exact_mod_cast Rat.lt_floor_add_one q
  -- every other integer is as far as one of the two neighbours
  have hside : (m : Rat) ≤ q.floor ∨ (q.floor + 1 : Rat) ≤ m := by
    obtain h | h := lt_or_ge q.floor m
    · exact .inr (by exact_mod_cast h)
    · exact .inl (by exact_mod_cast h)
  have hcases : (nearestInt q = q.floor ∧ q - q.floor ≤ 1 / 2) ∨
      (nearestInt q = q.floor + 1 ∧ 1 / 2 ≤ q - q.floor) := by
    rw [nearestInt_eq_of_floor (q := q) rfl]
    split_ifs with hbelow habove
    · exact .inl ⟨rfl, hbelow.le⟩
    · exact .inr ⟨rfl, habove.le⟩
    · exact .inl ⟨rfl, not_lt.mp habove⟩
    · exact .inr ⟨rfl, not_lt.mp hbelow⟩
  obtain ⟨heq, hhalf⟩ | ⟨heq, hhalf⟩ := hcases <;> rw [heq] <;> push_cast
  · rw [abs_of_nonpos (by linarith)]
    obtain h | h := hside
    · rw [abs_of_nonpos (by linarith)]
      linarith
    · rw [abs_of_nonneg (by linarith)]
      linarith
  · rw [abs_of_nonneg (by linarith)]
    obtain h | h := hside
    · rw [abs_of_nonpos (by linarith)]
      linarith
    · rw [abs_of_nonneg (by linarith)]
      linarith

/-- Of two rationals the larger one has the larger nearest integer. -/
theorem nearestInt_mono (h : q ≤ r) : nearestInt q ≤ nearestInt r := by
  have hfloors : q.floor ≤ r.floor := Int.floor_mono h
  rw [nearestInt_eq_of_floor (q := q) rfl, nearestInt_eq_of_floor (q := r) rfl]
  obtain hlt | heq := hfloors.lt_or_eq
  · split_ifs <;> omega
  -- between the same two integers, what is above the half stays above it
  · rw [heq]
    split_ifs <;> first | omega | linarith

theorem nearestInt_nonneg (hq : 0 ≤ q) : 0 ≤ nearestInt q := by
  have h := nearestInt_mono (q := ((0 : Int) : Rat)) (by exact_mod_cast hq)
  rwa [nearestInt_intCast] at h

/-- Rounding to an integer is the same on both sides of zero. -/
theorem nearestInt_neg (q : Rat) : nearestInt (-q) = -nearestInt q := by
  have hfloor : (q.floor : Rat) ≤ q := Rat.floor_le q
  have hceil : q < q.floor + 1 := by exact_mod_cast Rat.lt_floor_add_one q
  obtain heq | hlt := hfloor.eq_or_lt
  · rw [← heq, ← Int.cast_neg, nearestInt_intCast, nearestInt_intCast]
  · have hneg : (-q).floor = -q.floor - 1 :=
      floor_eq_of_le_of_lt (by push_cast; linarith) (by push_cast; linarith)
    rw [nearestInt_eq_of_floor hneg, nearestInt_eq_of_floor (q := q) rfl]
    push_cast
    split_ifs <;> first | omega | linarith

/-- **Rounding stays between bounds** that have no more decimal places themselves. -/
theorem rounded_mem_Icc (places : Nat) (m n : Int) {lower upper q : Rat}
    (hm : lower * 10 ^ places = m) (hn : upper * 10 ^ places = n) (h : q ∈ Set.Icc lower upper) :
    Scalar.rounded places q ∈ Set.Icc lower upper := by
  have hpow : (0 : Rat) < 10 ^ places := by positivity
  have hlower := nearestInt_mono (mul_le_mul_of_nonneg_right h.1 hpow.le)
  have hupper := nearestInt_mono (mul_le_mul_of_nonneg_right h.2 hpow.le)
  rw [hm, nearestInt_intCast] at hlower
  rw [hn, nearestInt_intCast] at hupper
  refine ⟨(le_div_iff₀ hpow).mpr ?_, (div_le_iff₀ hpow).mpr ?_⟩
  · rw [hm]
    exact_mod_cast hlower
  · rw [hn]
    exact_mod_cast hupper

end TimelineExport
