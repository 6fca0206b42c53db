import TimelineExport.Audio.Tempo
import TimelineExport.Proofs.Number.Rational

/-!
# Tempo stages over the rationals

Each stage halves or doubles what is left of a speed. So a speed of at most `2 ^ (k + 1)` takes at
most `k` stages of two, and one of at least `1 / 2 ^ (k + 1)` at most `k` stages of a half. No
speed takes both kinds. The speeds that validation lets pass therefore take at most four stages,
the remainder included (`tempoStages_of_supported`).
-/

namespace TimelineExport

/-- A speed takes few stages of two. -/
theorem length_fastStages_le {fuel k : Nat} {speed : Rat} (h : speed ≤ 2 ^ (k + 1)) :
    (fastStages fuel speed).1.length ≤ k := by
  induction fuel generalizing k speed with
  | zero => exact Nat.zero_le _
  | succ fuel ih =>
    rw [fastStages]
    split
    · next hfast =>
      rw [Scalar.ofNat_rat] at hfast
      cases k with
      | zero =>
        norm_num at h hfast
        linarith
      | succ k =>
        have hhalf : speed / (2 : Nat) ≤ 2 ^ (k + 1) := by
          rw [pow_succ] at h
          push_cast
          linarith
        rw [Scalar.ofNat_rat]
        exact Nat.succ_le_succ (ih hhalf)
    · exact Nat.zero_le _

/-- What is left after stages of two is above one, if the speed is. -/
theorem one_lt_fastStages (fuel : Nat) {speed : Rat} (h : 1 < speed) :
    1 < (fastStages fuel speed).2 := by
  induction fuel generalizing speed with
  | zero => exact h
  | succ fuel ih =>
    rw [fastStages]
    split
    · next hfast =>
      rw [Scalar.ofNat_rat] at hfast
      refine ih ?_
      rw [Scalar.ofNat_rat]
      push_cast at hfast ⊢
      linarith
    · exact h

/-- A speed of at most two takes no stages of two. -/
theorem fastStages_of_le {fuel : Nat} {speed : Rat} (h : speed ≤ 2) :
    fastStages fuel speed = ([], speed) := by
  cases fuel with
  | zero => rfl
  | succ fuel =>
    rw [fastStages, if_neg]
    rw [Scalar.ofNat_rat]
    push_cast
    exact not_lt.mpr h

/-- A speed takes few stages of a half. -/
theorem length_slowStages_le {fuel k : Nat} {speed : Rat} (h : 1 ≤ speed * 2 ^ (k + 1)) :
    (slowStages fuel speed).1.length ≤ k := by
  induction fuel generalizing k speed with
  | zero => exact Nat.zero_le _
  | succ fuel ih =>
    rw [slowStages]
    split
    · next hslow =>
      norm_num at hslow
      cases k with
      | zero =>
        norm_num at h
        linarith
      | succ k =>
        have hdouble : 1 ≤ speed / 0.5 * 2 ^ (k + 1) := by
          rw [pow_succ] at h
          norm_num
          linarith
        exact Nat.succ_le_succ (ih hdouble)
    · exact Nat.zero_le _

/-- A speed of at least a half takes no stages of a half. -/
theorem slowStages_of_le {fuel : Nat} {speed : Rat} (h : 1 / 2 ≤ speed) :
    slowStages fuel speed = ([], speed) := by
  cases fuel with
  | zero => rfl
  | succ fuel =>
    rw [slowStages, if_neg]
    norm_num
    linarith

/-- No speed takes stages of both kinds, and a supported one takes at most three. -/
theorem length_stages_le (fuel : Nat) {speed : Rat} (hslow : 1 / 16 ≤ speed)
    (hfast : speed ≤ 16) :
    (fastStages fuel speed).1.length +
      (slowStages fuel (fastStages fuel speed).2).1.length ≤ 3 := by
  -- slow speeds take no stages of two; fast ones leave more than one, which takes none of a half
  by_cases hone : speed ≤ 1
  · rw [fastStages_of_le (hone.trans one_le_two), List.length_nil, Nat.zero_add]
    refine length_slowStages_le ?_
    norm_num
    linarith
  · have hrest := one_lt_fastStages fuel (not_le.mp hone)
    rw [slowStages_of_le (by linarith), List.length_nil, Nat.add_zero]
    refine length_fastStages_le ?_
    norm_num
    exact hfast

/-- **A supported speed can be split** into stages. -/
theorem tempoStages_of_supported {speed : Rat} (hslow : minSpeed ≤ speed)
    (hfast : speed ≤ maxSpeed) : ∃ stages, tempoStages speed = .ok stages := by
  rw [minSpeed_rat] at hslow
  rw [maxSpeed_rat] at hfast
  unfold tempoStages
  have hpos : ¬ speed ≤ ((0 : Nat) : Rat) := by
    push_cast
    linarith
  rw [Scalar.ofNat_rat, if_neg hpos]
  have hstages := length_stages_le (Scalar.halvings speed) hslow hfast
  refine ⟨_, if_neg ?_⟩
  simp only [List.length_append, maxTempoStages]
  split
  · rw [List.length_singleton]
    omega
  · rw [List.length_nil]
    omega

end TimelineExport
