import Mathlib.Algebra.Order.Ring.Abs
import Mathlib.Tactic.Positivity
import TimelineExport.Proofs.Audio.Tempo
import TimelineExport.Proofs.Outcome

/-!
# What the tempo loops compute

`tempoStages` gives its two loops a number of rounds. Here the loops stand as they are meant, with
no such number: `TakesOff` relates the speed before a loop to the stages that the loop takes off
and to the speed that is left when its test fails, and `TempoRun` puts the two loops, the test of
the remainder and the limit of stages together. A speed has a run exactly if the loops end.

Every speed has one run, and `tempoStages` gives its outcome, so the rounds are always enough
(`tempoRun_iff`). What a run gives back are at most four stages that can be played and that
multiply to the speed but for a billionth (`IsTempoSplit`), and a speed between a sixteenth and
sixteen always gives it (`tempoStages_splits`).
-/

namespace TimelineExport

/-! ### Loops that take stages off a speed -/

/-- **The runs of a loop** that takes a stage off a speed as long as the speed passes a test: the
speed before, the stages that are taken off, and the speed that is left. -/
inductive TakesOff (goesOn : Rat → Prop) (stage : Rat) : Rat → List Rat → Rat → Prop
  | stop {speed : Rat} (h : ¬ goesOn speed) : TakesOff goesOn stage speed [] speed
  | round {speed rest : Rat} {stages : List Rat} (h : goesOn speed)
      (hrest : TakesOff goesOn stage (speed / stage) stages rest) :
      TakesOff goesOn stage speed (stage :: stages) rest

namespace TakesOff

variable {goesOn : Rat → Prop} {stage speed rest rest' : Rat} {stages stages' : List Rat}

/-- A loop has one run at most. -/
theorem unique (h : TakesOff goesOn stage speed stages rest)
    (h' : TakesOff goesOn stage speed stages' rest') : stages = stages' ∧ rest = rest' := by
  induction h generalizing stages' rest' with
  | stop hstop =>
    cases h' with
    | stop _ => exact ⟨rfl, rfl⟩
    | round hgoes _ => exact absurd hgoes hstop
  | round hgoes _ ih =>
    cases h' with
    | stop hstop => exact absurd hgoes hstop
    | round _ hrest' =>
      obtain ⟨rfl, rfl⟩ := ih hrest'
      exact ⟨rfl, rfl⟩

/-- What is left fails the test. -/
theorem not_goesOn (h : TakesOff goesOn stage speed stages rest) : ¬ goesOn rest := by
  induction h with
  | stop hstop => exact hstop
  | round _ _ ih => exact ih

/-- **What one round keeps, the loop keeps.** -/
theorem keeps {P : Rat → Prop} (h : TakesOff goesOn stage speed stages rest) (hspeed : P speed)
    (hround : ∀ x, goesOn x → P x → P (x / stage)) : P rest := by
  induction h with
  | stop _ => exact hspeed
  | round hgoes _ ih => exact ih (hround _ hgoes hspeed)

/-- All stages are the same. -/
theorem eq_of_mem (h : TakesOff goesOn stage speed stages rest) {x : Rat} (hx : x ∈ stages) :
    x = stage := by
  induction h with
  | stop _ => exact absurd hx List.not_mem_nil
  | round _ _ ih =>
    obtain rfl | hx := List.mem_cons.mp hx
    · rfl
    · exact ih hx

/-- **Nothing gets lost**: the stages and what is left multiply to the speed. -/
theorem prod_mul (h : TakesOff goesOn stage speed stages rest) (hstage : stage ≠ 0) :
    stages.prod * rest = speed := by
  induction h with
  | stop _ => rw [List.prod_nil, one_mul]
  | round _ _ ih => rw [List.prod_cons, mul_assoc, ih, mul_div_cancel₀ _ hstage]

end TakesOff

/-- The rounds for stages of two are enough for a speed that so many halvings bring to two. -/
theorem takesOff_fastStages {fuel : Nat} {speed : Rat} (h : speed ≤ 2 ^ (fuel + 1)) :
    TakesOff (2 < ·) 2 speed (fastStages fuel speed).1 (fastStages fuel speed).2 := by
  induction fuel generalizing speed with
  | zero =>
    norm_num at h
    exact .stop (not_lt.mpr h)
  | succ fuel ih =>
    have htwo : (@OfNat.ofNat Rat 2 Scalar.instOfNat) = 2 := Scalar.ofNat_rat 2
    rw [fastStages, htwo]
    split
    · next hfast =>
      have hhalf : speed / 2 ≤ 2 ^ (fuel + 1) := by
        rw [pow_succ] at h
        linarith
      exact .round hfast (ih hhalf)
    · next hslow => exact .stop hslow

/-- The rounds for stages of a half are enough for a speed that so many doublings bring to a
half. -/
theorem takesOff_slowStages {fuel : Nat} {speed : Rat} (h : 1 ≤ speed * 2 ^ (fuel + 1)) :
    TakesOff (· < 1 / 2) (1 / 2) speed (slowStages fuel speed).1 (slowStages fuel speed).2 := by
  have hhalf : (0.5 : Rat) = 1 / 2 := by norm_num
  induction fuel generalizing speed with
  | zero =>
    refine .stop (not_lt.mpr ?_)
    norm_num at h
    linarith
  | succ fuel ih =>
    rw [slowStages, hhalf]
    split
    · next hslow =>
      have hdouble : 1 ≤ speed / (1 / 2) * 2 ^ (fuel + 1) := by
        rw [pow_succ] at h
        norm_num
        linarith
      exact .round hslow (ih hdouble)
    · next hfast => exact .stop hfast

/-! ### Enough rounds -/

/-- A positive speed is at most its numerator, so as many halvings bring it to one. -/
theorem le_two_pow_halvings {speed : Rat} (h : 0 < speed) :
    speed ≤ 2 ^ Scalar.halvings speed := by
  have hden : (1 : Rat) ≤ speed.den := by
    exact_mod_cast speed.den_pos
  have hnum : speed.num ≤ 2 ^ (speed.num.natAbs + speed.den) := by
    have hle : speed.num.natAbs ≤ 2 ^ (speed.num.natAbs + speed.den) :=
      (Nat.le_add_right _ _).trans Nat.lt_two_pow_self.le
    exact Int.le_natAbs.trans (by exact_mod_cast hle)
  calc
    speed ≤ speed * speed.den := le_mul_of_one_le_right h.le hden
    _ = speed.num := Rat.mul_den_eq_num speed
    _ ≤ 2 ^ Scalar.halvings speed := by exact_mod_cast hnum

/-- A positive speed is at least one part of its denominator, so as many doublings bring it to
one. -/
theorem one_le_mul_two_pow_halvings {speed : Rat} (h : 0 < speed) :
    1 ≤ speed * 2 ^ Scalar.halvings speed := by
  have hden : (speed.den : Rat) ≤ 2 ^ Scalar.halvings speed := by
    have hle : speed.den ≤ 2 ^ (speed.num.natAbs + speed.den) :=
      (Nat.le_add_left _ _).trans Nat.lt_two_pow_self.le
    exact_mod_cast hle
  have hnum : (1 : Rat) ≤ speed.num := by
    exact_mod_cast Rat.num_pos.mpr h
  calc
    1 ≤ (speed.num : Rat) := hnum
    _ = speed * speed.den := (Rat.mul_den_eq_num speed).symm
    _ ≤ speed * 2 ^ Scalar.halvings speed := mul_le_mul_of_nonneg_left hden h.le

/-- After the stages of two, so many doublings bring what is left to one: a speed above one leaves
more than one, and any other speed is left as it is. -/
theorem one_le_fastStages_mul {speed : Rat} (h : 0 < speed) :
    1 ≤ (fastStages (Scalar.halvings speed) speed).2 * 2 ^ (Scalar.halvings speed + 1) := by
  by_cases hone : speed ≤ 1
  · rw [fastStages_of_le (hone.trans one_le_two), pow_succ, ← mul_assoc]
    have hdoublings := one_le_mul_two_pow_halvings h
    linarith
  · have hrest := one_lt_fastStages (Scalar.halvings speed) (not_le.mp hone)
    exact one_le_mul_of_one_le_of_one_le hrest.le (one_le_pow₀ one_le_two)

/-! ### Runs of the whole split -/

/-- A remainder counts as a stage unless it is one, but for a billionth. -/
def lastStages (rest : Rat) : List Rat := if |rest - 1| > 1 / 10 ^ 9 then [rest] else []

/-- **The runs of the split** of a speed into stages, with both loops unbounded. -/
inductive TempoRun (speed : Rat) : Except TempoFault (List Rat) → Prop
  | refused (h : speed ≤ 0) : TempoRun speed (.error .notPositive)
  | split {fast slow : List Rat} {middle rest : Rat} (h : 0 < speed)
      (hfast : TakesOff (2 < ·) 2 speed fast middle)
      (hslow : TakesOff (· < 1 / 2) (1 / 2) middle slow rest)
      (hfew : (fast ++ slow ++ lastStages rest).length ≤ 4) :
      TempoRun speed (.ok (fast ++ slow ++ lastStages rest))
  | tooMany {fast slow : List Rat} {middle rest : Rat} (h : 0 < speed)
      (hfast : TakesOff (2 < ·) 2 speed fast middle)
      (hslow : TakesOff (· < 1 / 2) (1 / 2) middle slow rest)
      (hmany : 4 < (fast ++ slow ++ lastStages rest).length) :
      TempoRun speed (.error (.tooMany (fast ++ slow ++ lastStages rest).length))

theorem TempoRun.unique {speed : Rat} {outcome outcome' : Except TempoFault (List Rat)}
    (h : TempoRun speed outcome) (h' : TempoRun speed outcome') : outcome = outcome' := by
  cases h with
  | refused hle =>
    cases h' with
    | refused _ => rfl
    | split hpos => exact absurd hle (not_le.mpr hpos)
    | tooMany hpos => exact absurd hle (not_le.mpr hpos)
  | split hpos hfast hslow hfew =>
    cases h' with
    | refused hle => exact absurd hle (not_le.mpr hpos)
    | split _ hfast' hslow' =>
      obtain ⟨rfl, rfl⟩ := hfast.unique hfast'
      obtain ⟨rfl, rfl⟩ := hslow.unique hslow'
      rfl
    | tooMany _ hfast' hslow' hmany =>
      obtain ⟨rfl, rfl⟩ := hfast.unique hfast'
      obtain ⟨rfl, rfl⟩ := hslow.unique hslow'
      exact absurd hfew (not_le.mpr hmany)
  | tooMany hpos hfast hslow hmany =>
    cases h' with
    | refused hle => exact absurd hle (not_le.mpr hpos)
    | split _ hfast' hslow' hfew =>
      obtain ⟨rfl, rfl⟩ := hfast.unique hfast'
      obtain ⟨rfl, rfl⟩ := hslow.unique hslow'
      exact absurd hfew (not_le.mpr hmany)
    | tooMany _ hfast' hslow' =>
      obtain ⟨rfl, rfl⟩ := hfast.unique hfast'
      obtain ⟨rfl, rfl⟩ := hslow.unique hslow'
      rfl

/-- The outcome for a positive speed, by what both loops give. -/
theorem tempoStages_of_pos {speed : Rat} (h : 0 < speed) :
    tempoStages speed =
      let (fast, middle) := fastStages (Scalar.halvings speed) speed
      let (slow, rest) := slowStages (Scalar.halvings speed) middle
      if 4 < (fast ++ slow ++ lastStages rest).length then
        .error (.tooMany (fast ++ slow ++ lastStages rest).length)
      else .ok (fast ++ slow ++ lastStages rest) := by
  have hone : (@OfNat.ofNat Rat 1 Scalar.instOfNat) = 1 := Scalar.ofNat_rat 1
  have hbillionth : (1e-9 : Rat) = 1 / 10 ^ 9 := by norm_num
  have hlast : ∀ rest : Rat,
      (if Scalar.magnitude (rest - @OfNat.ofNat Rat 1 Scalar.instOfNat) > 1e-9 then [rest]
        else []) = lastStages rest := fun rest => by
    rw [lastStages, hone, hbillionth, Scalar.magnitude_rat]
  rw [tempoStages, Scalar.zero_rat, if_neg (not_le.mpr h)]
  simp only [hlast, maxTempoStages]

/-- **The loops end**, and the rounds that they are given are enough. -/
theorem tempoRun_tempoStages (speed : Rat) : TempoRun speed (tempoStages speed) := by
  obtain hle | hpos := le_or_gt speed 0
  · rw [tempoStages, Scalar.zero_rat, if_pos hle]
    exact .refused hle
  · have hfast := @takesOff_fastStages (Scalar.halvings speed) speed
      ((le_two_pow_halvings hpos).trans (pow_le_pow_right₀ one_le_two (Nat.le_succ _)))
    have hslow := @takesOff_slowStages (Scalar.halvings speed) _
      (one_le_fastStages_mul hpos)
    rw [tempoStages_of_pos hpos]
    dsimp only
    split
    · next hmany => exact .tooMany hpos hfast hslow hmany
    · next hfew => exact .split hpos hfast hslow (not_lt.mp hfew)

/-- A speed has one run, and the split gives its outcome. -/
theorem tempoRun_iff {speed : Rat} {outcome : Except TempoFault (List Rat)} :
    TempoRun speed outcome ↔ outcome = tempoStages speed := by
  constructor
  · exact fun h => h.unique (tempoRun_tempoStages speed)
  · rintro rfl
    exact tempoRun_tempoStages speed

/-! ### What a split is good for -/

/-- **Stages that stand for a speed**: there are few of them, each can be played, and they
multiply to the speed but for a billionth of what they multiply to. -/
structure IsTempoSplit (speed : Rat) (stages : List Rat) : Prop where
  few : stages.length ≤ 4
  playable : ∀ stage ∈ stages, 1 / 2 ≤ stage ∧ stage ≤ 2
  close : |stages.prod - speed| ≤ 1 / 10 ^ 9 * stages.prod

/-- What both loops leave lies between a half and two. -/
theorem TakesOff.rest_mem {speed middle rest : Rat} {fast slow : List Rat}
    (hfast : TakesOff (2 < ·) 2 speed fast middle)
    (hslow : TakesOff (· < 1 / 2) (1 / 2) middle slow rest) : 1 / 2 ≤ rest ∧ rest ≤ 2 := by
  refine ⟨not_lt.mp hslow.not_goesOn, ?_⟩
  -- a stage of a half is taken off below a half only, and so leaves less than one
  refine hslow.keeps (P := (· ≤ 2)) (not_lt.mp hfast.not_goesOn) fun x hx _ => ?_
  linarith

/-- The remainder is a stage, or it may be left out. -/
theorem abs_lastStages_le {product rest : Rat} (hproduct : 0 < product) (hrest : 1 / 2 ≤ rest) :
    |product * (lastStages rest).prod - product * rest| ≤
      1 / 10 ^ 9 * (product * (lastStages rest).prod) := by
  rw [lastStages]
  split
  · rw [List.prod_singleton, sub_self, abs_zero]
    positivity
  · next hone =>
    rw [List.prod_nil, mul_one]
    have hfactor : product - product * rest = product * (1 - rest) := by rw [mul_sub, mul_one]
    rw [hfactor, abs_mul, abs_of_pos hproduct, abs_sub_comm, mul_comm]
    exact mul_le_mul_of_nonneg_right (not_lt.mp hone) hproduct.le

/-- A run with a result gives stages that stand for the speed. -/
theorem TempoRun.isTempoSplit {speed : Rat} {stages : List Rat}
    (h : TempoRun speed (.ok stages)) : IsTempoSplit speed stages := by
  cases h with
  | @split fast slow middle rest hpos hfast hslow hfew =>
    obtain ⟨hlow, hhigh⟩ := hfast.rest_mem hslow
    have hprod : (fast ++ slow).prod * rest = speed := by
      rw [List.prod_append, mul_assoc, hslow.prod_mul (by norm_num), hfast.prod_mul (by norm_num)]
    have hproduct : 0 < (fast ++ slow).prod := by
      refine pos_of_mul_pos_left (hprod ▸ hpos) ?_
      linarith
    refine ⟨hfew, fun stage hstage => ?_, ?_⟩
    · rw [List.mem_append, List.mem_append] at hstage
      obtain (hstage | hstage) | hstage := hstage
      · rw [hfast.eq_of_mem hstage]
        norm_num
      · rw [hslow.eq_of_mem hstage]
        norm_num
      · have heq : stage = rest := by
          rw [lastStages] at hstage
          split at hstage
          · exact List.mem_singleton.mp hstage
          · exact absurd hstage List.not_mem_nil
        exact heq ▸ ⟨hlow, hhigh⟩
    · have hclose := abs_lastStages_le hproduct hlow
      rw [hprod, ← List.prod_append] at hclose
      exact hclose

/-- **Splitting a speed**: for every speed the loops end, with the outcome that `tempoStages` gives.
Stages that are given back stand for the speed; only a speed that is not positive, or not between
a sixteenth and sixteen, is refused. -/
theorem tempoStages_splits (speed : Rat) :
    (∀ outcome, TempoRun speed outcome ↔ outcome = tempoStages speed) ∧
      Meets (tempoStages speed) (IsTempoSplit speed) fun fault =>
        (fault = .notPositive ∧ speed ≤ 0) ∨
          ((∃ stages, fault = .tooMany stages ∧ 4 < stages) ∧ 0 < speed ∧
            ¬ (1 / 16 ≤ speed ∧ speed ≤ 16)) := by
  refine ⟨fun outcome => tempoRun_iff, ?_⟩
  have hrun := tempoRun_tempoStages speed
  cases houtcome : tempoStages speed with
  | ok stages =>
    rw [houtcome] at hrun
    exact hrun.isTempoSplit
  | error fault =>
    rw [houtcome] at hrun
    cases hrun with
    | refused hle => exact .inl ⟨rfl, hle⟩
    | tooMany hpos hfast hslow hmany =>
      refine .inr ⟨⟨_, rfl, hmany⟩, hpos, fun ⟨hlow, hhigh⟩ => ?_⟩
      rw [← minSpeed_rat] at hlow
      rw [← maxSpeed_rat] at hhigh
      obtain ⟨stages, hstages⟩ := tempoStages_of_supported hlow hhigh
      rw [houtcome] at hstages
      cases hstages

end TimelineExport
