import TimelineExport.Paint.ColorReader
import TimelineExport.Proofs.Number.FloatSum
import TimelineExport.Proofs.Outcome

/-!
# Colours that can be drawn

Each of the channels of a colour should be in the range of 0 to 255. A colour that is made more
transparent stays in the range (`exists_withAlpha`). But a reader of colours does not see to it:
channels in parentheses are kept as they are spelled, and an infinite one is a failure
(`channelColor?_inRange_iff`); and a pair of hexadecimal digits may be a sign and a digit.
`IsDrawableText` says of which texts the colour can be drawn (`readColor_inRange_iff`), whichever
colours a library of colours has in the range.
-/

namespace TimelineExport

/-! ### Opacity -/

theorem roundedAmount_opaque : roundedAmount 255 = 255 := by
  have hcanonical : (BinaryParts.mk (255 * 2 ^ 45) (-45)).IsCanonical :=
    ⟨by decide, by decide, fun _ => by decide⟩
  have hrat : (BinaryParts.mk (255 * 2 ^ 45) (-45)).signed false = 255 := by
    norm_num [BinaryParts.signed, BinaryParts.toRat]
  rw [← hrat]
  exact roundedAmount_signed hcanonical false

/-- What is rounded stays in the range of a channel. -/
theorem roundedAmount_mem_channel {q : Rat} (h : q ∈ Set.Icc (0 : Rat) 255) :
    roundedAmount q ∈ Set.Icc (0 : Rat) 255 := by
  refine ⟨roundedAmount_nonneg h.1, ?_⟩
  rw [← roundedAmount_opaque]
  exact roundedAmount_mono h.2

/-- A value whose amount is in the range of a channel is finite. -/
theorem exactValue_of_mem_channel {x : Float} {q : Rat} (h : q ∈ Set.Icc (0 : Rat) 255)
    (hx : amount? x = some (boundedAmount q)) : exactValue x = .ok q := by
  rw [exactValue_eq_ok_iff, hx, boundedAmount_of_abs_lt]
  rw [abs_of_nonneg h.1]
  exact h.2.trans_lt ((by norm_num : (255 : Rat) < 2 ^ 8).trans
    (pow_lt_pow_right₀ one_lt_two (by decide)))

theorem nearestInt_mem_channel {q : Rat} (h : q ∈ Set.Icc (0 : Rat) 255) :
    nearestInt q ∈ Set.Icc (0 : Int) 255 := by
  have hhigh := nearestInt_mono (r := ((255 : Int) : Rat)) (by exact_mod_cast h.2)
  rw [nearestInt_intCast] at hhigh
  exact ⟨nearestInt_nonneg h.1, hhigh⟩

namespace Color

theorem withAlpha_eq_ok_iff {c c' : Color} {opacity : Float} :
    c.withAlpha opacity = .ok c' ↔
      ∃ q, exactValue (Float.ofInt c.alpha * opacity) = .ok q ∧
        { c with alpha := nearestInt q } = c' := by
  have hnearest : c.withAlpha opacity = (exactValue (Float.ofInt c.alpha * opacity)).map
      fun q => { c with alpha := nearestInt q } := by
    simp only [withAlpha, Scalar.nearest, Scalar.ofInt]
    cases exactValue (Float.ofInt c.alpha * opacity) <;> rfl
  rw [hnearest]
  cases exactValue (Float.ofInt c.alpha * opacity) with
  | ok q => simp [Except.map]
  | error fault => simp [Except.map]

theorem inRange_withAlpha_iff {c : Color} {n : Int} :
    ({ c with alpha := n } : Color).InRange ↔
      (∀ m ∈ [c.red, c.green, c.blue], 0 ≤ m ∧ m ≤ 255) ∧ 0 ≤ n ∧ n ≤ 255 := by
  simp only [InRange, channels, List.forall_mem_cons, List.not_mem_nil, false_implies, implies_true,
    and_true, and_assoc]

/-- **A colour that can be drawn can be drawn more transparent.** -/
theorem exists_withAlpha {c : Color} (h : c.InRange) {opacity : Float} (hlow : 0 ≤ opacity)
    (hhigh : opacity ≤ 1) : ∃ c', c.withAlpha opacity = .ok c' ∧ c'.InRange := by
  obtain ⟨hpaint, halpha⟩ := inRange_withAlpha_iff.mp h
  obtain ⟨n, hn⟩ := Int.eq_ofNat_of_zero_le halpha.1
  rw [hn] at halpha
  obtain ⟨r, hr, hzero, hone⟩ := exactValue_of_zero_le_of_le_one hlow hhigh
  have hround : roundedAmount n ∈ Set.Icc (0 : Rat) 255 :=
    roundedAmount_mem_channel ⟨by exact_mod_cast halpha.1, by exact_mod_cast halpha.2⟩
  have hproduct : roundedAmount n * r ∈ Set.Icc (0 : Rat) 255 :=
    ⟨mul_nonneg hround.1 hzero, (mul_le_of_le_one_right hround.1 hone).trans hround.2⟩
  have hvalue := exactValue_of_mem_channel hround (amount?_ofNat n)
  have hexact := exactValue_of_mem_channel (roundedAmount_mem_channel hproduct)
    (amount?_mul hvalue hr)
  refine ⟨_, withAlpha_eq_ok_iff.mpr ⟨_, by rw [hn]; exact hexact, rfl⟩, ?_⟩
  exact inRange_withAlpha_iff.mpr
    ⟨hpaint, nearestInt_mem_channel (roundedAmount_mem_channel hproduct)⟩

/-- A colour that can be drawn as opaque as it is, is in the range. -/
theorem inRange_of_withAlpha_one {c c' : Color} (h : c.withAlpha (1 : Float) = .ok c')
    (h' : c'.InRange) : c.InRange := by
  obtain ⟨p, hp, rfl⟩ := withAlpha_eq_ok_iff.mp h
  obtain ⟨hpaint, hlow, hhigh⟩ := inRange_withAlpha_iff.mp h'
  have hamount := eq_roundedAmount_of_exactValue_ofInt (exactValue_of_mul_one exactValue_one hp)
  rw [hamount] at hlow hhigh
  refine inRange_withAlpha_iff.mpr ⟨hpaint, ?_, ?_⟩
  · -- A negative alpha is at most the negative of a power of two, which is not rounded.
    by_contra hneg
    have hle : roundedAmount c.alpha ≤ ((-1 : Int) : Rat) := by
      have hone := roundedAmount_two_pow 0
      rw [pow_zero] at hone
      rw [Int.cast_neg, Int.cast_one, ← hone, ← roundedAmount_neg]
      refine roundedAmount_mono ?_
      have hint : c.alpha ≤ -1 := by omega
      exact_mod_cast hint
    have hnearest := nearestInt_mono hle
    rw [nearestInt_intCast] at hnearest
    omega
  · by_contra hlarge
    have hge : ((256 : Int) : Rat) ≤ roundedAmount c.alpha := by
      have hpow := roundedAmount_two_pow 8
      have hint : (256 : Int) ≤ c.alpha := by omega
      calc ((256 : Int) : Rat) = roundedAmount (2 ^ 8) := by rw [hpow]; norm_num
        _ ≤ roundedAmount c.alpha := roundedAmount_mono (by norm_num; exact_mod_cast hint)
    have hnearest := nearestInt_mono hge
    rw [nearestInt_intCast] at hnearest
    omega

end Color

/-! ### Channels in parentheses -/

/-- Whether a text spells no number. The word for an undefined value spells none. -/
def IsNoNumber (part : List Char) : Prop :=
  ∀ x, Numeral.readFloat? (String.ofList part) = some x → exactValue x = .error .undefined

/-- Whether a text spells a finite number. -/
def IsFiniteNumber (part : List Char) : Prop :=
  ∃ x q, Numeral.readFloat? (String.ofList part) = some x ∧ exactValue x = .ok q

/-- Whether a text spells a number whose integer part is in the range of a channel. -/
def IsChannel (part : List Char) : Prop :=
  ∃ x q, Numeral.readFloat? (String.ofList part) = some x ∧ exactValue x = .ok q ∧ -1 < q ∧ q < 256

/-- Whether a text spells a number that is finite as a multiple of full opacity. -/
def IsAlpha (part : List Char) : Prop :=
  ∃ x q, Numeral.readFloat? (String.ofList part) = some x ∧ exactValue (x * 255) = .ok q

/-- Whether the first part that spells no finite number spells no number at all. -/
def BreaksOff : List (List Char) → Prop
  | [] => False
  | part :: parts => IsNoNumber part ∨ IsFiniteNumber part ∧ BreaksOff parts

/-- Whether channels can be drawn, or make way for a default: they break off at a part that spells
no number, or there are too few of them, or all are in the range. -/
def ChannelsFit (parts : List (List Char)) : Prop :=
  BreaksOff (parts.take 4) ∨ (parts.length < 3 ∧ ∀ part ∈ parts, IsFiniteNumber part) ∨
    (3 ≤ parts.length ∧ (∀ part ∈ parts.take 3, IsChannel part) ∧ ∀ part ∈ parts[3]?, IsAlpha part)

theorem truncatedInt_mem_channel_iff {q : Rat} :
    0 ≤ truncatedInt q ∧ truncatedInt q ≤ 255 ↔ -1 < q ∧ q < 256 := by
  simp only [truncatedInt]
  split
  · next hq =>
    have hlow : 0 ≤ q.ceil ↔ -1 < q := by
      have hceil : q.ceil ≤ -1 ↔ q ≤ ((-1 : Int) : Rat) := Rat.ceil_le_iff
      rw [Int.cast_neg, Int.cast_one] at hceil
      rw [← not_le, ← hceil]
      omega
    have hhigh : q.ceil ≤ 0 := Rat.ceil_le_iff.mpr (by exact_mod_cast hq.le)
    exact and_congr hlow (iff_of_true (hhigh.trans (by decide)) (hq.trans (by norm_num)))
  · next hq =>
    have hlow : 0 ≤ q.floor := Rat.le_floor_iff.mpr (by exact_mod_cast not_lt.mp hq)
    have hhigh : q.floor ≤ 255 ↔ q < 256 := by
      have hfloor : 256 ≤ q.floor ↔ ((256 : Int) : Rat) ≤ q := Rat.le_floor_iff
      rw [Int.cast_ofNat] at hfloor
      rw [← not_le, ← hfloor]
      omega
    exact and_congr (iff_of_true hlow (by linarith only [not_lt.mp hq])) hhigh

/-- What a channel is read as. -/
theorem channelValue_cases (part : List Char) :
    (channelValue part = .ok none ∧ IsNoNumber part ∧ ¬ IsFiniteNumber part) ∨
      (∃ n, channelValue part = .ok (some n) ∧ ¬ IsNoNumber part ∧ IsFiniteNumber part ∧
        (IsChannel part ↔ 0 ≤ n ∧ n ≤ 255)) ∨
      (channelValue part = .error .infinite ∧ ¬ IsNoNumber part ∧ ¬ IsFiniteNumber part) := by
  simp only [channelValue, IsNoNumber, IsFiniteNumber, IsChannel]
  cases Numeral.readFloat? (String.ofList part) with
  | none => simp
  | some x =>
    simp only [Scalar.truncated, Option.some.injEq]
    rcases hx : exactValue x with (_ | _) | q
    · simp [Except.map, hx]
    · simp [Except.map, hx]
    · simp [Except.map, hx, truncatedInt_mem_channel_iff]

/-- What alpha is read as. -/
theorem alphaValue_cases (part : List Char) :
    (alphaValue part = .ok none ∧ IsNoNumber part ∧ ¬ IsAlpha part) ∨
      (∃ n, alphaValue part = .ok (some n) ∧ ¬ IsNoNumber part ∧ IsAlpha part ∧
        0 ≤ n ∧ n ≤ 255) ∨
      (alphaValue part = .error .infinite ∧ ¬ IsNoNumber part ∧ ¬ IsAlpha part) := by
  simp only [alphaValue, IsNoNumber, IsAlpha]
  cases Numeral.readFloat? (String.ofList part) with
  | none => simp
  | some x =>
    have hopaque : exactValue (255 : Float) = .ok 255 := by
      refine exactValue_of_mem_channel ⟨by norm_num, le_rfl⟩ ?_
      rw [← roundedAmount_opaque]
      exact amount?_ofNat 255
    have hnan := isNaN_mul_iff (x := x) hopaque (by norm_num)
    rw [isNaN_iff_exactValue, isNaN_iff_exactValue] at hnan
    simp only [Scalar.nearest, Option.some.injEq, forall_eq', ← hnan]
    rcases hx : exactValue (x * 255) with (_ | _) | q
    · simp [Except.map, hx]
    · simp [Except.map, hx]
    · simp [Except.map, hx]

theorem isChannel_iff {part : List Char} :
    IsChannel part ↔ ∃ n, channelValue part = .ok (some n) ∧ 0 ≤ n ∧ n ≤ 255 := by
  rcases channelValue_cases part with ⟨hvalue, -, hfinite⟩ | ⟨n, hvalue, -, -, hrange⟩ |
    ⟨hvalue, -, hfinite⟩
  · refine iff_of_false (fun ⟨x, q, hx, hq, _⟩ => hfinite ⟨x, q, hx, hq⟩) ?_
    rw [hvalue]
    simp
  · rw [hrange, hvalue]
    simp
  · refine iff_of_false (fun ⟨x, q, hx, hq, _⟩ => hfinite ⟨x, q, hx, hq⟩) ?_
    rw [hvalue]
    simp

theorem isAlpha_iff {part : List Char} :
    IsAlpha part ↔ ∃ n, alphaValue part = .ok (some n) ∧ 0 ≤ n ∧ n ≤ 255 := by
  rcases alphaValue_cases part with ⟨hvalue, -, halpha⟩ | ⟨n, hvalue, -, halpha, hrange⟩ |
    ⟨hvalue, -, halpha⟩
  · rw [hvalue]
    simp [halpha]
  · exact iff_of_true halpha ⟨n, hvalue, hrange⟩
  · rw [hvalue]
    simp [halpha]

section
variable {f : Option Int → Except NonFinite (Option Color)}

/-- A colour that needs one more channel is missing if the channel or the rest of it is. -/
theorem bind_channelValue_eq_none_iff {part : List Char} {P : Prop} (hnone : f none = .ok none)
    (hsome : ∀ n, f (some n) = .ok none ↔ P) :
    (channelValue part >>= f) = .ok none ↔ IsNoNumber part ∨ IsFiniteNumber part ∧ P := by
  rcases channelValue_cases part with ⟨hvalue, hno, -⟩ | ⟨n, hvalue, hno, hfinite, -⟩ |
    ⟨hvalue, hno, hfinite⟩
  · rw [hvalue]
    exact iff_of_true hnone (.inl hno)
  · rw [hvalue]
    exact (hsome n).trans (by simp [hno, hfinite])
  · rw [hvalue]
    exact iff_of_false nofun (by simp [hno, hfinite])

theorem bind_alphaValue_eq_none_iff {part : List Char} (hnone : f none = .ok none)
    (hsome : ∀ n, f (some n) ≠ .ok none) :
    (alphaValue part >>= f) = .ok none ↔ IsNoNumber part := by
  rcases alphaValue_cases part with ⟨hvalue, hno, -⟩ | ⟨n, hvalue, hno, -⟩ | ⟨hvalue, hno, -⟩
  · rw [hvalue]
    exact iff_of_true hnone hno
  · rw [hvalue]
    exact iff_of_false (hsome n) hno
  · rw [hvalue]
    exact iff_of_false nofun hno

/-- A colour that needs one more channel has the channel. -/
theorem bind_channel_eq_some_iff {value : Except NonFinite (Option Int)} {c : Color}
    (hnone : f none = .ok none) :
    (value >>= f) = .ok (some c) ↔ ∃ n, value = .ok (some n) ∧ f (some n) = .ok (some c) := by
  rcases value with fault | (_ | n)
  · exact iff_of_false nofun nofun
  · refine iff_of_false (fun h => ?_) nofun
    cases hnone.symm.trans h
  · constructor
    · exact fun h => ⟨n, rfl, h⟩
    · rintro ⟨_, ⟨⟩, h⟩
      exact h

end

/-- Channels have no colour just if they break off or are too few. -/
theorem channelColor?_eq_none_iff (parts : List (List Char)) :
    channelColor? parts = .ok none ↔
      BreaksOff (parts.take 4) ∨ (parts.length < 3 ∧ ∀ part ∈ parts, IsFiniteNumber part) := by
  rcases parts with _ | ⟨r, _ | ⟨g, _ | ⟨b, _ | ⟨a, rest⟩⟩⟩⟩
  · exact iff_of_true rfl (.inr ⟨by decide, nofun⟩)
  · have hred : channelColor? [r] = .ok none ↔ IsNoNumber r ∨ IsFiniteNumber r ∧ True :=
      bind_channelValue_eq_none_iff rfl fun _ => iff_of_true rfl trivial
    rw [hred]
    simp [BreaksOff]
  · have hgreen : channelColor? [r, g] = .ok none ↔
        IsNoNumber r ∨ IsFiniteNumber r ∧ (IsNoNumber g ∨ IsFiniteNumber g ∧ True) := by
      refine bind_channelValue_eq_none_iff rfl fun _ => ?_
      exact bind_channelValue_eq_none_iff rfl fun _ => iff_of_true rfl trivial
    rw [hgreen]
    simp [BreaksOff, and_or_left, or_assoc]
  · have hblue : channelColor? [r, g, b] = .ok none ↔ BreaksOff [r, g, b] := by
      refine bind_channelValue_eq_none_iff rfl fun _ => ?_
      refine bind_channelValue_eq_none_iff rfl fun _ => ?_
      refine bind_channelValue_eq_none_iff rfl fun _ => iff_of_false (fun h => ?_) id
      cases h
    rw [hblue]
    simp
  · have halpha : channelColor? (r :: g :: b :: a :: rest) = .ok none ↔
        IsNoNumber r ∨ IsFiniteNumber r ∧ (IsNoNumber g ∨ IsFiniteNumber g ∧
          (IsNoNumber b ∨ IsFiniteNumber b ∧ IsNoNumber a)) := by
      refine bind_channelValue_eq_none_iff rfl fun _ => ?_
      refine bind_channelValue_eq_none_iff rfl fun _ => ?_
      refine bind_channelValue_eq_none_iff rfl fun _ => ?_
      refine bind_alphaValue_eq_none_iff rfl fun _ h => ?_
      cases h
    rw [halpha]
    simp [BreaksOff]

theorem inRange_mk_iff {red green blue alpha : Int} :
    (⟨red, green, blue, alpha⟩ : Color).InRange ↔
      (0 ≤ red ∧ red ≤ 255) ∧ (0 ≤ green ∧ green ≤ 255) ∧ (0 ≤ blue ∧ blue ≤ 255) ∧
        0 ≤ alpha ∧ alpha ≤ 255 := by
  simp [Color.InRange, Color.channels]

/-- Channels have a colour that can be drawn just if there are enough and all are in the range. -/
theorem channelColor?_inRange_iff (parts : List (List Char)) :
    (∃ c, channelColor? parts = .ok (some c) ∧ c.InRange) ↔
      3 ≤ parts.length ∧ (∀ part ∈ parts.take 3, IsChannel part) ∧
        ∀ part ∈ parts[3]?, IsAlpha part := by
  rcases parts with _ | ⟨r, _ | ⟨g, _ | ⟨b, rest⟩⟩⟩
  · exact iff_of_false nofun (by simp)
  · refine iff_of_false (fun ⟨c, hc, _⟩ => ?_) (by simp)
    obtain ⟨_, -, hc⟩ := (bind_channel_eq_some_iff rfl).mp hc
    cases hc
  · refine iff_of_false (fun ⟨c, hc, _⟩ => ?_) (by simp)
    obtain ⟨_, -, hc⟩ := (bind_channel_eq_some_iff rfl).mp hc
    obtain ⟨_, -, hc⟩ := (bind_channel_eq_some_iff rfl).mp hc
    cases hc
  simp only [List.length_cons, List.take_succ_cons, List.take_zero, List.forall_mem_cons,
    List.not_mem_nil, isChannel_iff]
  constructor
  · rintro ⟨c, hc, hrange⟩
    obtain ⟨red, hred, hc⟩ := (bind_channel_eq_some_iff rfl).mp hc
    obtain ⟨green, hgreen, hc⟩ := (bind_channel_eq_some_iff rfl).mp hc
    obtain ⟨blue, hblue, hc⟩ := (bind_channel_eq_some_iff rfl).mp hc
    rcases rest with _ | ⟨a, rest⟩
    · cases hc
      obtain ⟨hr, hg, hb, -⟩ := inRange_mk_iff.mp hrange
      exact ⟨by omega, ⟨⟨red, hred, hr⟩, ⟨green, hgreen, hg⟩, ⟨blue, hblue, hb⟩, nofun⟩, nofun⟩
    · obtain ⟨alpha, halpha, hc⟩ := (bind_channel_eq_some_iff rfl).mp hc
      cases hc
      obtain ⟨hr, hg, hb, ha⟩ := inRange_mk_iff.mp hrange
      refine ⟨by omega, ⟨⟨red, hred, hr⟩, ⟨green, hgreen, hg⟩, ⟨blue, hblue, hb⟩, nofun⟩, ?_⟩
      rintro _ ⟨⟩
      exact isAlpha_iff.mpr ⟨alpha, halpha, ha⟩
  · rintro ⟨-, ⟨⟨red, hred, hr⟩, ⟨green, hgreen, hg⟩, ⟨blue, hblue, hb⟩, -⟩, halphas⟩
    rcases rest with _ | ⟨a, rest⟩
    · refine ⟨⟨red, green, blue, 255⟩, ?_, inRange_mk_iff.mpr ⟨hr, hg, hb, by decide⟩⟩
      simp only [channelColor?, hred, hgreen, hblue]
      rfl
    · obtain ⟨alpha, halpha, ha⟩ := isAlpha_iff.mp (halphas a rfl)
      refine ⟨⟨red, green, blue, alpha⟩, ?_, inRange_mk_iff.mpr ⟨hr, hg, hb, ha⟩⟩
      simp only [channelColor?, hred, hgreen, hblue, halpha]
      rfl

/-! ### Hexadecimal pairs -/

theorem hexValue?_lt {c : Char} {n : Nat} (h : hexValue? c = some n) : n < 16 := by
  simp only [hexValue?] at h
  split at h
  · next hdigit =>
    cases h
    have hhigh : c.toNat ≤ '9'.toNat := hdigit.2
    have hnine : '9'.toNat = 57 := rfl
    omega
  split at h
  · next hlower =>
    cases h
    have hhigh : c.toNat ≤ 'f'.toNat := hlower.2
    have hf : 'f'.toNat = 102 := rfl
    omega
  split at h
  · next hupper =>
    cases h
    have hhigh : c.toNat ≤ 'F'.toNat := hupper.2
    have hf : 'F'.toNat = 70 := rfl
    omega
  · cases h

/-- So many hexadecimal digits spell a number below the power of sixteen. -/
theorem hexNumber?_lt {cs : List Char} {n : Nat} (h : hexNumber? cs = some n) :
    n < 16 ^ cs.length := by
  let step (n : Option Nat) (c : Char) : Option Nat := do return 16 * (← n) + (← hexValue? c)
  have hnone (cs : List Char) : cs.foldl step none = none := by
    induction cs with
    | nil => rfl
    | cons c cs ih => exact ih
  have hsteps (cs : List Char) (m : Nat) (h : cs.foldl step (some m) = some n) :
      n < 16 ^ cs.length * (m + 1) := by
    induction cs generalizing m with
    | nil =>
      cases h
      simp
    | cons c cs ih =>
      rw [List.foldl_cons] at h
      cases hc : hexValue? c with
      | none =>
        have hstep : step (some m) c = none := by simp [step, hc]
        rw [hstep, hnone] at h
        cases h
      | some d =>
        have hstep : step (some m) c = some (16 * m + d) := by simp [step, hc]
        have hd := hexValue?_lt hc
        rw [hstep] at h
        calc n < 16 ^ cs.length * (16 * m + d + 1) := ih _ h
          _ ≤ 16 ^ cs.length * (16 * (m + 1)) := Nat.mul_le_mul_left _ (by omega)
          _ = 16 ^ (c :: cs).length * (m + 1) := by rw [List.length_cons, pow_succ, mul_assoc]
  rcases cs with _ | ⟨c, cs⟩
  · cases h
  · exact (hsteps (c :: cs) 0 h).trans_eq (mul_one _)

/-- A pair spells at most the greatest channel. -/
theorem hexPair?_le {a b : Char} {n : Int} (h : hexPair? a b = some n) : n ≤ 255 := by
  have hlength : (Numeral.foldDigits (trimWhile isSpace [a, b])).length ≤ 2 := by
    simp only [Numeral.foldDigits, trimWhile, dropEndWhile, List.length_map, List.length_reverse]
    refine (List.length_dropWhile_le _ _).trans ?_
    rw [List.length_reverse]
    exact List.length_dropWhile_le _ _
  have hnumber {cs : List Char} {m : Nat} (hcs : cs.length ≤ 2) (hm : hexNumber? cs = some m) :
      m ≤ 255 := by
    have hpow : 16 ^ cs.length ≤ 16 ^ 2 := Nat.pow_le_pow_right (by decide) hcs
    have hlt := hexNumber?_lt hm
    omega
  unfold hexPair? at h
  split at h
  · obtain ⟨_, hm, rfl⟩ := Option.map_eq_some_iff.mp h
    obtain ⟨m, -, hcast⟩ := Option.bind_eq_some_iff.mp hm
    cases hcast
    omega
  · next hcs =>
    obtain ⟨m, hm, rfl⟩ := Option.map_eq_some_iff.mp h
    rw [hcs, List.length_cons] at hlength
    exact Int.ofNat_le.mpr (hnumber (by omega) hm)
  · obtain ⟨m, hm, rfl⟩ := Option.map_eq_some_iff.mp h
    exact Int.ofNat_le.mpr (hnumber hlength hm)

/-! ### Texts of colours -/

/-- Whether the colour of a text can be drawn, or makes way for a default: its channels fit, none of
its pairs has a sign of minus, or it is left to a library of colours. -/
def IsDrawableText (text : String) : Prop :=
  text = "" ∨ text = "transparent" ∨
    let cs := trimBoth text.toList
    let digits := cs.dropWhile (· = '#')
    match (argumentOf? "rgb" cs).or (argumentOf? "rgba" cs) with
    | some channels => ChannelsFit ((channels.splitOn ',').map trimBoth)
    | none =>
      cs.head? = some '#' → digits.length = 8 →
        ∀ c, hexColor? digits = some c → ∀ n ∈ c.channels, 0 ≤ n

/-- A text that is no function of channels and has no eight digits is left to a library. -/
theorem isDrawableText_of_plain {text : String}
    (hfunction : (argumentOf? "rgb" (trimBoth text.toList)).or
      (argumentOf? "rgba" (trimBoth text.toList)) = none)
    (hdigits : ((trimBoth text.toList).dropWhile (· = '#')).length ≠ 8) : IsDrawableText text := by
  refine .inr (.inr ?_)
  simp only [hfunction]
  exact fun _ hlength => absurd hlength hdigits

theorem hexColor?_inRange_iff {digits : List Char} {c : Color} (h : hexColor? digits = some c) :
    c.InRange ↔ ∀ n ∈ c.channels, 0 ≤ n := by
  refine ⟨fun hrange n hn => (hrange n hn).1, fun hlow n hn => ⟨hlow n hn, ?_⟩⟩
  simp only [hexColor?] at h
  split at h
  · obtain ⟨red, hred, h⟩ := Option.bind_eq_some_iff.mp h
    obtain ⟨green, hgreen, h⟩ := Option.bind_eq_some_iff.mp h
    obtain ⟨blue, hblue, h⟩ := Option.bind_eq_some_iff.mp h
    obtain ⟨alpha, halpha, h⟩ := Option.bind_eq_some_iff.mp h
    cases h
    have hle : ∀ m ∈ [red, green, blue, alpha], m ≤ 255 := by
      simp only [List.forall_mem_cons, List.not_mem_nil, false_implies, implies_true, and_true]
      exact ⟨hexPair?_le hred, hexPair?_le hgreen, hexPair?_le hblue, hexPair?_le halpha⟩
    exact hle n hn
  · cases h

theorem getD_inRange_iff {color : Option Color} {default : Color} (hdefault : default.InRange) :
    (color.getD default).InRange ↔ ∀ c, color = some c → c.InRange := by
  cases color with
  | none => exact iff_of_true hdefault nofun
  | some c => simp

/-- A colour of a library whose channels are in the range can be drawn. -/
theorem LibraryColor.inRange_toColor {c : LibraryColor} (h : ∀ n ∈ c.channels, 0 ≤ n ∧ n ≤ 255) :
    c.toColor.InRange := by
  obtain ⟨hpaint, halpha⟩ := List.forall_mem_append.mp h
  refine inRange_mk_iff.mpr ⟨hpaint _ (by simp), hpaint _ (by simp), hpaint _ (by simp), ?_⟩
  cases hc : c.alpha with
  | none => exact ⟨by decide, by decide⟩
  | some n => exact halpha n (by simp [hc])

/-- **A colour that is read can be drawn** just if its text is drawable. -/
theorem readColor_inRange_iff {library : ColorLibrary} (hlibrary : library.IsInRange)
    {default : Color} (hdefault : default.InRange) (text : String) :
    (∃ c, readColor library (some text) default = .ok c ∧ c.InRange) ↔ IsDrawableText text := by
  simp only [readColor, IsDrawableText]
  split
  · next hplain => exact iff_of_true ⟨default, rfl, hdefault⟩ (by tauto)
  · next hplain =>
    rw [not_or] at hplain
    simp only [hplain, false_or]
    cases (argumentOf? "rgb" (trimBoth text.toList)).or (argumentOf? "rgba" (trimBoth text.toList))
      with
    | some channels =>
      dsimp only
      rw [ChannelsFit, ← or_assoc, ← channelColor?_eq_none_iff, ← channelColor?_inRange_iff]
      rcases channelColor? ((channels.splitOn ',').map trimBoth) with fault | (_ | c)
      · simp [Except.map]
      · exact iff_of_true ⟨default, rfl, hdefault⟩ (.inl rfl)
      · simp [Except.map]
    | none =>
      dsimp only
      split
      · next hpairs =>
        simp only [Except.ok.injEq, exists_eq_left', getD_inRange_iff hdefault, hpairs,
          forall_const]
        exact forall₂_congr fun c hc => hexColor?_inRange_iff hc
      · next hpairs =>
        refine iff_of_true ⟨_, rfl, (getD_inRange_iff hdefault).mpr fun c hc => ?_⟩
          fun hsign hlength => absurd ⟨hsign, hlength⟩ hpairs
        obtain ⟨named, hnamed, rfl⟩ := Option.map_eq_some_iff.mp hc
        exact LibraryColor.inRange_toColor (hlibrary _ named hnamed)

end TimelineExport
