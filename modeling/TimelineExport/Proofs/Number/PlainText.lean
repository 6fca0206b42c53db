import Mathlib.Algebra.Order.Field.Power
import Mathlib.Algebra.Order.Field.Rat
import Mathlib.Tactic.FieldSimp
import Mathlib.Tactic.Ring
import TimelineExport.Number.Notation

/-!
# Plain numerals

A plain numeral has an optional sign, digits, and perhaps a point with decimal places; it has no
exponent and no superfluous zeros, and zero is written `0`. `Spells` says of a text that it is such
a numeral, and of which number. A text spells one number at most (`Spells.unique`).

The plain text of a decimal spells the decimal (`spells_plainText`). A decimal of at most 28 digits
is divided by a thousand exactly, so its thousandth is spelled as well (`spells_thousandth`).
-/

namespace TimelineExport

/-! ### Numerals -/

/-- A sign, the digits before the point, and the digits after it. -/
structure PlainNumeral where
  negative : Bool
  whole : List Char
  places : List Char

namespace PlainNumeral

/-- The characters of a numeral. There is a point only before decimal places. -/
def chars (n : PlainNumeral) : List Char :=
  (if n.negative then ['-'] else []) ++ n.whole ++ if n.places = [] then [] else '.' :: n.places

/-- The number that the digits spell. -/
def toRat (n : PlainNumeral) : Rat :=
  let magnitude : Rat := Nat.ofDigitChars 10 (n.whole ++ n.places) 0 / 10 ^ n.places.length
  if n.negative then -magnitude else magnitude

/-- **A proper numeral**: digits only, at least one of them before the point, no superfluous zero at
either end, and zero written in one way. -/
structure IsProper (n : PlainNumeral) : Prop where
  digits : ∀ c ∈ n.whole ++ n.places, c.isDigit = true
  whole_ne_nil : n.whole ≠ []
  leading : n.whole.head? = some '0' → n.whole = ['0']
  trailing : n.places.getLast? ≠ some '0'
  zero : n.toRat = 0 → n.chars = ['0']

theorem isProper_zero : IsProper ⟨false, ['0'], []⟩ where
  digits := by simp
  whole_ne_nil := List.cons_ne_nil _ _
  leading _ := rfl
  trailing := by simp
  zero _ := rfl

/-- The parts of a proper numeral can be read back from its characters. -/
theorem IsProper.eq_of_chars_eq {m n : PlainNumeral} (hm : m.IsProper) (hn : n.IsProper)
    (h : m.chars = n.chars) : m = n := by
  have hbody : ∀ {k : PlainNumeral}, k.IsProper →
      (k.chars.head? = some '-' ↔ k.negative = true) := by
    intro k hk
    obtain ⟨c, cs, hwhole⟩ := List.exists_cons_of_ne_nil hk.whole_ne_nil
    have hc : c.isDigit = true := hk.digits c (by simp [hwhole])
    have hne : c ≠ '-' := by
      rintro rfl
      exact absurd hc (by decide)
    cases hsign : k.negative <;> simp [chars, hsign, hwhole, hne]
  have hsign : m.negative = n.negative := by
    rw [Bool.eq_iff_iff, ← hbody hm, ← hbody hn, h]
  have hrest : m.whole ++ (if m.places = [] then [] else '.' :: m.places) =
      n.whole ++ if n.places = [] then [] else '.' :: n.places := by
    rw [chars, chars, hsign, List.append_assoc, List.append_assoc] at h
    exact List.append_cancel_left h
  -- the digits before the point end where the first character is no digit
  have htake : ∀ {k : PlainNumeral}, k.IsProper →
      (k.whole ++ if k.places = [] then [] else '.' :: k.places).takeWhile Char.isDigit =
        k.whole := by
    intro k hk
    rw [List.takeWhile_append_of_pos fun c hc => hk.digits c (List.mem_append_left _ hc)]
    split
    · exact List.append_nil _
    · rw [List.takeWhile_cons_of_neg (by decide), List.append_nil]
  have hwhole : m.whole = n.whole := by rw [← htake hm, ← htake hn, hrest]
  have hplaces : m.places = n.places := by
    rw [hwhole] at hrest
    have hrest := List.append_cancel_left hrest
    split at hrest <;> split at hrest <;> simp_all
  obtain ⟨negative, whole, places⟩ := m
  obtain ⟨negative', whole', places'⟩ := n
  cases hsign
  cases hwhole
  cases hplaces
  rfl

end PlainNumeral

/-- **A text spells a number**: it is a proper numeral of that value. -/
def Spells (text : String) (value : Rat) : Prop :=
  ∃ n : PlainNumeral, n.IsProper ∧ text.toList = n.chars ∧ n.toRat = value

/-- A text spells one number at most. -/
theorem Spells.unique {text : String} {q r : Rat} (hq : Spells text q) (hr : Spells text r) :
    q = r := by
  obtain ⟨m, hm, hchars, rfl⟩ := hq
  obtain ⟨n, hn, hchars', rfl⟩ := hr
  rw [hm.eq_of_chars_eq hn (hchars.symm.trans hchars')]

/-! ### Digits -/

/-- Only zero is written with a zero in front. -/
theorem head?_toDigits_ne {n : Nat} (h : n ≠ 0) : (Nat.toDigits 10 n).head? ≠ some '0' := by
  induction n using Nat.strong_induction_on with
  | _ n ih =>
    obtain hlt | hle := Nat.lt_or_ge n 10
    · rw [Nat.toDigits_of_lt_base hlt, List.head?_cons]
      simpa [Nat.digitChar_eq_zero] using h
    · rw [Nat.toDigits_of_base_le (by decide) hle,
        List.head?_append_of_ne_nil _ Nat.toDigits_ne_nil]
      exact ih (n / 10) (by omega) (by omega)

/-- Only multiples of ten are written with a zero at the end. -/
theorem getLast?_toDigits_ne {n : Nat} (h : n % 10 ≠ 0) :
    (Nat.toDigits 10 n).getLast? ≠ some '0' := by
  rw [Nat.toDigits_eq_if (by decide)]
  split
  · next hlt =>
    rw [Nat.mod_eq_of_lt hlt] at h
    simpa [Nat.digitChar_eq_zero] using h
  · simpa [Nat.digitChar_eq_zero] using h

namespace Decimal

/-! ### Decimals -/

/-- A decimal without its sign. -/
def magnitude (d : Decimal) : Rat := d.coefficient * (10 : Rat) ^ d.exponent

theorem toRat_eq (d : Decimal) : d.toRat = if d.negative then -d.magnitude else d.magnitude := by
  unfold toRat magnitude
  split
  · exact neg_mul _ _
  · rfl

/-- **Stripping zeros** keeps the number, and leaves a coefficient that is no larger and no multiple
of ten, unless it is zero. -/
theorem stripZeros_spec (c : Nat) (e : Int) :
    ((stripZeros c e).1 : Rat) * 10 ^ (stripZeros c e).2 = c * 10 ^ e ∧
      (stripZeros c e).1 ≤ c ∧ (c ≠ 0 → (stripZeros c e).1 % 10 ≠ 0) := by
  induction c, e using stripZeros.induct with
  | case1 c e h ih =>
    obtain ⟨hvalue, hle, hlast⟩ := ih
    rw [stripZeros, dif_pos h]
    have hten : c = c / 10 * 10 := by omega
    refine ⟨?_, by omega, fun _ => hlast (by omega)⟩
    rw [hvalue, zpow_add₀ (by norm_num), zpow_one]
    conv_rhs => rw [hten]
    push_cast
    ring
  | case2 c e h =>
    rw [stripZeros, dif_neg h]
    exact ⟨rfl, le_rfl, fun hne hmod => h ⟨hne, hmod⟩⟩

theorem magnitude_normalize (d : Decimal) : d.normalize.magnitude = d.magnitude :=
  (stripZeros_spec d.coefficient d.exponent).1

theorem coefficient_normalize_le (d : Decimal) : d.normalize.coefficient ≤ d.coefficient :=
  (stripZeros_spec d.coefficient d.exponent).2.1

theorem coefficient_normalize_mod {d : Decimal} (h : d.coefficient ≠ 0) :
    d.normalize.coefficient % 10 ≠ 0 :=
  (stripZeros_spec d.coefficient d.exponent).2.2 h

/-! ### Positional text -/

theorem digits_ne_nil (c : Nat) : digits c ≠ [] := Nat.toDigits_ne_nil

/-- The digits of a coefficient behind so many zeros that one digit is left before the places. -/
def padded (c places : Nat) : List Char :=
  List.replicate (places + 1 - (digits c).length) '0' ++ digits c

section
variable {c : Nat} (places : Nat)

theorem lt_length_padded : places < (padded c places).length := by
  simp only [padded, List.length_append, List.length_replicate]
  omega

theorem isDigit_of_mem_padded : ∀ a ∈ padded c places, a.isDigit = true := by
  intro a ha
  obtain ha | ha := List.mem_append.mp ha
  · rw [List.eq_of_mem_replicate ha]
    rfl
  · exact Nat.isDigit_of_mem_toDigits (by decide) (by decide) ha

theorem ofDigitChars_padded : Nat.ofDigitChars 10 (padded c places) 0 = c := by
  rw [padded, Nat.ofDigitChars_append, Nat.ofDigitChars_replicate_zero, Nat.mul_zero, digits,
    Nat.ofDigitChars_ten_toDigits]

/-- A zero stands in front only if no digit of the coefficient is left before the places. -/
theorem length_padded_of_head? (hc : c ≠ 0) (h : (padded c places).head? = some '0') :
    (padded c places).length = places + 1 := by
  obtain hlt | hle := Nat.lt_or_ge places (digits c).length
  · rw [padded, Nat.sub_eq_zero_of_le hlt] at h
    exact absurd h (head?_toDigits_ne hc)
  · simp only [padded, List.length_append, List.length_replicate]
    omega

theorem getLast?_padded (hc : c % 10 ≠ 0) : (padded c places).getLast? ≠ some '0' := by
  rw [padded, List.getLast?_append_of_ne_nil _ (digits_ne_nil c)]
  exact getLast?_toDigits_ne hc

end

/-- The numeral of a sign and a magnitude that is written positionally. -/
def numeral (negative : Bool) (c : Nat) (e : Int) : PlainNumeral :=
  if 0 ≤ e then ⟨negative, digits c ++ List.replicate e.toNat '0', []⟩
  else
    let places := (-e).toNat
    let ds := padded c places
    ⟨negative, ds.take (ds.length - places), ds.drop (ds.length - places)⟩

section
variable {c : Nat} {e : Int} (negative : Bool)

theorem numeral_of_nonneg (h : 0 ≤ e) :
    numeral negative c e = ⟨negative, digits c ++ List.replicate e.toNat '0', []⟩ := if_pos h

theorem numeral_of_neg (h : ¬ 0 ≤ e) : numeral negative c e =
    ⟨negative, (padded c (-e).toNat).take ((padded c (-e).toNat).length - (-e).toNat),
      (padded c (-e).toNat).drop ((padded c (-e).toNat).length - (-e).toNat)⟩ := if_neg h

theorem chars_numeral : (numeral negative c e).chars =
    (if negative then ['-'] else []) ++ positional c e := by
  by_cases h : 0 ≤ e
  · rw [numeral_of_nonneg negative h, PlainNumeral.chars, positional]
    simp [h]
  · have hlt := lt_length_padded (c := c) (-e).toNat
    have hplaces : (padded c (-e).toNat).drop ((padded c (-e).toNat).length - (-e).toNat) ≠ [] := by
      rw [← List.length_pos_iff, List.length_drop]
      omega
    rw [numeral_of_neg negative h, PlainNumeral.chars, positional]
    dsimp only
    rw [if_neg hplaces, if_neg h, List.append_assoc]
    rfl

/-- **Positional text spells the magnitude.** -/
theorem toRat_numeral : (numeral negative c e).toRat =
    if negative then -((c : Rat) * 10 ^ e) else c * 10 ^ e := by
  by_cases h : 0 ≤ e
  · have hvalue : ((Nat.ofDigitChars 10 (digits c ++ List.replicate e.toNat '0' ++ []) 0 : Nat) :
        Rat) / 10 ^ ([] : List Char).length = c * 10 ^ e := by
      rw [List.append_nil, Nat.ofDigitChars_append, digits, Nat.ofDigitChars_ten_toDigits,
        Nat.ofDigitChars_replicate_zero, List.length_nil, pow_zero, div_one, Nat.cast_mul,
        Nat.cast_pow, ← zpow_natCast, Int.toNat_of_nonneg h, mul_comm]
      rfl
    rw [numeral_of_nonneg negative h, PlainNumeral.toRat]
    dsimp only
    rw [hvalue]
  · have hlt := lt_length_padded (c := c) (-e).toNat
    have hlen : (padded c (-e).toNat).length -
        ((padded c (-e).toNat).length - (-e).toNat) = (-e).toNat := by omega
    have hpow : (10 : Rat) ^ (-e).toNat = (10 ^ e)⁻¹ := by
      rw [← zpow_natCast, Int.toNat_of_nonneg (by omega), zpow_neg]
    rw [numeral_of_neg negative h, PlainNumeral.toRat]
    dsimp only
    rw [List.take_append_drop, ofDigitChars_padded, List.length_drop, hlen, hpow, div_inv_eq_mul]

/-- The numeral of a coefficient that is no multiple of ten is proper. -/
theorem isProper_numeral (hc : c % 10 ≠ 0) : (numeral negative c e).IsProper := by
  have hne : c ≠ 0 := by
    rintro rfl
    exact hc rfl
  have hzero : (numeral negative c e).toRat ≠ 0 := by
    have hpos : (c : Rat) * 10 ^ e ≠ 0 :=
      mul_ne_zero (Nat.cast_ne_zero.mpr hne) (zpow_ne_zero e (by norm_num))
    rw [toRat_numeral]
    split
    · exact neg_ne_zero.mpr hpos
    · exact hpos
  by_cases h : 0 ≤ e
  · rw [numeral_of_nonneg negative h] at hzero ⊢
    refine ⟨fun a ha => ?_, ?_, fun heq => ?_, nofun, fun heq => absurd heq hzero⟩
    · rw [List.append_nil] at ha
      obtain ha | ha := List.mem_append.mp ha
      · exact Nat.isDigit_of_mem_toDigits (by decide) (by decide) ha
      · rw [List.eq_of_mem_replicate ha]
        rfl
    · exact List.append_ne_nil_of_left_ne_nil (digits_ne_nil c) _
    · dsimp only at heq
      rw [List.head?_append_of_ne_nil _ (digits_ne_nil c)] at heq
      exact absurd heq (head?_toDigits_ne hne)
  · have hlt := lt_length_padded (c := c) (-e).toNat
    rw [numeral_of_neg negative h] at hzero ⊢
    refine ⟨?_, ?_, fun heq => ?_, ?_, fun heq => absurd heq hzero⟩
    · rw [List.take_append_drop]
      exact isDigit_of_mem_padded _
    · rw [← List.length_pos_iff, List.length_take]
      omega
    · rw [List.head?_take, if_neg (by omega)] at heq
      have hlen := length_padded_of_head? _ hne heq
      obtain ⟨ds, hds⟩ := List.head?_eq_some_iff.mp heq
      rw [hlen, Nat.add_sub_cancel_left, hds]
      rfl
    · rw [List.getLast?_drop, if_neg (by omega)]
      exact getLast?_padded _ hc

end

/-- **The plain text of a decimal spells it.** -/
theorem spells_plainText (d : Decimal) : Spells d.plainText d.toRat := by
  unfold plainText
  split
  · next hzero =>
    refine ⟨⟨false, ['0'], []⟩, PlainNumeral.isProper_zero, rfl, ?_⟩
    rw [toRat_eq, magnitude, hzero, Nat.cast_zero, zero_mul, neg_zero, ite_self]
    simp [PlainNumeral.toRat, Nat.ofDigitChars]
  · next hne =>
    refine ⟨numeral d.negative d.normalize.coefficient d.normalize.exponent,
      isProper_numeral _ (coefficient_normalize_mod hne), ?_, ?_⟩
    · rw [String.toList_ofList, chars_numeral]
    · rw [toRat_numeral, toRat_eq, ← magnitude_normalize]
      rfl

end Decimal

/-- **A thousandth is exact** up to 28 digits. -/
theorem spells_thousandth {d : Decimal} (h : (Decimal.digits d.coefficient).length ≤ 28) :
    Spells (thousandth d).plainText (d.toRat / 1000) := by
  have hround : thousandth d = d.shiftRight 3 := by
    unfold thousandth Decimal.roundTo
    exact if_pos (Nat.sub_eq_zero_of_le h)
  have hvalue : (d.shiftRight 3).toRat = d.toRat / 1000 := by
    unfold Decimal.shiftRight Decimal.toRat
    dsimp only
    rw [zpow_sub₀ (by norm_num), mul_div_assoc]
    norm_num
  rw [hround, ← hvalue]
  exact Decimal.spells_plainText _

end TimelineExport
