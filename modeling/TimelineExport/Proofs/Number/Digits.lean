import Mathlib.Data.List.TakeWhile
import TimelineExport.Number.Numeral

/-!
# Numerals of digits alone

A text of digits, of any script and in a decimal sequence or not, has neither blanks nor signs nor
underscores. So it is an integer numeral exactly if it is not empty and all its digits are in
decimal sequences (`Numeral.readInt?_isSome_iff`).
-/

namespace TimelineExport

/-! ### Digits -/

theorem isDecimalDigit_iff {c : Char} :
    isDecimalDigit c = true ↔ ∃ first ∈ digitZeros, first ≤ c.toNat ∧ c.toNat < first + 10 := by
  simp only [isDecimalDigit, digitValue?, Option.isSome_map, List.find?_isSome, Bool.and_eq_true,
    decide_eq_true_eq]

/-- A digit of ASCII is a digit in a decimal sequence. -/
theorem isDecimalDigit_of_isDigit {c : Char} (h : c.isDigit = true) : isDecimalDigit c = true := by
  simp only [Char.isDigit, Bool.and_eq_true, decide_eq_true_eq] at h
  have hlow : 48 ≤ c.toNat := h.1
  have hhigh : c.toNat ≤ 57 := h.2
  exact isDecimalDigit_iff.mpr ⟨48, List.mem_cons_self, hlow, by omega⟩

/-- The code points of white space, as inclusive ranges. -/
def spaceRanges : List (Nat × Nat) := [
  (0x9, 0xd), (0x20, 0x20), (0x85, 0x85), (0xa0, 0xa0), (0x1680, 0x1680), (0x2000, 0x200a),
  (0x2028, 0x2029), (0x202f, 0x202f), (0x205f, 0x205f), (0x3000, 0x3000)]

theorem isSpace_iff {c : Char} :
    isSpace c = true ↔ ∃ range ∈ spaceRanges, range.1 ≤ c.toNat ∧ c.toNat ≤ range.2 := by
  simp only [isSpace, spaceRanges, List.mem_cons, List.not_mem_nil, or_false, exists_eq_or_imp,
    exists_eq_left, Bool.or_eq_true, Bool.and_eq_true, decide_eq_true_eq, beq_iff_eq]
  omega

/-- The code points of digits, as inclusive ranges. -/
def digitRanges : List (Nat × Nat) :=
  digitZeros.map (fun first => (first, first + 9)) ++ otherDigitRanges

theorem isDigitLike_iff {c : Char} :
    isDigitLike c = true ↔ ∃ range ∈ digitRanges, range.1 ≤ c.toNat ∧ c.toNat ≤ range.2 := by
  rw [isDigitLike, Bool.or_eq_true, isDecimalDigit_iff, List.any_eq_true]
  simp only [digitRanges, List.mem_append, List.mem_map, or_and_right, exists_or,
    Bool.and_eq_true, decide_eq_true_eq]
  refine or_congr ?_ Iff.rfl
  constructor
  · rintro ⟨first, hfirst, hlow, hhigh⟩
    exact ⟨_, ⟨first, hfirst, rfl⟩, hlow, Nat.le_of_lt_succ hhigh⟩
  · rintro ⟨_, ⟨first, hfirst, rfl⟩, hlow, hhigh⟩
    exact ⟨first, hfirst, hlow, Nat.lt_succ_of_le hhigh⟩

/-- A digit is no blank. -/
theorem isSpace_of_isDigitLike {c : Char} (h : isDigitLike c = true) : isSpace c = false := by
  have hapart : ∀ digits ∈ digitRanges, ∀ spaces ∈ spaceRanges,
      digits.2 < spaces.1 ∨ spaces.2 < digits.1 := by decide +kernel
  obtain ⟨digits, hdigits, hlow, hhigh⟩ := isDigitLike_iff.mp h
  refine Bool.eq_false_iff.mpr fun hspace => ?_
  obtain ⟨spaces, hspaces, hlow', hhigh'⟩ := isSpace_iff.mp hspace
  have hranges := hapart digits hdigits spaces hspaces
  omega

/-! ### Numerals -/

namespace Numeral

/-- Without underscores, a run of characters is what stands before the first one of another kind. -/
theorem run_eq_of_notMem {p : Char → Bool} {cs : List Char} (h : '_' ∉ cs) :
    run p cs = (cs.takeWhile p, cs.dropWhile p) := by
  fun_induction run p cs with
  | case1 => rfl
  | case2 c d cs | case3 c d cs | case4 c d cs => simp at h
  | case5 c cs _ hc ds rest hrun ih =>
    have htail := ih fun hmem => h (List.mem_cons_of_mem c hmem)
    rw [hrun] at htail
    rw [List.takeWhile_cons_of_pos hc, List.dropWhile_cons_of_pos hc, (Prod.mk.inj htail).1,
      (Prod.mk.inj htail).2]
  | case6 c cs _ hc => rw [List.takeWhile_cons_of_neg hc, List.dropWhile_cons_of_neg hc]

/-- How a character is written in ASCII, if it is a digit of a decimal sequence. -/
def foldDigit (c : Char) : Char :=
  match digitValue? c with
  | some n => Char.ofNat (48 + n)
  | none => c

theorem foldDigits_eq_map (cs : List Char) : foldDigits cs = cs.map foldDigit := rfl

theorem isDigit_foldDigit (c : Char) : (foldDigit c).isDigit = isDecimalDigit c := by
  simp only [foldDigit]
  cases hvalue : digitValue? c with
  | none =>
    have hdecimal : isDecimalDigit c = false := by rw [isDecimalDigit, hvalue]; rfl
    rw [hdecimal, Bool.eq_false_iff]
    exact fun hdigit => Bool.eq_false_iff.mp hdecimal (isDecimalDigit_of_isDigit hdigit)
  | some n =>
    have hdecimal : isDecimalDigit c = true := by rw [isDecimalDigit, hvalue]; rfl
    rw [hdecimal]
    obtain ⟨first, hfirst, rfl⟩ := Option.map_eq_some_iff.mp hvalue
    have hrange := List.find?_some hfirst
    simp only [Bool.and_eq_true, decide_eq_true_eq] at hrange
    have hdigits : ∀ n < 10, (Char.ofNat (48 + n)).isDigit = true := by decide
    exact hdigits _ (by omega)

/-- What is written for a digit is a digit too. -/
theorem isDigitLike_foldDigit {c : Char} (h : isDigitLike c = true) :
    isDigitLike (foldDigit c) = true := by
  cases hc : isDecimalDigit c with
  | true =>
    rw [isDigitLike, isDecimalDigit_of_isDigit ((isDigit_foldDigit c).trans hc), Bool.true_or]
  | false =>
    have hnone : digitValue? c = none := Option.not_isSome_iff_eq_none.mp (Bool.eq_false_iff.mp hc)
    simpa only [foldDigit, hnone] using h

theorem trimWhile_eq_self {p : Char → Bool} {cs : List Char} (h : ∀ c ∈ cs, p c = false) :
    trimWhile p cs = cs := by
  have hdrop {cs : List Char} (h : ∀ c ∈ cs, p c = false) : cs.dropWhile p = cs := by
    rcases cs with _ | ⟨c, cs⟩
    · rfl
    · exact List.dropWhile_cons_of_neg (Bool.eq_false_iff.mp (h c List.mem_cons_self))
  rw [trimWhile, dropEndWhile, hdrop h, hdrop fun c hc => h c (List.mem_reverse.mp hc),
    List.reverse_reverse]

/-- **A text of digits alone** is an integer numeral just if it is not empty and all its digits are
in decimal sequences. -/
theorem readInt?_isSome_iff {s : String} (h : ∀ c ∈ s.toList, isDigitLike c = true) :
    (readInt? s).isSome ↔ s.toList ≠ [] ∧ ∀ c ∈ s.toList, isDecimalDigit c = true := by
  rw [readInt?, trimWhile_eq_self fun c hc => isSpace_of_isDigitLike (h c hc), foldDigits_eq_map]
  generalize s.toList = cs at h
  have hfolded : ∀ c ∈ cs.map foldDigit, isDigitLike c = true :=
    List.forall_mem_map.mpr fun c hc => isDigitLike_foldDigit (h c hc)
  -- Neither a sign nor an underscore is a digit.
  have hsign : sign (cs.map foldDigit) = (false, cs.map foldDigit) := by
    unfold sign
    split
    · next hcs => exact absurd (hfolded '-' (hcs ▸ List.mem_cons_self)) (by decide)
    · next hcs => exact absurd (hfolded '+' (hcs ▸ List.mem_cons_self)) (by decide)
    · rfl
  have hunderscore : '_' ∉ cs.map foldDigit := fun hmem => absurd (hfolded _ hmem) (by decide)
  have hrun := run_eq_of_notMem (p := Char.isDigit) hunderscore
  simp only [int?, hsign, hrun]
  by_cases hall : ∀ c ∈ cs, isDecimalDigit c = true
  · have hdigits : ∀ c ∈ cs.map foldDigit, c.isDigit = true :=
      List.forall_mem_map.mpr fun c hc => (isDigit_foldDigit c).trans (hall c hc)
    rw [List.takeWhile_eq_self_iff.mpr hdigits, List.dropWhile_eq_nil_iff.mpr hdigits]
    rcases cs with _ | ⟨c, cs⟩
    · simp
    · exact iff_of_true rfl ⟨List.cons_ne_nil c cs, hall⟩
  · have hrest : (cs.map foldDigit).dropWhile Char.isDigit ≠ [] := by
      rw [ne_eq, List.dropWhile_eq_nil_iff, List.forall_mem_map]
      simpa only [isDigit_foldDigit] using hall
    refine iff_of_false ?_ fun hcs => hall hcs.2
    split
    · simp
    · next hnil =>
      exact absurd (Prod.mk.inj hnil).2 hrest
    · simp

end Numeral

end TimelineExport
