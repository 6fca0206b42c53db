import Mathlib.Data.List.Basic
import TimelineExport.Filter.Graph

/-!
# Labels that are given never repeat

A label is given for a stem as the stem followed by a number. As long as no stem ends in a digit,
the stem and the number can be read back from the label (`numbered_inj`), so two labels agree only
if stem and number do. A label that does not end in a digit is never a numbered one.

A label has the shape of a reference to an input's stream only if it starts with a digit; the
reference to a stream of input `n` is read back as `n`. `IsReference` says what a reference is; a
label is read as one exactly if it is one, or one that is followed by a line break
(`streamInput?_eq_some_iff`).
-/

namespace TimelineExport

/-! ### Stems and numbers -/

/-- A **stem** is a text that does not end in a digit. -/
def IsStem (stem : String) : Prop := ∀ c ∈ stem.toList.getLast?, c.isDigit = false

instance (stem : String) : Decidable (IsStem stem) :=
  decidable_of_iff ((stem.toList.getLast?.all fun c => !c.isDigit) = true)
    (by simp [IsStem, Option.all_eq_true])

/-- A stem with a number. -/
def numbered (stem : String) (n : Nat) : String := stem ++ toString n

theorem toList_numbered (stem : String) (n : Nat) :
    (numbered stem n).toList = stem.toList ++ Nat.toDigits 10 n := by
  simp [numbered]

theorem isDigit_of_mem_digits {n : Nat} {c : Char} (h : c ∈ Nat.toDigits 10 n) :
    c.isDigit = true :=
  Nat.isDigit_of_mem_toDigits (by decide) (by decide) h

/-- Taking the digits off the end of a numbered stem leaves the stem. -/
theorem dropWhile_reverse_numbered {stem : String} (h : IsStem stem) (n : Nat) :
    (numbered stem n).toList.reverse.dropWhile Char.isDigit = stem.toList.reverse := by
  have hdigits : ∀ c ∈ (Nat.toDigits 10 n).reverse, c.isDigit = true := fun c hc =>
    isDigit_of_mem_digits (List.mem_reverse.mp hc)
  rw [toList_numbered, List.reverse_append, List.dropWhile_append_of_pos hdigits]
  cases hs : stem.toList.reverse with
  | nil => rfl
  | cons c cs =>
    have hlast : stem.toList.getLast? = some c := by
      rw [← List.head?_reverse, hs, List.head?_cons]
    have hc : c.isDigit = false := h c hlast
    simp [hc]

/-- **Stem and number can be read back.** -/
theorem numbered_inj {s t : String} {m n : Nat} (hs : IsStem s) (ht : IsStem t) :
    numbered s m = numbered t n ↔ s = t ∧ m = n := by
  constructor
  · intro h
    have hst : s = t := by
      have hrev : s.toList.reverse = t.toList.reverse := by
        rw [← dropWhile_reverse_numbered hs m, ← dropWhile_reverse_numbered ht n, h]
      exact String.toList_injective (List.reverse_injective hrev)
    subst hst
    have hdigits : Nat.toDigits 10 m = Nat.toDigits 10 n := by
      have hlist := congrArg String.toList h
      rw [toList_numbered, toList_numbered] at hlist
      exact List.append_cancel_left hlist
    refine ⟨rfl, ?_⟩
    rw [← Nat.ofDigitChars_ten_toDigits (n := m), hdigits, Nat.ofDigitChars_ten_toDigits]
  · rintro ⟨rfl, rfl⟩
    rfl

/-- A text that does not end in a digit is no numbered stem. -/
theorem IsStem.ne_numbered {label : String} (h : IsStem label) (stem : String) (n : Nat) :
    label ≠ numbered stem n := by
  rintro rfl
  have hne : Nat.toDigits 10 n ≠ [] := Nat.toDigits_ne_nil
  have hlast : (numbered stem n).toList.getLast? = some ((Nat.toDigits 10 n).getLast hne) := by
    rw [toList_numbered, List.getLast?_append_of_ne_nil _ hne,
      List.getLast?_eq_getLast_of_ne_nil hne]
  have hfalse := h _ hlast
  rw [isDigit_of_mem_digits (List.getLast_mem hne)] at hfalse
  exact absurd hfalse (by decide)

/-! ### References to the streams of inputs -/

/-- The value of a digit of the Latin script. -/
theorem digitValue?_of_isDigit {c : Char} (h : c.isDigit = true) :
    digitValue? c = some (c.toNat - '0'.toNat) := by
  have hle : 48 ≤ c.toNat ∧ c.toNat < 58 := by
    simp only [Char.isDigit, Bool.and_eq_true, decide_eq_true_eq, ge_iff_le] at h
    have h1 := UInt32.le_iff_toNat_le.mp h.1
    have h2 := UInt32.le_iff_toNat_le.mp h.2
    exact ⟨h1, Nat.lt_succ_of_le h2⟩
  simp [digitValue?, digitZeros, hle]

theorem isDecimalDigit_of_mem_digits {n : Nat} {c : Char} (h : c ∈ Nat.toDigits 10 n) :
    isDecimalDigit c = true := by
  rw [isDecimalDigit, digitValue?_of_isDigit (isDigit_of_mem_digits h)]
  rfl

/-- A label that does not start with a digit refers to no input. -/
theorem streamOfChars?_cons_of_none {digit : Char → Option Nat} {c : Char} (h : digit c = none)
    (cs : List Char) : streamOfChars? digit none (c :: cs) = none := by
  rw [streamOfChars?]
  · rw [h]
  all_goals simp

/-- A **label stem** neither ends in a digit nor starts with one. -/
def IsLabelStem (stem : String) : Prop :=
  IsStem stem ∧ (stem.toList.head?.any fun c => (digitValue? c).isNone) = true

instance (stem : String) : Decidable (IsLabelStem stem) :=
  inferInstanceAs (Decidable (_ ∧ _))

/-- A numbered label stem refers to no input. -/
theorem IsLabelStem.streamInput?_numbered {stem : String} (h : IsLabelStem stem) (n : Nat) :
    streamInput? (numbered stem n) = none := by
  obtain ⟨c, hc, hnone⟩ := Option.any_eq_true _ _ |>.mp h.2
  obtain ⟨cs, hcs⟩ := List.head?_eq_some_iff.mp hc
  rw [streamInput?, toList_numbered, hcs, List.cons_append]
  exact streamOfChars?_cons_of_none (Option.isNone_iff_eq_none.mp hnone) _

/-- The number that digits of any script spell after a number that was read before. -/
def numberOfDigits (value : Nat) (ds : List Char) : Nat :=
  ds.foldl (fun n c => 10 * n + (digitValue? c).getD 0) value

/-- Digits of the Latin script spell the number that they denote. -/
theorem numberOfDigits_of_isDigit {ds : List Char} (h : ∀ c ∈ ds, c.isDigit = true) (value : Nat) :
    numberOfDigits value ds = Nat.ofDigitChars 10 ds value := by
  induction ds generalizing value with
  | nil => rfl
  | cons d ds ih =>
    obtain ⟨hd, hds⟩ := List.forall_mem_cons.mp h
    rw [numberOfDigits, List.foldl_cons, digitValue?_of_isDigit hd, Option.getD_some,
      Nat.ofDigitChars_cons]
    exact ih hds _

/-- Whether a character stands for a kind of stream: pictures or sound. -/
def IsStreamKind (kind : Char) : Prop := kind = 'v' ∨ kind = 'a'

/-- What may follow the digits of a reference: a colon, the kind of the stream, and one line
break or none. -/
def IsReferenceEnd (tail : List Char) : Prop :=
  ∃ kind, IsStreamKind kind ∧ (tail = [':', kind] ∨ tail = [':', kind, '\n'])

/-- Digits before a colon are read from left to right. -/
theorem streamOfChars?_append {tail : List Char} (htail : IsReferenceEnd tail) (ds : List Char)
    (value : Option Nat) (hds : ∀ c ∈ ds, isDecimalDigit c = true)
    (hvalue : ds ≠ [] ∨ value.isSome) :
    streamOfChars? digitValue? value (ds ++ tail) = some (numberOfDigits (value.getD 0) ds) := by
  induction ds generalizing value with
  | nil =>
    obtain ⟨n, rfl⟩ := Option.isSome_iff_exists.mp (hvalue.resolve_left fun h => h rfl)
    obtain ⟨kind, rfl | rfl, rfl | rfl⟩ := htail <;> simp [streamOfChars?, numberOfDigits]
  | cons d ds ih =>
    obtain ⟨hd, hds⟩ := List.forall_mem_cons.mp hds
    obtain ⟨m, hm⟩ := Option.isSome_iff_exists.mp hd
    have hcolon : d ≠ ':' := by
      rintro rfl
      exact absurd hd (by decide)
    have hstep : streamOfChars? digitValue? value (d :: (ds ++ tail)) =
        streamOfChars? digitValue? (some (10 * value.getD 0 + m)) (ds ++ tail) := by
      rw [streamOfChars?]
      · rw [hm]
      all_goals simp [hcolon]
    rw [List.cons_append, hstep, ih _ hds (.inr rfl), numberOfDigits, numberOfDigits,
      List.foldl_cons, hm, Option.getD_some, Option.getD_some]

/-- **What is read as a reference**: digits and one of the ends. -/
theorem streamOfChars?_eq_some_iff {value : Option Nat} {cs : List Char} {n : Nat} :
    streamOfChars? digitValue? value cs = some n ↔
      ∃ ds tail, cs = ds ++ tail ∧ IsReferenceEnd tail ∧
        (∀ c ∈ ds, isDecimalDigit c = true) ∧ (ds ≠ [] ∨ value.isSome) ∧
        numberOfDigits (value.getD 0) ds = n := by
  constructor
  · intro h
    -- the digits are those that the reader has used up before it comes to an end
    fun_induction streamOfChars? digitValue? value cs with
    | case1 m =>
      cases h
      exact ⟨[], _, rfl, ⟨'v', .inl rfl, .inl rfl⟩, by simp, .inr rfl, rfl⟩
    | case2 m =>
      cases h
      exact ⟨[], _, rfl, ⟨'a', .inr rfl, .inl rfl⟩, by simp, .inr rfl, rfl⟩
    | case3 m =>
      cases h
      exact ⟨[], _, rfl, ⟨'v', .inl rfl, .inr rfl⟩, by simp, .inr rfl, rfl⟩
    | case4 m =>
      cases h
      exact ⟨[], _, rfl, ⟨'a', .inr rfl, .inr rfl⟩, by simp, .inr rfl, rfl⟩
    | case5 value c cs _ _ _ _ d hd ih =>
      obtain ⟨ds, tail, rfl, htail, hds, -, rfl⟩ := ih h
      refine ⟨c :: ds, tail, rfl, htail, ?_, .inl (List.cons_ne_nil c ds), ?_⟩
      · exact List.forall_mem_cons.mpr ⟨Option.isSome_iff_exists.mpr ⟨d, hd⟩, hds⟩
      · rw [numberOfDigits, List.foldl_cons, hd]
        rfl
    | case6 | case7 => cases h
  · rintro ⟨ds, tail, rfl, htail, hds, hvalue, rfl⟩
    exact streamOfChars?_append htail ds value hds hvalue

/-- **A reference** to a stream of an input: digits that spell the number of the input, a colon,
and `v` or `a`. -/
def IsReference (label : String) (n : Nat) : Prop :=
  ∃ ds kind, label.toList = ds ++ [':', kind] ∧ IsStreamKind kind ∧ ds ≠ [] ∧
    (∀ c ∈ ds, isDecimalDigit c = true) ∧ numberOfDigits 0 ds = n

/-- A reference that is followed by a line break. -/
def IsBrokenReference (label : String) : Prop :=
  ∃ reference n, IsReference reference n ∧ label = reference ++ "\n"

/-- No reference ends in a line break. -/
theorem IsReference.getLast?_ne {label : String} {n : Nat} (h : IsReference label n) :
    label.toList.getLast? ≠ some '\n' := by
  obtain ⟨ds, kind, hlabel, hkind, -⟩ := h
  rw [hlabel, List.getLast?_append_of_ne_nil _ (List.cons_ne_nil _ _)]
  rcases hkind with rfl | rfl <;> decide

theorem IsBrokenReference.not_isReference {label : String} (h : IsBrokenReference label)
    (n : Nat) : ¬ IsReference label n := by
  obtain ⟨reference, k, -, rfl⟩ := h
  intro hreference
  refine hreference.getLast?_ne ?_
  rw [String.toList_append]
  exact List.getLast?_concat

/-- A label refers to an input if it is a reference, or one before a line break. -/
theorem streamInput?_eq_some_iff {label : String} {n : Nat} :
    streamInput? label = some n ↔
      IsReference label n ∨ ∃ reference, IsReference reference n ∧ label = reference ++ "\n" := by
  rw [streamInput?, streamOfChars?_eq_some_iff]
  constructor
  · rintro ⟨ds, tail, hlabel, ⟨kind, hkind, rfl | rfl⟩, hds, hne, hn⟩
    · exact .inl ⟨ds, kind, hlabel, hkind, hne.resolve_right (by simp), hds, hn⟩
    · refine .inr ⟨String.ofList (ds ++ [':', kind]), ⟨ds, kind, ?_, hkind, ?_, hds, hn⟩, ?_⟩
      · exact String.toList_ofList
      · exact hne.resolve_right (by simp)
      · refine String.toList_injective ?_
        rw [hlabel, String.toList_append, String.toList_ofList, List.append_assoc]
        rfl
  · rintro (⟨ds, kind, hlabel, hkind, hne, hds, hn⟩ |
      ⟨reference, ⟨ds, kind, hreference, hkind, hne, hds, hn⟩, rfl⟩)
    · exact ⟨ds, _, hlabel, ⟨kind, hkind, .inl rfl⟩, hds, .inl hne, hn⟩
    · refine ⟨ds, _, ?_, ⟨kind, hkind, .inr rfl⟩, hds, .inl hne, hn⟩
      rw [String.toList_append, hreference, List.append_assoc]
      rfl

/-- A reference to a stream of an input is read back. -/
theorem streamInput?_reference (n : Nat) {kind : String} (hkind : kind = "v" ∨ kind = "a") :
    streamInput? (toString n ++ ":" ++ kind) = some n := by
  have hdigits : ∀ c ∈ Nat.toDigits 10 n, c.isDigit = true := fun c => isDigit_of_mem_digits
  obtain ⟨c, hc, hlist⟩ : ∃ c, IsStreamKind c ∧ kind.toList = [c] := by
    rcases hkind with rfl | rfl
    · exact ⟨'v', .inl rfl, rfl⟩
    · exact ⟨'a', .inr rfl, rfl⟩
  refine streamInput?_eq_some_iff.mpr (.inl ⟨Nat.toDigits 10 n, c, ?_, hc, ?_, ?_, ?_⟩)
  · simp [hlist]
  · exact Nat.toDigits_ne_nil
  · exact fun d hd => isDecimalDigit_of_mem_digits hd
  · rw [numberOfDigits_of_isDigit hdigits, Nat.ofDigitChars_ten_toDigits]

/-- A reference begins with the digits of its number. -/
theorem leadingDigits_reference (n : Nat) (kind : String) :
    leadingDigits (toString n ++ ":" ++ kind) = (Nat.toDigits 10 n).length := by
  have hcolon : isDecimalDigit ':' = false := by decide
  have htext : (toString n ++ ":" ++ kind).toList =
      Nat.toDigits 10 n ++ ':' :: kind.toList := by simp
  rw [leadingDigits, htext, List.takeWhile_append_of_pos fun c => isDecimalDigit_of_mem_digits,
    List.takeWhile_cons_of_neg (Bool.eq_false_iff.mp hcolon), List.append_nil]

end TimelineExport
