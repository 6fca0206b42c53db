import TimelineExport.Proofs.Filter.Label
import TimelineExport.Proofs.Outcome

/-!
# What the closing check accepts

The closing check walks through the labels of a graph five times and fails with the first fault.
`Graph.IsAccounted` says without an order what it looks for: every stream is given once, the
outputs are kept, everything else is taken once, and references to inputs are in range. Which
labels are references is an argument of the predicate, since two readings are of interest: that of
the check itself, and `IsReference`, by which a reference is digits, a colon and a kind.

The check accepts exactly the graphs that are accounted for by its own reading and whose numbers
can be read (`Graph.validate_eq_ok_iff`). The two readings differ on a reference that is followed
by a line break. A graph that takes such a label is never accepted and accounted for by
`IsReference` at once, and one that takes a reference of too many digits is not accepted. So
acceptance and account agree unless one of them holds of a graph that takes such a label
(`Graph.accepts_accounted_iff`).
-/

namespace TimelineExport

variable {α : Type}

namespace Graph

/-- A check finds no fault exactly if no label has one. -/
theorem firstFault_eq_ok_iff {labels : List String} {fault? : String → Option GraphFault} :
    firstFault labels fault? = .ok () ↔ ∀ label ∈ labels, fault? label = none := by
  rw [firstFault, ← List.findSome?_eq_none_iff]
  split
  · next h => exact iff_of_false nofun (by simp [h])
  · next h => exact iff_of_true rfl h

/-- A chain takes a label that refers to no input. -/
def TakesPlain (g : Graph α) (refers : String → Nat → Prop) (label : String) : Prop :=
  label ∈ g.taken ∧ ∀ n, ¬ refers label n

/-- **A graph whose labels are accounted for**, over so many inputs and with the given outputs, if
`refers` says which labels refer to the streams of inputs. -/
structure IsAccounted (g : Graph α) (refers : String → Nat → Prop) (inputCount : Nat)
    (outputs : List String) : Prop where
  /-- No label is given twice. -/
  given_once : ∀ label, g.produced.count label ≤ 1
  /-- The outputs are given once and not taken. -/
  outputs_kept : ∀ label ∈ outputs,
    g.produced.count label = 1 ∧ ¬ g.TakesPlain refers label
  /-- What is taken, and refers to no input, is given and taken once. -/
  taken_once : ∀ label, g.TakesPlain refers label →
    label ∈ g.produced ∧ g.taken.count label = 1
  /-- What is given is taken, unless it is an output. -/
  given_taken : ∀ label ∈ g.produced, label ∉ outputs → g.TakesPlain refers label
  /-- References are to inputs that there are. -/
  in_range : ∀ label ∈ g.taken, ∀ n, refers label n → n < inputCount

variable {g : Graph α} {refers refers' : String → Nat → Prop} {inputCount : Nat}
  {outputs : List String}

/-- Only the reading of labels that are taken matters. -/
theorem IsAccounted.congr (h : g.IsAccounted refers inputCount outputs)
    (hrefers : ∀ label ∈ g.taken, ∀ n, refers label n ↔ refers' label n) :
    g.IsAccounted refers' inputCount outputs := by
  have hplain : ∀ label, g.TakesPlain refers label ↔ g.TakesPlain refers' label := fun label =>
    and_congr_right fun hlabel => forall_congr' fun n => not_congr (hrefers label hlabel n)
  exact {
    given_once := h.given_once
    outputs_kept := fun label hlabel =>
      (h.outputs_kept label hlabel).imp_right (mt (hplain label).mpr)
    taken_once := fun label hlabel => h.taken_once label ((hplain label).mpr hlabel)
    given_taken := fun label hlabel hout =>
      (hplain label).mp (h.given_taken label hlabel hout)
    in_range := fun label hlabel n hn =>
      h.in_range label hlabel n ((hrefers label hlabel n).mpr hn) }

/-- How the check reads a label. -/
def ReadsAsInput (label : String) (n : Nat) : Prop := streamInput? label = some n

theorem forall_not_readsAsInput_iff {label : String} :
    (∀ n, ¬ ReadsAsInput label n) ↔ streamInput? label = none :=
  Option.eq_none_iff_forall_ne_some.symm

/-- What is consumed is what is taken and refers to no input. -/
theorem mem_consumed_iff {label : String} :
    label ∈ g.consumed ↔ g.TakesPlain ReadsAsInput label := by
  rw [consumed, List.mem_filter, TakesPlain, forall_not_readsAsInput_iff,
    Option.isNone_iff_eq_none]

theorem count_consumed {label : String} (h : label ∈ g.consumed) :
    g.consumed.count label = g.taken.count label :=
  List.count_filter (List.mem_filter.mp h).2

/-! ### The five walks -/

/-- A label that refers to an input is in range if that input is there. -/
theorem missingInput?_eq_none_iff {label : String} :
    missingInput? inputCount label = none ↔ ∀ n, ReadsAsInput label n → n < inputCount := by
  cases hn : streamInput? label with
  | none => simp [missingInput?, ReadsAsInput, hn]
  | some n => simp [missingInput?, ReadsAsInput, hn]

/-- The number of an input can be read. -/
def HasReadableNumber (label : String) : Prop :=
  ∀ n, ReadsAsInput label n → leadingDigits label ≤ maxDigits

theorem overlongNumber?_eq_none_iff {label : String} :
    overlongNumber? label = none ↔ HasReadableNumber label := by
  cases hn : streamInput? label with
  | none => simp [overlongNumber?, HasReadableNumber, ReadsAsInput, hn]
  | some n => simp [overlongNumber?, HasReadableNumber, ReadsAsInput, hn]

theorem references_checked_iff :
    (firstFault g.taken fun label => (overlongNumber? label).or (missingInput? inputCount label)) =
        .ok () ↔
      (∀ label ∈ g.taken, HasReadableNumber label) ∧
        ∀ label ∈ g.taken, ∀ n, ReadsAsInput label n → n < inputCount := by
  simp only [firstFault_eq_ok_iff, Option.or_eq_none_iff, overlongNumber?_eq_none_iff,
    missingInput?_eq_none_iff, ← forall₂_and]

theorem produced_checked_iff :
    (firstFault g.produced fun label => if 1 < g.produced.count label then
      some (.producedTwice label (g.produced.count label)) else none) = .ok () ↔
      ∀ label, g.produced.count label ≤ 1 := by
  rw [firstFault_eq_ok_iff]
  constructor
  · intro h label
    by_cases hlabel : label ∈ g.produced
    · simpa using h label hlabel
    · rw [List.count_eq_zero_of_not_mem hlabel]
      exact Nat.zero_le 1
  · intro h label _
    exact if_neg (Nat.not_lt.mpr (h label))

theorem outputs_checked_iff :
    (firstFault outputs fun label =>
      if g.produced.count label ≠ 1 then some (.outputMissing label)
      else if g.consumed.contains label then some (.outputConsumed label) else none) = .ok () ↔
      ∀ label ∈ outputs, g.produced.count label = 1 ∧ ¬ g.TakesPlain ReadsAsInput label := by
  rw [firstFault_eq_ok_iff]
  refine forall₂_congr fun label _ => ?_
  rw [← mem_consumed_iff]
  by_cases hcount : g.produced.count label = 1 <;> simp [hcount]

theorem consumed_checked_iff :
    (firstFault g.consumed fun label =>
      if !g.produced.contains label then some (.neverProduced label)
      else if 1 < g.consumed.count label then
        some (.consumedTwice label (g.consumed.count label)) else none) = .ok () ↔
      ∀ label, g.TakesPlain ReadsAsInput label →
        label ∈ g.produced ∧ g.taken.count label = 1 := by
  rw [firstFault_eq_ok_iff]
  refine forall_congr' fun label => ?_
  rw [← mem_consumed_iff]
  refine forall_congr' fun hlabel => ?_
  have hpos : 0 < g.taken.count label := List.count_pos_iff.mpr (List.mem_of_mem_filter hlabel)
  rw [count_consumed hlabel]
  by_cases hgiven : label ∈ g.produced
  · simp [hgiven]
    omega
  · simp [hgiven]

theorem used_checked_iff :
    (firstFault g.produced fun label =>
      if !outputs.contains label && !g.consumed.contains label then some (.unused label)
      else none) = .ok () ↔
      ∀ label ∈ g.produced, label ∉ outputs → g.TakesPlain ReadsAsInput label := by
  rw [firstFault_eq_ok_iff]
  refine forall₂_congr fun label _ => ?_
  rw [← mem_consumed_iff]
  by_cases hout : label ∈ outputs <;> simp [hout]

/-- **The graphs that are accounted for**, as the check reads labels, are those of which every
reference is in range and every stream passes. -/
theorem isAccounted_iff :
    g.IsAccounted ReadsAsInput inputCount outputs ↔
      (∀ label ∈ g.taken, ∀ n, ReadsAsInput label n → n < inputCount) ∧
        g.checkStreams outputs = .ok () := by
  simp only [checkStreams, unit_bind_eq_ok, produced_checked_iff, outputs_checked_iff,
    consumed_checked_iff, used_checked_iff]
  constructor
  · rintro ⟨honce, houtputs, htaken, hgiven, hrange⟩
    exact ⟨hrange, honce, houtputs, htaken, hgiven⟩
  · rintro ⟨hrange, honce, houtputs, htaken, hgiven⟩
    exact ⟨honce, houtputs, htaken, hgiven, hrange⟩

/-- **What the closing check accepts**: the graphs that are accounted for, as it reads labels, and
whose numbers it can read. -/
theorem validate_eq_ok_iff :
    g.validate inputCount outputs = .ok () ↔
      g.IsAccounted ReadsAsInput inputCount outputs ∧ ∀ label ∈ g.taken, HasReadableNumber label := by
  rw [validate, unit_bind_eq_ok, references_checked_iff, isAccounted_iff, and_assoc]
  exact and_comm

/-- What is accepted if all numbers can be read. -/
theorem check_eq_ok_iff :
    g.check inputCount outputs = .ok () ↔ g.IsAccounted ReadsAsInput inputCount outputs := by
  simp only [check, unit_bind_eq_ok, firstFault_eq_ok_iff, missingInput?_eq_none_iff,
    isAccounted_iff]

/-! ### References before a line break -/

/-- A label that is no broken reference is read as what it is. -/
theorem readsAsInput_iff {label : String} (h : ¬ IsBrokenReference label) (n : Nat) :
    ReadsAsInput label n ↔ IsReference label n := by
  rw [ReadsAsInput, streamInput?_eq_some_iff]
  refine or_iff_left fun ⟨reference, hreference, heq⟩ => h ⟨reference, n, hreference, heq⟩

/-- A broken reference that is taken would have to be an output to be accepted, and no output to be
accounted for. -/
theorem not_isAccounted_of_isBrokenReference {label : String} (hlabel : label ∈ g.taken)
    (hbroken : IsBrokenReference label) (haccepted : g.validate inputCount outputs = .ok ()) :
    ¬ g.IsAccounted IsReference inputCount outputs := by
  intro haccounted
  have hplain : g.TakesPlain IsReference label := ⟨hlabel, hbroken.not_isReference⟩
  have hout : label ∈ outputs := by
    by_contra hout
    have hgiven : label ∈ g.produced := (haccounted.taken_once label hplain).1
    have hread := ((validate_eq_ok_iff.mp haccepted).1.given_taken label hgiven hout).2
    obtain ⟨reference, n, hreference, rfl⟩ := hbroken
    exact hread n (streamInput?_eq_some_iff.mpr (.inr ⟨reference, hreference, rfl⟩))
  exact (haccounted.outputs_kept label hout).2 hplain

/-- A reference whose number has more digits than can be read. -/
def IsOverlongReference (label : String) : Prop :=
  (∃ n, IsReference label n) ∧ maxDigits < leadingDigits label

/-- **Acceptance and account agree**, unless one of them holds of a graph that takes a reference
that is followed by a line break, or one of too many digits. -/
theorem accepts_accounted_iff (g : Graph α) (inputCount : Nat) (outputs : List String) :
    (g.validate inputCount outputs = .ok () ↔ g.IsAccounted IsReference inputCount outputs) ↔
      (g.validate inputCount outputs = .ok () ∨ g.IsAccounted IsReference inputCount outputs →
        ∀ label ∈ g.taken, ¬ IsBrokenReference label ∧ ¬ IsOverlongReference label) := by
  constructor
  · intro hagree hone label hlabel
    have haccepted : g.validate inputCount outputs = .ok () := hone.elim id hagree.mpr
    refine ⟨fun hbroken => ?_, fun ⟨⟨n, hreference⟩, hlong⟩ => ?_⟩
    · exact not_isAccounted_of_isBrokenReference hlabel hbroken haccepted (hagree.mp haccepted)
    · have hread : ReadsAsInput label n := streamInput?_eq_some_iff.mpr (.inl hreference)
      exact Nat.not_lt.mpr ((validate_eq_ok_iff.mp haccepted).2 label hlabel n hread) hlong
  · intro hwhole
    constructor
    · intro haccepted
      have hread := hwhole (.inl haccepted)
      exact (validate_eq_ok_iff.mp haccepted).1.congr fun label hlabel n =>
        readsAsInput_iff (hread label hlabel).1 n
    · intro haccounted
      have hread := hwhole (.inr haccounted)
      have hsame : ∀ label ∈ g.taken, ∀ n, ReadsAsInput label n ↔ IsReference label n :=
        fun label hlabel => readsAsInput_iff (hread label hlabel).1
      refine validate_eq_ok_iff.mpr ⟨haccounted.congr fun label hlabel n =>
        (hsame label hlabel n).symm, fun label hlabel n hn => ?_⟩
      by_contra hlong
      exact (hread label hlabel).2 ⟨⟨n, (hsame label hlabel n).mp hn⟩, Nat.not_le.mp hlong⟩

/-- A graph that passes on what it takes under a reference that is followed by a line break. -/
def brokenGraph : Graph Float :=
  { chains := [{ inputs := ["0:v\n"], filters := [{ name := "null" }], outputs := ["a"] }] }

/-- A reference that is followed by a line break is accepted although no chain gives it. -/
theorem broken_reference_is_accepted :
    brokenGraph.validate 1 ["a"] = .ok () ∧
      ¬ brokenGraph.IsAccounted IsReference 1 ["a"] := by
  have haccepted : brokenGraph.validate 1 ["a"] = .ok () := by rfl
  refine ⟨haccepted, not_isAccounted_of_isBrokenReference List.mem_cons_self ?_ haccepted⟩
  have hdigit : ∀ c ∈ ['0'], isDecimalDigit c = true := List.forall_mem_singleton.mpr rfl
  exact ⟨"0:v", 0, ⟨['0'], 'v', rfl, .inl rfl, List.cons_ne_nil _ _, hdigit, rfl⟩, rfl⟩

end Graph

end TimelineExport
