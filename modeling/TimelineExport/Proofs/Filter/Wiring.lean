import Mathlib.Data.List.Perm.Basic
import Mathlib.Data.List.Nodup
import TimelineExport.Compile.Fault
import TimelineExport.Proofs.Filter.Acceptance

/-!
# The wiring of a filter graph

`Graph.Closed` says what a finished graph is: every stream is given once and taken once, the
outputs are given and never taken, references to inputs are in range, a stream is taken only after
it was given, and filters that join streams are declared for as many as they get.

A graph under construction is not closed: some streams wait to be taken. `Graph.Wired` is the
invariant of such a graph; it lists the streams that wait (`live`). Each operation has one lemma:
`Wired.grow` and `Wired.place` replace live streams by a new one, `Wired.extend` keeps all of
them, and `Wired.relabel` renames one. A wired graph whose live streams are the outputs is closed,
and the closing check accepts it (`Wired.check`, `Wired.closed`), the one that reads the numbers of
the inputs too if there are not too many of them (`Wired.validate`).

All but the declarations of joining filters depends only on `Graph.wires`, that is on what each
chain takes and gives.
-/

namespace TimelineExport

variable {α : Type}

/-! ### What chains take and give -/

/-- What each chain takes and gives. -/
def Graph.wires (g : Graph α) : List (List String × List String) :=
  g.chains.map fun c => (c.inputs, c.outputs)

theorem Graph.produced_eq_flatMap_wires (g : Graph α) :
    g.produced = g.wires.flatMap (·.2) := by
  simp [Graph.produced, Graph.wires, List.flatMap_map]

theorem Graph.taken_eq_flatMap_wires (g : Graph α) : g.taken = g.wires.flatMap (·.1) := by
  simp [Graph.taken, Graph.wires, List.flatMap_map]

/-- Every stream that a chain takes, and that is no input's, was given by an earlier chain or
before. -/
def IsOrdered : (given : List String) → List (List String × List String) → Prop
  | _, [] => True
  | given, w :: ws =>
    (∀ label ∈ w.1, streamInput? label = none → label ∈ given) ∧ IsOrdered (given ++ w.2) ws

theorem isOrdered_append (ws vs : List (List String × List String)) (given : List String) :
    IsOrdered given (ws ++ vs) ↔
      IsOrdered given ws ∧ IsOrdered (given ++ ws.flatMap (·.2)) vs := by
  induction ws generalizing given with
  | nil => simp [IsOrdered]
  | cons w ws ih => simp [IsOrdered, ih, and_assoc]

/-- Renaming a stream that is no input's keeps the order. -/
theorem IsOrdered.rename {old new : String} (hold : streamInput? old = none)
    {given : List String} {ws : List (List String × List String)} (h : IsOrdered given ws) :
    IsOrdered (given.map (Graph.renamed old new))
      (ws.map fun w => (w.1.map (Graph.renamed old new), w.2.map (Graph.renamed old new))) := by
  induction ws generalizing given with
  | nil => trivial
  | cons w ws ih =>
    refine ⟨fun label hlabel hplain => ?_, ?_⟩
    · obtain ⟨l, hl, rfl⟩ := List.mem_map.mp hlabel
      have hl' : streamInput? l = none := by
        by_cases hlo : l = old
        · rw [hlo, hold]
        · simpa [Graph.renamed, hlo] using hplain
      exact List.mem_map_of_mem (h.1 l hl hl')
    · rw [← List.map_append]
      exact ih h.2

/-! ### Joining filters -/

/-- A filter that joins streams is declared for so many of them. -/
structure Filter.Fits (f : Filter α) (streams : Nat) : Prop where
  concat : f.name = "concat" → f.options.lookup "n" = some (.int streams)
  amix : f.name = "amix" → f.options.lookup "inputs" = some (.int streams)
  overlay : f.name = "overlay" → streams = 2

/-- A filter that joins no streams. -/
def Filter.IsSingle (f : Filter α) : Prop := f.name ∉ ["concat", "amix", "overlay"]

theorem Filter.IsSingle.fits {f : Filter α} (h : f.IsSingle) (streams : Nat) :
    f.Fits streams where
  concat hname := absurd (by simp [hname]) h
  amix hname := absurd (by simp [hname]) h
  overlay hname := absurd (by simp [hname]) h

/-- Every joining filter of a chain is declared for the streams that the chain takes. -/
def Chain.Fits (c : Chain α) : Prop := ∀ f ∈ c.filters, f.Fits c.inputs.length

/-! ### Finished graphs -/

/-- **A closed graph** over so many inputs, with the given outputs. -/
structure Graph.Closed (g : Graph α) (inputCount : Nat) (outputs : List String) : Prop where
  /-- A stream that occurs, and is no input's, is given by exactly one chain. -/
  produced_once : ∀ label ∈ g.produced ++ g.taken, streamInput? label = none →
    g.produced.count label = 1
  /-- It is taken exactly once, unless it is an output. -/
  taken_once : ∀ label ∈ g.produced ++ g.taken, streamInput? label = none →
    label ∉ outputs → g.taken.count label = 1
  /-- No chain gives a stream of an input. -/
  produced_plain : ∀ label ∈ g.produced, streamInput? label = none
  /-- The outputs are given once and never taken. -/
  outputs_free : ∀ label ∈ outputs, g.produced.count label = 1 ∧ label ∉ g.taken
  /-- References to inputs are in range. -/
  inputs_bounded : ∀ label ∈ g.taken, ∀ n ∈ streamInput? label, n < inputCount
  /-- A stream is taken only after it was given. -/
  ordered : ∀ before c after, g.chains = before ++ c :: after → ∀ label ∈ c.inputs,
    streamInput? label = none → ∃ d ∈ before, label ∈ d.outputs
  /-- Joining filters are declared for the streams that they get. -/
  fits : ∀ c ∈ g.chains, c.Fits

/-- In a closed graph, no stream is given twice. -/
theorem Graph.Closed.nodup_produced {g : Graph α} {inputCount : Nat} {outputs : List String}
    (h : g.Closed inputCount outputs) : g.produced.Nodup := by
  refine List.nodup_iff_count_le_one.mpr fun label => ?_
  by_cases hmem : label ∈ g.produced
  · exact Nat.le_of_eq (h.produced_once label (List.mem_append_left _ hmem)
      (h.produced_plain label hmem))
  · rw [List.count_eq_zero_of_not_mem hmem]
    exact Nat.zero_le 1

/-- Where no stream is given twice, a chain is the producer of its streams. -/
theorem Graph.producer?_eq_some {g : Graph α} (h : g.produced.Nodup) {c : Chain α}
    (hc : c ∈ g.chains) {label : String} (hlabel : label ∈ c.outputs) :
    g.producer? label = some c := by
  -- the first chain that gives the stream is the only one
  have hfind : ∀ cs : List (Chain α), (cs.flatMap (·.outputs)).Nodup → c ∈ cs →
      cs.find? (·.outputs.contains label) = some c := by
    intro cs hnodup hmem
    induction cs with
    | nil => exact absurd hmem List.not_mem_nil
    | cons d ds ih =>
      rw [List.flatMap_cons, List.nodup_append'] at hnodup
      obtain ⟨-, hnodup, hdisjoint⟩ := hnodup
      obtain rfl | hmem := List.mem_cons.mp hmem
      · exact List.find?_cons_of_pos (by simpa using hlabel)
      · have hnot : label ∉ d.outputs := fun hd =>
          hdisjoint hd (List.mem_flatMap.mpr ⟨c, hmem, hlabel⟩)
        rw [List.find?_cons_of_neg (by simpa using hnot)]
        exact ih hnodup hmem
  exact hfind g.chains h hc

/-! ### Changes in place -/

/-- A chain with a stream renamed. -/
def Chain.rename (old new : String) (c : Chain α) : Chain α :=
  { c with
    inputs := c.inputs.map (Graph.renamed old new)
    outputs := c.outputs.map (Graph.renamed old new) }

/-- A graph with a stream renamed. -/
def Graph.rename (old new : String) (g : Graph α) : Graph α :=
  { g with chains := g.chains.map (·.rename old new) }

/-- A stream that some chain gives can be renamed. -/
theorem Graph.relabel_eq_ok {g : Graph α} {old : String} (h : old ∈ g.produced) (new : String) :
    g.relabel old new = .ok (g.rename old new) := by
  obtain ⟨c, hc, hold⟩ := List.mem_flatMap.mp h
  have hsome : (g.producer? old).isNone = false := by
    rw [Graph.producer?, Option.isNone_eq_false_iff, List.find?_isSome]
    exact ⟨c, hc, by simpa using hold⟩
  simp [Graph.relabel, hsome, Graph.rename, Chain.rename]

/-- A stream that no chain gives cannot be renamed. -/
theorem Graph.relabel_eq_error {g : Graph α} {old : String} (h : old ∉ g.produced)
    (new : String) : g.relabel old new = .error (.unknownLabel old) := by
  have hnone : (g.producer? old).isNone = true := by
    rw [producer?, Option.isNone_iff_eq_none, List.find?_eq_none]
    exact fun c hc hcontains => h (List.mem_flatMap.mpr ⟨c, hc, by simpa using hcontains⟩)
  rw [relabel, if_pos hnone]

/-- A stream can be renamed exactly if some chain gives it. -/
theorem Graph.relabel_eq_ok_iff {g g' : Graph α} {old new : String} :
    g.relabel old new = .ok g' ↔ old ∈ g.produced ∧ g' = g.rename old new := by
  by_cases hold : old ∈ g.produced
  · rw [relabel_eq_ok hold, Except.ok.injEq, eq_comm, and_iff_right hold]
  · rw [relabel_eq_error hold]
    exact iff_of_false nofun fun h => hold h.1

theorem Graph.produced_rename (g : Graph α) (old new : String) :
    (g.rename old new).produced = g.produced.map (renamed old new) := by
  simp [produced, rename, Chain.rename, List.flatMap_map, List.map_flatMap]

theorem Graph.taken_rename (g : Graph α) (old new : String) :
    (g.rename old new).taken = g.taken.map (renamed old new) := by
  simp [taken, rename, Chain.rename, List.flatMap_map, List.map_flatMap]

/-- Renaming a label that does not occur changes nothing. -/
theorem map_renamed_of_not_mem {old new : String} {labels : List String} (h : old ∉ labels) :
    labels.map (Graph.renamed old new) = labels := by
  calc
    labels.map (Graph.renamed old new) = labels.map id :=
      List.map_congr_left fun l hl => if_neg fun (heq : l = old) => h (heq ▸ hl)
    _ = labels := List.map_id labels

theorem Graph.mem_extendFirst {label : String} {filters : List (Filter α)}
    {cs : List (Chain α)} {c : Chain α} (h : c ∈ extendFirst label filters cs) :
    c ∈ cs ∨ ∃ d ∈ cs, c = { d with filters := d.filters ++ filters } := by
  induction cs with
  | nil => exact absurd h List.not_mem_nil
  | cons d ds ih =>
    rw [extendFirst] at h
    split at h
    · obtain rfl | h := List.mem_cons.mp h
      · exact .inr ⟨d, List.mem_cons_self, rfl⟩
      · exact .inl (List.mem_cons_of_mem d h)
    · obtain rfl | h := List.mem_cons.mp h
      · exact .inl List.mem_cons_self
      · obtain h | ⟨d', hd', rfl⟩ := ih h
        · exact .inl (List.mem_cons_of_mem d h)
        · exact .inr ⟨d', List.mem_cons_of_mem d hd', rfl⟩

/-- Appending filters changes no stream. -/
theorem Graph.wires_extend (g : Graph α) (label : String) (filters : List (Filter α)) :
    (g.extend label filters).wires = g.wires := by
  have hchains : ∀ cs : List (Chain α), (extendFirst label filters cs).map
      (fun c => (c.inputs, c.outputs)) = cs.map fun c => (c.inputs, c.outputs) := by
    intro cs
    induction cs with
    | nil => rfl
    | cons c cs ih =>
      rw [extendFirst]
      split
      · rfl
      · rw [List.map_cons, List.map_cons, ih]
  exact hchains g.chains

theorem Graph.produced_extend (g : Graph α) (label : String) (filters : List (Filter α)) :
    (g.extend label filters).produced = g.produced := by
  rw [produced_eq_flatMap_wires, wires_extend, ← produced_eq_flatMap_wires]

theorem Graph.taken_extend (g : Graph α) (label : String) (filters : List (Filter α)) :
    (g.extend label filters).taken = g.taken := by
  rw [taken_eq_flatMap_wires, wires_extend, ← taken_eq_flatMap_wires]

/-! ### Labels that were given -/

/-- A label of a graph: one of the fixed names, or one that was given for a label stem. -/
def Graph.HasLabel (g : Graph α) (names : List String) (label : String) : Prop :=
  label ∈ names ∨
    ∃ stem n, IsLabelStem stem ∧ n < g.givenCount stem ∧ label = numbered stem n

private theorem lookup_filter_ne {stem other : String} (h : other ≠ stem) :
    ∀ given : List (String × Nat),
      (given.filter fun p => decide (p.1 ≠ stem)).lookup other = given.lookup other
  | [] => rfl
  | (key, n) :: given => by
    have ih := lookup_filter_ne h given
    by_cases hkey : key = stem
    · have hother : (other == key) = false := by simpa [hkey] using h
      rw [List.filter_cons_of_neg (by simp [hkey]), ih, List.lookup_cons, hother]
    · rw [List.filter_cons_of_pos (by simp [hkey]), List.lookup_cons, List.lookup_cons, ih]

/-- Giving a label counts it, and changes no other count. -/
theorem Graph.givenCount_newLabel (g : Graph α) (stem other : String) :
    (g.newLabel stem).2.givenCount other =
      if other = stem then g.givenCount stem + 1 else g.givenCount other := by
  by_cases h : other = stem
  · subst h
    simp [Graph.newLabel, Graph.givenCount]
  · have hne : (other == stem) = false := by simpa using h
    rw [if_neg h]
    simp only [Graph.newLabel, Graph.givenCount, List.lookup_cons, hne]
    rw [lookup_filter_ne h]

theorem Graph.givenCount_le_newLabel (g : Graph α) (stem other : String) :
    g.givenCount other ≤ (g.newLabel stem).2.givenCount other := by
  rw [givenCount_newLabel]
  split
  · next heq => exact heq ▸ Nat.le_succ _
  · exact Nat.le_refl _

theorem Graph.HasLabel.mono {g g' : Graph α} {names names' : List String} {label : String}
    (h : g.HasLabel names label) (hnames : names ⊆ names')
    (hgiven : ∀ stem, g.givenCount stem ≤ g'.givenCount stem) : g'.HasLabel names' label := by
  obtain hname | ⟨stem, n, hstem, hn, rfl⟩ := h
  · exact .inl (hnames hname)
  · exact .inr ⟨stem, n, hstem, Nat.lt_of_lt_of_le hn (hgiven stem), rfl⟩

/-- The next label for a stem is none of the labels so far. -/
theorem Graph.not_hasLabel_next {g : Graph α} {names : List String} {stem : String}
    (hstem : IsLabelStem stem) (hnames : ∀ name ∈ names, IsStem name) :
    ¬ g.HasLabel names (numbered stem (g.givenCount stem)) := by
  rintro (hname | ⟨other, n, hother, hn, heq⟩)
  · exact (hnames _ hname).ne_numbered stem _ rfl
  · obtain ⟨rfl, rfl⟩ := (numbered_inj hstem.1 hother.1).mp heq
    exact Nat.lt_irrefl _ hn

/-- A further fixed name is none of the labels so far. -/
theorem Graph.not_hasLabel_name {g : Graph α} {names : List String} {name : String}
    (hname : IsStem name) (hnew : name ∉ names) : ¬ g.HasLabel names name := by
  rintro (h | ⟨stem, n, -, -, heq⟩)
  · exact hnew h
  · exact hname.ne_numbered stem n heq

/-! ### Graphs under construction -/

/-- A reference is to one of so many inputs, and spells its number without leading zeros. -/
def IsReferenceBelow (inputCount : Nat) (label : String) : Prop :=
  ∀ n ∈ streamInput? label, n < inputCount ∧ leadingDigits label = (Nat.toDigits 10 n).length

/-- **A wired graph** over so many inputs: its labels are the fixed `names` or were given for
stems, and every stream that was given is taken once or is `live`. -/
structure Graph.Wired (g : Graph α) (inputCount : Nat) (names live : List String) : Prop where
  nodup : g.produced.Nodup
  hasLabel : ∀ label ∈ g.produced, g.HasLabel names label
  names_stem : ∀ name ∈ names, IsStem name
  plain : ∀ label ∈ g.produced, streamInput? label = none
  balance : (g.consumed ++ live).Perm g.produced
  bounded : ∀ label ∈ g.taken, IsReferenceBelow inputCount label
  ordered : IsOrdered [] g.wires
  fits : ∀ c ∈ g.chains, c.Fits

/-- Whether a label is no reference to an input's stream. -/
abbrev isPlain (label : String) : Bool := (streamInput? label).isNone

namespace Graph.Wired

variable {g : Graph α} {inputCount : Nat} {names live rest : List String}

/-- The order of the live streams does not matter. -/
theorem congr (h : g.Wired inputCount names live) (hperm : live.Perm rest) :
    g.Wired inputCount names rest :=
  { h with balance := (hperm.symm.append_left _).trans h.balance }

theorem mem_produced_of_live (h : g.Wired inputCount names live) {label : String}
    (hlabel : label ∈ live) : label ∈ g.produced :=
  h.balance.subset (List.mem_append_right _ hlabel)

/-- A live stream was not taken. -/
theorem not_mem_taken_of_live (h : g.Wired inputCount names live) {label : String}
    (hlabel : label ∈ live) : label ∉ g.taken := by
  intro htaken
  have hplain : streamInput? label = none := h.plain label (h.mem_produced_of_live hlabel)
  have hconsumed : label ∈ g.consumed := List.mem_filter.mpr ⟨htaken, by simp [hplain]⟩
  have hnodup : (g.consumed ++ live).Nodup := h.balance.nodup_iff.mpr h.nodup
  exact (List.disjoint_of_nodup_append hnodup) hconsumed hlabel

/-- **One chain more.** A chain that takes live streams and inputs, and gives a stream of a new
label, leaves the graph wired; its stream becomes live. -/
theorem append {label : String} {inputs : List String} {filters : List (Filter α)}
    {given : List (String × Nat)} {names' : List String}
    (h : g.Wired inputCount names live)
    (hlive : live.Perm (inputs.filter isPlain ++ rest))
    (hbounded : ∀ l ∈ inputs, IsReferenceBelow inputCount l)
    (hfits : Chain.Fits (⟨inputs, filters, [label]⟩ : Chain α))
    (hnew : label ∉ g.produced) (hplain : streamInput? label = none)
    (hstems : ∀ name ∈ names', IsStem name)
    (hlabels : ∀ l ∈ label :: g.produced,
      (⟨g.chains ++ [⟨inputs, filters, [label]⟩], given⟩ : Graph α).HasLabel names' l) :
    (⟨g.chains ++ [⟨inputs, filters, [label]⟩], given⟩ : Graph α).Wired inputCount names'
      (label :: rest) := by
  have hproduced : (⟨g.chains ++ [⟨inputs, filters, [label]⟩], given⟩ : Graph α).produced =
      g.produced ++ [label] := by simp [produced]
  have htaken : (⟨g.chains ++ [⟨inputs, filters, [label]⟩], given⟩ : Graph α).taken =
      g.taken ++ inputs := by simp [taken]
  have hwires : (⟨g.chains ++ [⟨inputs, filters, [label]⟩], given⟩ : Graph α).wires =
      g.wires ++ [(inputs, [label])] := by simp [wires]
  exact {
    nodup := by
      rw [hproduced]
      exact h.nodup.append (List.nodup_singleton _) (by simpa using hnew)
    hasLabel := fun l hl => by
      rw [hproduced] at hl
      exact hlabels l ((List.perm_append_singleton _ _).subset hl)
    names_stem := hstems
    plain := fun l hl => by
      rw [hproduced, List.mem_append, List.mem_singleton] at hl
      obtain hl | rfl := hl
      · exact h.plain l hl
      · exact hplain
    -- what the chain takes leaves the live streams, and what it gives joins them
    balance := by
      rw [consumed, htaken, hproduced, List.filter_append]
      calc
        (g.consumed ++ inputs.filter isPlain ++ label :: rest).Perm
            (label :: (g.consumed ++ (inputs.filter isPlain ++ rest))) := by
          rw [← List.append_assoc]
          exact List.perm_middle
        _ |>.Perm (label :: (g.consumed ++ live)) := (hlive.symm.append_left _).cons _
        _ |>.Perm (label :: g.produced) := h.balance.cons _
        _ |>.Perm (g.produced ++ [label]) := (List.perm_append_singleton _ _).symm
    bounded := fun l hl => by
      rw [htaken, List.mem_append] at hl
      exact hl.elim (h.bounded l) (hbounded l)
    ordered := by
      rw [hwires, isOrdered_append, List.nil_append, ← g.produced_eq_flatMap_wires]
      refine ⟨h.ordered, fun l hl hlplain => ?_, trivial⟩
      have hmem : l ∈ inputs.filter isPlain ++ rest :=
        List.mem_append_left _ (List.mem_filter.mpr ⟨hl, by simp [hlplain]⟩)
      exact h.mem_produced_of_live (hlive.symm.subset hmem)
    fits := fun c hc => by
      rw [List.mem_append, List.mem_singleton] at hc
      obtain hc | rfl := hc
      · exact h.fits c hc
      · exact hfits }

/-- A chain whose stream gets the next label of a stem. -/
theorem grow {stem : String} {inputs : List String} {filters : List (Filter α)}
    (h : g.Wired inputCount names live) (hstem : IsLabelStem stem)
    (hlive : live.Perm (inputs.filter isPlain ++ rest))
    (hbounded : ∀ l ∈ inputs, IsReferenceBelow inputCount l)
    (hfits : ∀ f ∈ filters, f.Fits inputs.length) :
    (g.grow stem inputs filters).2.Wired inputCount names
      ((g.grow stem inputs filters).1 :: rest) := by
  have hnext := not_hasLabel_next (g := g) hstem h.names_stem
  have hcount := g.givenCount_newLabel stem
  refine h.append hlive hbounded hfits (fun hmem => hnext (h.hasLabel _ hmem))
    (hstem.streamInput?_numbered _) h.names_stem fun l hl => ?_
  rw [List.mem_cons] at hl
  obtain rfl | hl := hl
  · refine .inr ⟨stem, g.givenCount stem, hstem, ?_, rfl⟩
    exact Nat.lt_of_lt_of_eq (Nat.lt_succ_self _) ((hcount stem).trans (if_pos rfl)).symm
  · exact (h.hasLabel l hl).mono (List.Subset.refl _) fun other =>
      g.givenCount_le_newLabel stem other

/-- A chain whose stream gets a new fixed name. -/
theorem place {name : String} {inputs : List String} {filters : List (Filter α)}
    (h : g.Wired inputCount names live) (hname : IsStem name) (hnew : name ∉ names)
    (hplain : streamInput? name = none) (hlive : live.Perm (inputs.filter isPlain ++ rest))
    (hbounded : ∀ l ∈ inputs, IsReferenceBelow inputCount l)
    (hfits : ∀ f ∈ filters, f.Fits inputs.length) :
    (g.place inputs filters name).Wired inputCount (name :: names) (name :: rest) := by
  refine h.append hlive hbounded hfits
    (fun hmem => not_hasLabel_name hname hnew (h.hasLabel _ hmem)) hplain
    (List.forall_mem_cons.mpr ⟨hname, h.names_stem⟩) fun l hl => ?_
  rw [List.mem_cons] at hl
  obtain rfl | hl := hl
  · exact .inl List.mem_cons_self
  · exact (h.hasLabel l hl).mono (List.subset_cons_self _ _) fun _ => Nat.le_refl _

/-- Filters that join no streams may be appended to any chain. -/
theorem extend (h : g.Wired inputCount names live) (label : String) {filters : List (Filter α)}
    (hsingle : ∀ f ∈ filters, f.IsSingle) :
    (g.extend label filters).Wired inputCount names live := by
  have hwires := g.wires_extend label filters
  have hproduced := g.produced_extend label filters
  have htaken := g.taken_extend label filters
  exact {
    nodup := hproduced ▸ h.nodup
    hasLabel := hproduced ▸ h.hasLabel
    names_stem := h.names_stem
    plain := hproduced ▸ h.plain
    balance := by
      rw [consumed, htaken, hproduced]
      exact h.balance
    bounded := htaken ▸ h.bounded
    ordered := hwires ▸ h.ordered
    fits := fun c hc => by
      obtain hc | ⟨d, hd, rfl⟩ := mem_extendFirst hc
      · exact h.fits c hc
      · intro f hf
        obtain hf | hf := List.mem_append.mp hf
        · exact h.fits d hd f hf
        · exact (hsingle f hf).fits _ }

/-- A live stream may be renamed to a new fixed name. -/
theorem rename {old new : String} (h : g.Wired inputCount names (old :: rest))
    (hname : IsStem new) (hnew : new ∉ names) (hplain : streamInput? new = none) :
    (g.rename old new).Wired inputCount (new :: names) (new :: rest) := by
  have hold : old ∈ g.produced := h.mem_produced_of_live List.mem_cons_self
  have holdPlain : streamInput? old = none := h.plain old hold
  have hfresh : new ∉ g.produced := fun hmem =>
    not_hasLabel_name hname hnew (h.hasLabel _ hmem)
  have hproduced := g.produced_rename old new
  have htaken : (g.rename old new).taken = g.taken := by
    rw [taken_rename]
    exact map_renamed_of_not_mem (h.not_mem_taken_of_live List.mem_cons_self)
  have hlive : (old :: rest).map (renamed old new) = new :: rest := by
    have hnodup : (g.consumed ++ old :: rest).Nodup := h.balance.nodup_iff.mpr h.nodup
    have hrest : old ∉ rest := (List.nodup_cons.mp hnodup.of_append_right).1
    rw [List.map_cons, map_renamed_of_not_mem hrest, renamed, if_pos rfl]
  have hconsumed : g.consumed.map (renamed old new) = g.consumed :=
    map_renamed_of_not_mem fun hmem =>
      h.not_mem_taken_of_live List.mem_cons_self (List.mem_of_mem_filter hmem)
  have hwires : (g.rename old new).wires =
      g.wires.map fun w => (w.1.map (renamed old new), w.2.map (renamed old new)) := by
    simp [wires, Graph.rename, Chain.rename]
  exact {
    -- the new name was not there, so no two labels become one
    nodup := by
      rw [hproduced]
      refine List.Nodup.map_on (fun l hl l' hl' heq => ?_) h.nodup
      by_cases hlo : l = old <;> by_cases hlo' : l' = old <;>
        simp only [renamed, hlo, hlo', if_true, if_false] at heq
      · rw [hlo, hlo']
      · exact absurd (heq ▸ hl') hfresh
      · exact absurd (heq ▸ hl) hfresh
      · exact heq
    hasLabel := fun l hl => by
      rw [hproduced] at hl
      obtain ⟨l', hl', rfl⟩ := List.mem_map.mp hl
      rw [renamed]
      split
      · exact .inl List.mem_cons_self
      · exact (h.hasLabel l' hl').mono (List.subset_cons_self _ _) fun _ => Nat.le_refl _
    names_stem := List.forall_mem_cons.mpr ⟨hname, h.names_stem⟩
    plain := fun l hl => by
      rw [hproduced] at hl
      obtain ⟨l', hl', rfl⟩ := List.mem_map.mp hl
      rw [renamed]
      split
      · exact hplain
      · exact h.plain l' hl'
    -- the old name is live, so it is not among what chains take
    balance := by
      have hbalance := h.balance.map (renamed old new)
      rw [List.map_append, hlive, hconsumed, ← hproduced] at hbalance
      rw [consumed, htaken]
      exact hbalance
    bounded := htaken ▸ h.bounded
    ordered := by
      rw [hwires]
      exact h.ordered.rename holdPlain
    fits := fun c hc f hf => by
      obtain ⟨d, hd, rfl⟩ := List.mem_map.mp hc
      have hlength : (d.rename old new).inputs.length = d.inputs.length := List.length_map _
      rw [hlength]
      exact h.fits d hd f hf }

/-! ### Wired graphs whose live streams are the outputs -/

variable {outputs : List String}

/-- A stream that is given once and was not left live is taken exactly once. -/
theorem count_taken (h : g.Wired inputCount names outputs) {label : String}
    (hlabel : label ∈ g.produced) (houtput : label ∉ outputs) : g.taken.count label = 1 := by
  have hplain : isPlain label = true := by simp [h.plain label hlabel]
  have hcount := h.balance.count_eq label
  rw [List.count_append, List.count_eq_zero.mpr houtput, Nat.add_zero,
    List.count_eq_one_of_mem h.nodup hlabel, consumed, List.count_filter hplain] at hcount
  exact hcount

/-- What is taken and is no input's was given. -/
theorem mem_produced_of_taken (h : g.Wired inputCount names live) {label : String}
    (hlabel : label ∈ g.taken) (hplain : streamInput? label = none) : label ∈ g.produced :=
  h.balance.subset (List.mem_append_left _ (List.mem_filter.mpr ⟨hlabel, by simp [hplain]⟩))

/-- **A wired graph whose live streams are the outputs is closed.** -/
theorem closed (h : g.Wired inputCount names outputs) : g.Closed inputCount outputs where
  produced_once label hlabel hplain := by
    have hmem : label ∈ g.produced :=
      (List.mem_append.mp hlabel).elim id fun ht => h.mem_produced_of_taken ht hplain
    exact List.count_eq_one_of_mem h.nodup hmem
  taken_once label hlabel hplain houtput := by
    have hmem : label ∈ g.produced :=
      (List.mem_append.mp hlabel).elim id fun ht => h.mem_produced_of_taken ht hplain
    exact h.count_taken hmem houtput
  produced_plain := h.plain
  outputs_free label hlabel :=
    ⟨List.count_eq_one_of_mem h.nodup (h.mem_produced_of_live hlabel),
      h.not_mem_taken_of_live hlabel⟩
  inputs_bounded label hlabel n hn := (h.bounded label hlabel n hn).1
  ordered before c after heq label hlabel hplain := by
    have hordered := h.ordered
    rw [wires, heq, List.map_append, isOrdered_append, List.map_cons] at hordered
    have hgiven := hordered.2.1 label hlabel hplain
    simpa [List.mem_flatMap] using hgiven
  fits := h.fits

/-- In a wired graph no stream is taken twice. -/
theorem count_taken_of_plain (h : g.Wired inputCount names live) {label : String}
    (hlabel : label ∈ g.taken) (hplain : streamInput? label = none) :
    g.taken.count label = 1 := by
  have hnodup : (g.consumed ++ live).Nodup := h.balance.nodup_iff.mpr h.nodup
  have hconsumed : label ∈ g.consumed := List.mem_filter.mpr ⟨hlabel, by simp [hplain]⟩
  rw [← count_consumed hconsumed]
  exact List.count_eq_one_of_mem hnodup.of_append_left hconsumed

/-- **The closing check accepts a wired graph whose live streams are the outputs.** -/
theorem check (h : g.Wired inputCount names outputs) : g.check inputCount outputs = .ok () := by
  refine check_eq_ok_iff.mpr ?_
  exact {
    given_once := List.nodup_iff_count_le_one.mp h.nodup
    outputs_kept := fun label hlabel =>
      ⟨List.count_eq_one_of_mem h.nodup (h.mem_produced_of_live hlabel),
        fun htaken => h.not_mem_taken_of_live hlabel htaken.1⟩
    taken_once := fun label hlabel => by
      have hplain := forall_not_readsAsInput_iff.mp hlabel.2
      exact ⟨h.mem_produced_of_taken hlabel.1 hplain, h.count_taken_of_plain hlabel.1 hplain⟩
    given_taken := fun label hlabel houtput => by
      have hone := h.count_taken hlabel houtput
      exact ⟨List.count_pos_iff.mp (hone ▸ Nat.one_pos),
        forall_not_readsAsInput_iff.mpr (h.plain label hlabel)⟩
    in_range := fun label hlabel n hn => (h.bounded label hlabel n hn).1 }

/-- **The number of every reference can be read** if there are not so many inputs that the number
of one has too many digits. -/
theorem validate (h : g.Wired inputCount names outputs)
    (hcount : ∀ n < inputCount, (Nat.toDigits 10 n).length ≤ maxDigits) :
    g.validate inputCount outputs = .ok () := by
  refine validate_eq_ok_iff.mpr ⟨check_eq_ok_iff.mp h.check, fun label hlabel n hn => ?_⟩
  obtain ⟨hlt, hdigits⟩ := h.bounded label hlabel n hn
  exact hdigits ▸ hcount n hlt

end Graph.Wired

end TimelineExport
