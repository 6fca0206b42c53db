import TimelineExport.Proofs.Filter.Wiring

/-!
# Renaming a stream of an accepted graph

Renaming a stream changes the labels of a graph and nothing else: chains, filters and the numbers
of labels given so far stay (`Graph.IsRenamed`), and renaming back restores the graph. A chain
feeds another one by a stream that is no input's (`Graph.Feeds`); whether these edges stay, and
whether the closing check still accepts the graph, depends on how the two names read.

A name that no chain takes may be changed to any name that does not occur. A name that is taken
may be changed exactly if both names are plain, or both refer to inputs that there are
(`relabel_accepted_iff`). The case that fails is that of a graph which gives an output the name of
an input's stream: renaming the output renames the stream of the input as well.
-/

namespace TimelineExport

variable {α : Type}

/-! ### One label under a renaming -/

namespace Graph

variable {old new label label' : String} {labels : List String}

theorem renamed_self (old new : String) : renamed old new old = new := if_pos rfl

theorem renamed_of_ne (h : label ≠ old) : renamed old new label = label := if_neg h

/-- A renaming to a name that is not there can be taken back. -/
theorem renamed_renamed (h : label ≠ new) : renamed new old (renamed old new label) = label := by
  by_cases hold : label = old
  · rw [hold, renamed_self, renamed_self]
  · rw [renamed_of_ne hold, renamed_of_ne h]

/-- Names that differ stay different. -/
theorem renamed_inj (h : label ≠ new) (h' : label' ≠ new) :
    renamed old new label = renamed old new label' ↔ label = label' := by
  constructor
  · intro heq
    calc
      label = renamed new old (renamed old new label) := (renamed_renamed h).symm
      _ = label' := by rw [heq, renamed_renamed h']
  · exact congrArg (renamed old new)

theorem map_renamed_renamed (h : new ∉ labels) :
    (labels.map (renamed old new)).map (renamed new old) = labels := by
  rw [List.map_map]
  calc
    labels.map (renamed new old ∘ renamed old new) = labels.map id :=
      List.map_congr_left fun l hl => renamed_renamed fun (heq : l = new) => h (heq ▸ hl)
    _ = labels := List.map_id labels

/-- A label becomes one that occurs as often as it did. -/
theorem count_map_renamed (hnew : new ∉ labels) (h : label ≠ new) :
    (labels.map (renamed old new)).count (renamed old new label) = labels.count label := by
  refine Nat.le_antisymm ?_ List.count_le_count_map
  calc
    (labels.map (renamed old new)).count (renamed old new label) ≤
        ((labels.map (renamed old new)).map (renamed new old)).count
          (renamed new old (renamed old new label)) := List.count_le_count_map
    _ = labels.count label := by rw [map_renamed_renamed hnew, renamed_renamed h]

end Graph

/-! ### Graphs that differ in their names -/

/-- A chain whose streams are named anew. -/
structure Chain.IsRenamed (name : String → String) (c d : Chain α) : Prop where
  inputs : d.inputs = c.inputs.map name
  filters : d.filters = c.filters
  outputs : d.outputs = c.outputs.map name

/-- **A graph whose streams are named anew**: the same chains with the same filters. -/
structure Graph.IsRenamed (name : String → String) (g g' : Graph α) : Prop where
  chains : List.Forall₂ (Chain.IsRenamed name) g.chains g'.chains
  given : g'.given = g.given

/-- **An edge**: one chain gives a stream that another one takes, and that is no input's. Chains
go by their numbers. -/
def Graph.Feeds (g : Graph α) (giver : Nat) (label : String) (taker : Nat) : Prop :=
  (∃ c, g.chains[giver]? = some c ∧ label ∈ c.outputs) ∧
    (∃ c, g.chains[taker]? = some c ∧ label ∈ c.inputs) ∧ streamInput? label = none

/-- Graphs with the same edges, but for the names. -/
def Graph.SameEdges (name : String → String) (g g' : Graph α) : Prop :=
  ∀ giver label' taker, g'.Feeds giver label' taker ↔
    ∃ label, name label = label' ∧ g.Feeds giver label taker

/-- Names that read alike: both are plain, or both refer to inputs, the new one to an input that
there is, by a number that can be read. -/
def ReadAlike (inputCount : Nat) (old new : String) : Prop :=
  (streamInput? old = none ∧ streamInput? new = none) ∨
    ((streamInput? old).isSome ∧ leadingDigits new ≤ maxDigits ∧
      ∃ n, streamInput? new = some n ∧ n < inputCount)

namespace Graph

variable {g : Graph α} {old new label : String} {inputCount : Nat} {outputs : List String}

theorem isRenamed_rename (g : Graph α) (old new : String) :
    g.IsRenamed (renamed old new) (g.rename old new) := by
  refine ⟨?_, rfl⟩
  rw [rename, List.forall₂_map_right_iff, List.forall₂_same]
  exact fun c _ => ⟨rfl, rfl, rfl⟩

/-- Renaming back restores the graph. -/
theorem rename_rename (hproduced : new ∉ g.produced) (htaken : new ∉ g.taken) :
    (g.rename old new).rename new old = g := by
  have hchains : ∀ c ∈ g.chains, (c.rename old new).rename new old = c := by
    intro c hc
    have hinputs : new ∉ c.inputs := fun h => htaken (List.mem_flatMap.mpr ⟨c, hc, h⟩)
    have houtputs : new ∉ c.outputs := fun h => hproduced (List.mem_flatMap.mpr ⟨c, hc, h⟩)
    rw [Chain.rename, Chain.rename, map_renamed_renamed hinputs, map_renamed_renamed houtputs]
  rw [rename, rename, List.map_map]
  refine congrArg (Graph.mk · g.given) ?_
  calc
    g.chains.map (Chain.rename new old ∘ Chain.rename old new) = g.chains.map id :=
      List.map_congr_left hchains
    _ = g.chains := List.map_id _

/-- What takes a stream after the renaming took it before. -/
theorem exists_taken_of_rename {label' : String} (h : label' ∈ (g.rename old new).taken) :
    ∃ label ∈ g.taken, renamed old new label = label' := by
  rw [taken_rename] at h
  exact List.mem_map.mp h

/-- A stream that is given goes by its new name as often. -/
theorem count_produced_rename (hproduced : new ∉ g.produced) (h : label ∈ g.produced) :
    (g.rename old new).produced.count (renamed old new label) = g.produced.count label := by
  rw [produced_rename, count_map_renamed hproduced fun heq => hproduced (heq ▸ h)]

/-- A plain label that is taken after the renaming comes from one that was so before. -/
theorem exists_takesPlain_of_rename {label' : String}
    (hplain : ∀ label ∈ g.taken,
      streamInput? (renamed old new label) = none ↔ streamInput? label = none)
    (h : (g.rename old new).TakesPlain ReadsAsInput label') :
    ∃ label, g.TakesPlain ReadsAsInput label ∧ renamed old new label = label' := by
  obtain ⟨label, hlabel, rfl⟩ := exists_taken_of_rename h.1
  have hnone := (hplain label hlabel).mp (forall_not_readsAsInput_iff.mp h.2)
  exact ⟨label, ⟨hlabel, forall_not_readsAsInput_iff.mpr hnone⟩, rfl⟩

/-- Outputs of a graph that is accounted for are given. -/
theorem IsAccounted.mem_produced {refers : String → Nat → Prop}
    (h : g.IsAccounted refers inputCount outputs) (hlabel : label ∈ outputs) :
    label ∈ g.produced :=
  List.count_pos_iff.mp ((h.outputs_kept label hlabel).1 ▸ Nat.one_pos)

/-- **Renaming keeps a graph accounted for**, if the labels that chains take stay plain or stay
references to inputs that there are. -/
theorem IsAccounted.rename (h : g.IsAccounted ReadsAsInput inputCount outputs)
    (hproduced : new ∉ g.produced) (htaken : new ∉ g.taken)
    (hplain : ∀ label ∈ g.taken,
      streamInput? (renamed old new label) = none ↔ streamInput? label = none)
    (hrange : ∀ label ∈ g.taken, ∀ n, ReadsAsInput (renamed old new label) n → n < inputCount) :
    (g.rename old new).IsAccounted ReadsAsInput inputCount (outputs.map (renamed old new)) := by
  have hne : ∀ label, g.TakesPlain ReadsAsInput label → label ≠ new := fun label hlabel heq =>
    htaken (heq ▸ hlabel.1)
  exact {
    given_once := fun label' => by
      by_cases hlabel' : label' ∈ (g.rename old new).produced
      · rw [produced_rename] at hlabel'
        obtain ⟨label, hlabel, rfl⟩ := List.mem_map.mp hlabel'
        rw [count_produced_rename hproduced hlabel]
        exact h.given_once label
      · rw [List.count_eq_zero_of_not_mem hlabel']
        exact Nat.zero_le 1
    outputs_kept := fun label' hlabel' => by
      obtain ⟨label, hlabel, rfl⟩ := List.mem_map.mp hlabel'
      have hgiven := h.mem_produced hlabel
      obtain ⟨hone, hkept⟩ := h.outputs_kept label hlabel
      refine ⟨(count_produced_rename hproduced hgiven).trans hone, fun htakes => ?_⟩
      obtain ⟨other, hother, heq⟩ := exists_takesPlain_of_rename hplain htakes
      have hnew : label ≠ new := fun hln => hproduced (hln ▸ hgiven)
      exact hkept ((renamed_inj (hne other hother) hnew).mp heq ▸ hother)
    taken_once := fun label' hlabel' => by
      obtain ⟨label, hlabel, rfl⟩ := exists_takesPlain_of_rename hplain hlabel'
      obtain ⟨hgiven, hone⟩ := h.taken_once label hlabel
      rw [produced_rename, taken_rename, count_map_renamed htaken (hne label hlabel)]
      exact ⟨List.mem_map_of_mem hgiven, hone⟩
    given_taken := fun label' hlabel' hnot => by
      rw [produced_rename] at hlabel'
      obtain ⟨label, hlabel, rfl⟩ := List.mem_map.mp hlabel'
      have hnotOut : label ∉ outputs := fun hmem => hnot (List.mem_map_of_mem hmem)
      obtain ⟨htake, hread⟩ := h.given_taken label hlabel hnotOut
      refine ⟨taken_rename g old new ▸ List.mem_map_of_mem htake, ?_⟩
      rw [forall_not_readsAsInput_iff] at hread ⊢
      exact (hplain label htake).mpr hread
    in_range := fun label' hlabel' n hn => by
      obtain ⟨label, hlabel, rfl⟩ := exists_taken_of_rename hlabel'
      exact hrange label hlabel n hn }

/-- If names read alike, the labels that chains take are plain as they were. -/
theorem plain_renamed_iff (hread : old ∈ g.taken → ReadAlike inputCount old new)
    (hlabel : label ∈ g.taken) :
    streamInput? (renamed old new label) = none ↔ streamInput? label = none := by
  by_cases heq : label = old
  · subst heq
    rw [renamed_self]
    obtain ⟨hold, hnew⟩ | ⟨hold, -, n, hnew, -⟩ := hread hlabel
    · rw [hold, hnew]
    · rw [hnew]
      exact iff_of_false nofun (Option.isSome_iff_ne_none.mp hold)
  · rw [renamed_of_ne heq]

/-- If names read alike, the edges stay. -/
theorem sameEdges_rename (hproduced : new ∉ g.produced) (htaken : new ∉ g.taken)
    (hread : old ∈ g.taken → ReadAlike inputCount old new) :
    g.SameEdges (renamed old new) (g.rename old new) := by
  have hchain : ∀ i c', (g.rename old new).chains[i]? = some c' ↔
      ∃ c, g.chains[i]? = some c ∧ Chain.rename old new c = c' := fun i c' => by
    rw [rename, List.getElem?_map, Option.map_eq_some_iff]
  intro giver label' taker
  constructor
  · rintro ⟨⟨c', hc', hout⟩, ⟨d', hd', hin⟩, hplain⟩
    obtain ⟨c, hc, rfl⟩ := (hchain giver c').mp hc'
    obtain ⟨d, hd, rfl⟩ := (hchain taker d').mp hd'
    obtain ⟨label, hlabel, rfl⟩ := List.mem_map.mp hout
    obtain ⟨other, hother, heq⟩ := List.mem_map.mp hin
    have hgiven : label ∈ g.produced :=
      List.mem_flatMap.mpr ⟨c, List.mem_of_getElem? hc, hlabel⟩
    have htake : other ∈ g.taken := List.mem_flatMap.mpr ⟨d, List.mem_of_getElem? hd, hother⟩
    have hsame : other = label := by
      refine (renamed_inj (fun h => htaken ?_) fun h => hproduced ?_).mp heq
      · exact h ▸ htake
      · exact h ▸ hgiven
    subst hsame
    exact ⟨other, rfl, ⟨c, hc, hlabel⟩, ⟨d, hd, hother⟩, (plain_renamed_iff hread htake).mp hplain⟩
  · rintro ⟨label, rfl, ⟨c, hc, hout⟩, ⟨d, hd, hin⟩, hplain⟩
    have htake : label ∈ g.taken := List.mem_flatMap.mpr ⟨d, List.mem_of_getElem? hd, hin⟩
    exact ⟨⟨_, (hchain giver _).mpr ⟨c, hc, rfl⟩, List.mem_map_of_mem hout⟩,
      ⟨_, (hchain taker _).mpr ⟨d, hd, rfl⟩, List.mem_map_of_mem hin⟩,
      (plain_renamed_iff hread htake).mpr hplain⟩

/-- If names read alike, the graph is accepted as it was. -/
theorem validate_rename (h : g.validate inputCount outputs = .ok ())
    (hproduced : new ∉ g.produced) (htaken : new ∉ g.taken)
    (hread : old ∈ g.taken → ReadAlike inputCount old new) :
    (g.rename old new).validate inputCount (outputs.map (renamed old new)) = .ok () := by
  obtain ⟨haccounted, hreadable⟩ := validate_eq_ok_iff.mp h
  -- what a chain takes under its old name is as it was; the new name reads alike
  have hreference : ∀ label ∈ g.taken, ∀ n, ReadsAsInput (renamed old new label) n →
      n < inputCount ∧ leadingDigits (renamed old new label) ≤ maxDigits := by
    intro label hlabel n hn
    by_cases heq : label = old
    · subst heq
      rw [renamed_self] at hn ⊢
      obtain ⟨-, hnone⟩ | ⟨-, hdigits, m, hsome, hm⟩ := hread hlabel
      · exact absurd (hnone.symm.trans hn) nofun
      · exact ⟨Option.some.inj (hsome.symm.trans hn) ▸ hm, hdigits⟩
    · rw [renamed_of_ne heq] at hn ⊢
      exact ⟨haccounted.in_range label hlabel n hn, hreadable label hlabel n hn⟩
  refine validate_eq_ok_iff.mpr ⟨haccounted.rename hproduced htaken
    (fun label hlabel => plain_renamed_iff hread hlabel)
    fun label hlabel n hn => (hreference label hlabel n hn).1, fun label' hlabel' n hn => ?_⟩
  obtain ⟨label, hlabel, rfl⟩ := exists_taken_of_rename hlabel'
  exact (hreference label hlabel n hn).2

/-- **A renaming that is accepted** has not changed how a label reads that a chain takes. -/
theorem readAlike_of_validate_rename (h : g.validate inputCount outputs = .ok ())
    (hold : old ∈ g.produced) (hproduced : new ∉ g.produced)
    (hafter : (g.rename old new).validate inputCount (outputs.map (renamed old new)) = .ok ())
    (htake : old ∈ g.taken) : ReadAlike inputCount old new := by
  have hbefore := (validate_eq_ok_iff.mp h).1
  obtain ⟨hafter, hreadable⟩ := validate_eq_ok_iff.mp hafter
  have hgiven : new ∈ (g.rename old new).produced :=
    produced_rename g old new ▸ List.mem_map.mpr ⟨old, hold, renamed_self old new⟩
  have htake' : new ∈ (g.rename old new).taken :=
    taken_rename g old new ▸ List.mem_map.mpr ⟨old, htake, renamed_self old new⟩
  have hout : new ∈ outputs.map (renamed old new) ↔ old ∈ outputs := by
    refine ⟨fun hmem => ?_, fun hmem => List.mem_map.mpr ⟨old, hmem, renamed_self old new⟩⟩
    obtain ⟨label, hlabel, heq⟩ := List.mem_map.mp hmem
    by_contra hnot
    have hne : label ≠ old := fun hlo => hnot (hlo ▸ hlabel)
    exact hproduced (heq ▸ (renamed_of_ne hne).symm ▸ hbefore.mem_produced hlabel)
  cases hreadOld : streamInput? old with
  | none =>
    cases hreadNew : streamInput? new with
    | none => exact .inl ⟨hreadOld, hreadNew⟩
    | some n =>
      -- the old name was taken and so no output; the new one is given and seems not to be taken
      have hplain : g.TakesPlain ReadsAsInput old :=
        ⟨htake, forall_not_readsAsInput_iff.mpr hreadOld⟩
      have hnot : old ∉ outputs := fun hmem => (hbefore.outputs_kept old hmem).2 hplain
      exact absurd hreadNew ((hafter.given_taken new hgiven (mt hout.mp hnot)).2 n)
  | some m =>
    cases hreadNew : streamInput? new with
    | none =>
      -- the old name seemed not to be taken and so was an output; the new one is taken
      have hmem : old ∈ outputs := by
        by_contra hnot
        exact (hbefore.given_taken old hold hnot).2 m hreadOld
      exact absurd ⟨htake', forall_not_readsAsInput_iff.mpr hreadNew⟩
        (hafter.outputs_kept new (hout.mpr hmem)).2
    | some n =>
      have hrange := hafter.in_range new htake' n hreadNew
      exact .inr ⟨Option.isSome_iff_exists.mpr ⟨m, hreadOld⟩, hreadable new htake' n hreadNew,
        n, hreadNew, hrange⟩

/-- **Renaming a stream.** A name that no chain gives is refused. Where a chain gives it, and the
new name does not occur, the graph is the same but for the name and is restored by renaming back;
an accepted graph is accepted afterwards, with the same edges, exactly if no chain takes the
stream or both names read alike. -/
theorem relabel_accepted_iff (g : Graph α) (old new : String) :
    (old ∉ g.produced → g.relabel old new = .error (.unknownLabel old)) ∧
      ∀ inputCount outputs, g.validate inputCount outputs = .ok () → old ∈ g.produced →
        new ∉ g.produced → new ∉ g.taken →
        ∃ g', g.relabel old new = .ok g' ∧ g.IsRenamed (renamed old new) g' ∧
          g'.relabel new old = .ok g ∧
          (g'.validate inputCount (outputs.map (renamed old new)) = .ok () ∧
              g.SameEdges (renamed old new) g' ↔
            (old ∈ g.taken → ReadAlike inputCount old new)) := by
  refine ⟨fun hold => relabel_eq_error hold new,
    fun inputCount outputs haccepted hold hproduced htaken => ?_⟩
  refine ⟨g.rename old new, relabel_eq_ok hold new, isRenamed_rename g old new, ?_, ?_⟩
  · have hgiven : new ∈ (g.rename old new).produced :=
      produced_rename g old new ▸ List.mem_map.mpr ⟨old, hold, renamed_self old new⟩
    rw [relabel_eq_ok hgiven, rename_rename hproduced htaken]
  · constructor
    · exact fun hafter htake =>
        readAlike_of_validate_rename haccepted hold hproduced hafter.1 htake
    · exact fun hread => ⟨validate_rename haccepted hproduced htaken hread,
        sameEdges_rename hproduced htaken hread⟩

/-- Two chains in a row. -/
def rowGraph : Graph Float :=
  { chains := [
      { inputs := ["0:v"], filters := [{ name := "null" }], outputs := ["v0"] },
      { inputs := ["v0"], filters := [{ name := "null" }], outputs := ["vout"] }] }

/-- The stream between two chains gets another name; it still leads from the one to the other. -/
theorem rowGraph_keeps_edge :
    rowGraph.validate 1 ["vout"] = .ok () ∧ "v0" ∈ rowGraph.produced ∧
      "middle" ∉ rowGraph.produced ∧ "middle" ∉ rowGraph.taken ∧
      ∃ g', rowGraph.relabel "v0" "middle" = .ok g' ∧ g'.validate 1 ["vout"] = .ok () ∧
        g'.Feeds 0 "middle" 1 ∧ g'.relabel "middle" "v0" = .ok rowGraph := by
  have haccepted : rowGraph.validate 1 ["vout"] = .ok () := by rfl
  have hgiven : "v0" ∈ rowGraph.produced := by decide
  have hproduced : "middle" ∉ rowGraph.produced := by decide
  have htaken : "middle" ∉ rowGraph.taken := by decide
  obtain ⟨g', hg', -, hback, hiff⟩ := (relabel_accepted_iff rowGraph "v0" "middle").2 1 ["vout"]
    haccepted hgiven hproduced htaken
  obtain ⟨hafter, hedges⟩ := hiff.mpr fun _ => .inl ⟨by decide, by decide⟩
  refine ⟨haccepted, hgiven, hproduced, htaken, g', hg', hafter, ?_, hback⟩
  have hedge : rowGraph.Feeds 0 "v0" 1 :=
    ⟨⟨_, rfl, List.mem_cons_self⟩, ⟨_, rfl, List.mem_cons_self⟩, by decide⟩
  exact (hedges 0 "middle" 1).mpr ⟨"v0", by decide, hedge⟩

/-- A graph that gives its output the name of the input's stream. -/
def mirrorGraph : Graph Float :=
  { chains := [{ inputs := ["0:v"], filters := [{ name := "null" }], outputs := ["0:v"] }] }

/-- Renaming the output renames the stream of the input too, so that the chain takes what it
gives. -/
theorem mirrorGraph_refused_after_renaming :
    mirrorGraph.validate 1 ["0:v"] = .ok () ∧ "0:v" ∈ mirrorGraph.produced ∧
      "vout" ∉ mirrorGraph.produced ∧ "vout" ∉ mirrorGraph.taken ∧ streamInput? "vout" = none ∧
      ∃ g', mirrorGraph.relabel "0:v" "vout" = .ok g' ∧
        g'.validate 1 (["0:v"].map (renamed "0:v" "vout")) =
          .error (.outputConsumed "vout") := by
  refine ⟨by rfl, by decide, by decide, by decide, by decide, _, rfl, by rfl⟩

end Graph

end TimelineExport
