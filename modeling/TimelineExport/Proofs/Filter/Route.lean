import Mathlib.Data.List.NodupEquivFin
import Mathlib.Logic.Relation
import TimelineExport.Proofs.Filter.Wiring

/-!
# Paths through a filter graph

A chain links each stream that it takes from another chain to each stream that it gives. A path is
a list of such links, by their numbers, each of which leads on from where the one before it ends
(`Graph.IsPath`); numbers, because a chain that took a stream twice would have two links that look
alike. A chain reaches another one if streams lead from the first to the second
(`Graph.Reaches`). References to the streams of inputs link no chains.

In a wired graph with one live stream, whose chains give one stream each, exactly one path leads
from every stream to the live one (`Wired.existsUnique_isPath`). This stays so if the graph is
built onto other chains that do not know its streams (`Graph.onto`), and no chain of the one part
reaches one of the other (`Wired.reaches_onto`).
-/

namespace TimelineExport

variable {α : Type}

/-! ### Links and paths -/

/-- A stream that a chain takes from another chain, and one that it gives. -/
structure Link (α : Type) where
  source : String
  via : Chain α
  target : String

/-- What a chain links. -/
def Chain.links (c : Chain α) : List (Link α) :=
  (c.inputs.filter isPlain).flatMap fun source => c.outputs.map fun target => ⟨source, c, target⟩

/-- What the chains of a graph link, in order. -/
def Graph.links (g : Graph α) : List (Link α) := g.chains.flatMap Chain.links

/-- **A path** from a stream to a stream: the numbers of links that lead on from one another. -/
def Graph.IsPath (g : Graph α) : String → List Nat → String → Prop
  | source, [], target => source = target
  | source, n :: path, target =>
    ∃ link, g.links[n]? = some link ∧ link.source = source ∧ g.IsPath link.target path target

theorem Chain.mem_links {c : Chain α} {link : Link α} :
    link ∈ c.links ↔ link.via = c ∧ (link.source ∈ c.inputs ∧ isPlain link.source) ∧
      link.target ∈ c.outputs := by
  constructor
  · intro h
    obtain ⟨source, hsource, h⟩ := List.mem_flatMap.mp h
    obtain ⟨target, htarget, rfl⟩ := List.mem_map.mp h
    exact ⟨rfl, List.mem_filter.mp hsource, htarget⟩
  · rintro ⟨rfl, hsource, htarget⟩
    refine List.mem_flatMap.mpr ⟨link.source, List.mem_filter.mpr hsource, ?_⟩
    exact List.mem_map.mpr ⟨link.target, htarget, rfl⟩

theorem Graph.mem_links {g : Graph α} {link : Link α} :
    link ∈ g.links ↔ link.via ∈ g.chains ∧ (link.source ∈ link.via.inputs ∧ isPlain link.source) ∧
      link.target ∈ link.via.outputs := by
  constructor
  · intro h
    obtain ⟨c, hc, h⟩ := List.mem_flatMap.mp h
    obtain ⟨rfl, h⟩ := Chain.mem_links.mp h
    exact ⟨hc, h⟩
  · rintro ⟨hc, h⟩
    exact List.mem_flatMap.mpr ⟨link.via, hc, Chain.mem_links.mpr ⟨rfl, h⟩⟩

/-- A stream has as many links as it is taken, if what takes it gives one stream. -/
theorem Graph.count_source_links {g : Graph α} {label : String} (hplain : isPlain label)
    (hsingle : ∀ c ∈ g.chains, label ∈ c.inputs → ∃ l, c.outputs = [l]) :
    (g.links.map (·.source)).count label = g.taken.count label := by
  have hchain : ∀ c ∈ g.chains, (c.links.map (·.source)).count label = c.inputs.count label := by
    intro c hc
    by_cases hlabel : label ∈ c.inputs
    · obtain ⟨l, hl⟩ := hsingle c hc hlabel
      have hsources : c.links.map (·.source) = c.inputs.filter isPlain := by
        simp [Chain.links, hl, List.map_flatMap]
      rw [hsources, List.count_filter hplain]
    · have hnot : label ∉ c.links.map (·.source) := fun hmem => by
        obtain ⟨link, hlink, rfl⟩ := List.mem_map.mp hmem
        exact hlabel (Chain.mem_links.mp hlink).2.1.1
      rw [List.count_eq_zero_of_not_mem hnot, List.count_eq_zero_of_not_mem hlabel]
  rw [links, taken, List.map_flatMap, List.count_flatMap, List.count_flatMap]
  exact congrArg List.sum (List.map_congr_left hchain)

/-- What occurs once in a list has one place there. -/
theorem place_eq_of_count_eq_one {β : Type} [DecidableEq β] {xs : List β} {x : β}
    (h : xs.count x = 1) {i j : Nat} (hi : xs[i]? = some x) (hj : xs[j]? = some x) : i = j := by
  have hnot : ¬ xs.Duplicate x := fun hdup => by
    have htwo := List.duplicate_iff_two_le_count.mp hdup
    omega
  obtain ⟨hilt, hi⟩ := List.getElem?_eq_some_iff.mp hi
  obtain ⟨hjlt, hj⟩ := List.getElem?_eq_some_iff.mp hj
  by_contra hne
  refine hnot (List.duplicate_iff_exists_distinct_get.mpr ?_)
  obtain hlt | hlt := Nat.lt_or_gt_of_ne hne
  · exact ⟨⟨i, hilt⟩, ⟨j, hjlt⟩, hlt, hi.symm, hj.symm⟩
  · exact ⟨⟨j, hjlt⟩, ⟨i, hilt⟩, hlt, hj.symm, hi.symm⟩

/-- If a label occurs once in several lists together, only one of them has it. -/
theorem eq_of_count_flatMap_eq_one {β γ : Type} [DecidableEq γ] {f : β → List γ} {xs : List β}
    {label : γ} (h : (xs.flatMap f).count label = 1) {x y : β} (hx : x ∈ xs) (hy : y ∈ xs)
    (hlabelx : label ∈ f x) (hlabely : label ∈ f y) : x = y := by
  by_contra hne
  obtain ⟨before, after, rfl⟩ := List.append_of_mem hy
  have hrest : x ∈ before ++ after := by
    rw [List.mem_append, List.mem_cons] at hx
    exact List.mem_append.mpr (hx.imp_right fun h => h.resolve_left hne)
  have hpos : 0 < (f y).count label := List.count_pos_iff.mpr hlabely
  have hpos' : 0 < ((before ++ after).flatMap f).count label :=
    List.count_pos_iff.mpr (List.mem_flatMap.mpr ⟨x, hrest, hlabelx⟩)
  rw [List.flatMap_append, List.flatMap_cons, List.count_append, List.count_append] at h
  rw [List.flatMap_append, List.count_append] at hpos'
  omega

/-- From a stream that is never taken, only the empty path leads anywhere. -/
theorem Graph.existsUnique_isPath_self {g : Graph α} {label : String} (h : label ∉ g.taken) :
    ∃! path, g.IsPath label path label := by
  refine ⟨[], rfl, fun path hpath => ?_⟩
  cases path with
  | nil => rfl
  | cons n path =>
    obtain ⟨link, hlink, rfl, -⟩ := hpath
    obtain ⟨hvia, ⟨hsource, -⟩, -⟩ := mem_links.mp (List.mem_of_getElem? hlink)
    exact absurd (List.mem_flatMap.mpr ⟨link.via, hvia, hsource⟩) h

/-- Paths from a stream that is taken once go on from what is given there. -/
theorem Graph.existsUnique_isPath_of_taken {g : Graph α} {label next target : String} {c : Chain α}
    (hne : label ≠ target) (hplain : isPlain label) (honce : g.taken.count label = 1)
    (hc : c ∈ g.chains) (hlabel : label ∈ c.inputs) (hnext : c.outputs = [next])
    (hpath : ∃! path, g.IsPath next path target) : ∃! path, g.IsPath label path target := by
  -- no other chain takes the stream, so its only link is that of the chain
  have htakers : ∀ d ∈ g.chains, label ∈ d.inputs → d = c := fun d hd hlabel' =>
    eq_of_count_flatMap_eq_one honce hd hc hlabel' hlabel
  have hlinks : (g.links.map (·.source)).count label = 1 := by
    rw [count_source_links hplain fun d hd hd' => ⟨next, htakers d hd hd' ▸ hnext⟩]
    exact honce
  have hlink : ∀ link ∈ g.links, link.source = label → link = ⟨label, c, next⟩ := by
    rintro ⟨source, via, final⟩ hmem rfl
    obtain ⟨hvia, ⟨hsource, -⟩, hfinal⟩ := mem_links.mp hmem
    obtain rfl := htakers via hvia hsource
    rw [hnext, List.mem_singleton] at hfinal
    rw [show final = next from hfinal]
  have hmem : (⟨label, c, next⟩ : Link α) ∈ g.links :=
    mem_links.mpr ⟨hc, ⟨hlabel, hplain⟩, by rw [hnext]; exact List.mem_singleton_self next⟩
  obtain ⟨n, hn⟩ := List.getElem?_of_mem hmem
  obtain ⟨path, hpath, hunique⟩ := hpath
  refine ⟨n :: path, ⟨_, hn, rfl, hpath⟩, fun other hother => ?_⟩
  cases other with
  | nil => exact absurd hother hne
  | cons m rest =>
    obtain ⟨link, hm, hsource, hrest⟩ := hother
    obtain rfl := hlink link (List.mem_of_getElem? hm) hsource
    have hplace : ∀ i, g.links[i]? = some (⟨label, c, next⟩ : Link α) →
        (g.links.map (·.source))[i]? = some label := fun i hi => by
      rw [List.getElem?_map, hi, Option.map_some]
    rw [place_eq_of_count_eq_one hlinks (hplace m hm) (hplace n hn), hunique rest hrest]

/-! ### What reaches what -/

/-- A chain gives a stream that another one takes. -/
def Chain.Feeds (c d : Chain α) : Prop := ∃ label ∈ c.outputs, isPlain label ∧ label ∈ d.inputs

/-- **Streams lead from a chain to another one**, or the two are the same. -/
def Graph.Reaches (g : Graph α) : Chain α → Chain α → Prop :=
  Relation.ReflTransGen fun c d => d ∈ g.chains ∧ c.Feeds d

/-! ### Graphs on top of other chains -/

/-- A graph whose chains come after other ones. -/
def Graph.onto (g : Graph α) (chains : List (Chain α)) : Graph α :=
  { g with chains := chains ++ g.chains }

/-- Other chains neither give nor take what a graph gives. -/
def Graph.IsApartFrom (g : Graph α) (chains : List (Chain α)) : Prop :=
  ∀ c ∈ chains, ∀ label ∈ c.outputs ++ c.inputs, label ∉ g.produced

@[simp]
theorem Graph.produced_onto (g : Graph α) (chains : List (Chain α)) :
    (g.onto chains).produced = chains.flatMap (·.outputs) ++ g.produced := by
  simp [onto, produced]

@[simp]
theorem Graph.taken_onto (g : Graph α) (chains : List (Chain α)) :
    (g.onto chains).taken = chains.flatMap (·.inputs) ++ g.taken := by
  simp [onto, taken]

theorem Graph.mem_chains_onto {g : Graph α} {chains : List (Chain α)} {c : Chain α} :
    c ∈ (g.onto chains).chains ↔ c ∈ chains ∨ c ∈ g.chains :=
  List.mem_append

namespace Graph.IsApartFrom

variable {g : Graph α} {chains : List (Chain α)} {label : String}

theorem not_mem_outputs (h : g.IsApartFrom chains) (hlabel : label ∈ g.produced) {c : Chain α}
    (hc : c ∈ chains) : label ∉ c.outputs :=
  fun hmem => h c hc label (List.mem_append_left _ hmem) hlabel

theorem not_mem_inputs (h : g.IsApartFrom chains) (hlabel : label ∈ g.produced) {c : Chain α}
    (hc : c ∈ chains) : label ∉ c.inputs :=
  fun hmem => h c hc label (List.mem_append_right _ hmem) hlabel

/-- What a graph gives is given as often on top of other chains. -/
theorem count_produced (h : g.IsApartFrom chains) (hlabel : label ∈ g.produced) :
    (g.onto chains).produced.count label = g.produced.count label := by
  have hnot : label ∉ chains.flatMap (·.outputs) := fun hmem => by
    obtain ⟨c, hc, hmem⟩ := List.mem_flatMap.mp hmem
    exact h.not_mem_outputs hlabel hc hmem
  rw [produced_onto, List.count_append, List.count_eq_zero_of_not_mem hnot, Nat.zero_add]

/-- What a graph gives is taken as often on top of other chains. -/
theorem count_taken (h : g.IsApartFrom chains) (hlabel : label ∈ g.produced) :
    (g.onto chains).taken.count label = g.taken.count label := by
  have hnot : label ∉ chains.flatMap (·.inputs) := fun hmem => by
    obtain ⟨c, hc, hmem⟩ := List.mem_flatMap.mp hmem
    exact h.not_mem_inputs hlabel hc hmem
  rw [taken_onto, List.count_append, List.count_eq_zero_of_not_mem hnot, Nat.zero_add]

/-- What a path from a stream of a graph passes through are chains of the graph, which take streams
of chains. -/
theorem via_mem_of_isPath (h : g.IsApartFrom chains) {path : List Nat} {target : String}
    (hlabel : label ∈ g.produced) (hpath : (g.onto chains).IsPath label path target) :
    ∀ n ∈ path, ∃ link, (g.onto chains).links[n]? = some link ∧
      link.via ∈ g.chains ∧ ∃ l ∈ link.via.inputs, isPlain l := by
  induction path generalizing label with
  | nil => exact fun _ hn => absurd hn List.not_mem_nil
  | cons n path ih =>
    obtain ⟨link, hlink, rfl, hrest⟩ := hpath
    obtain ⟨hvia, ⟨hsource, hplain⟩, htarget⟩ := mem_links.mp (List.mem_of_getElem? hlink)
    have hmem : link.via ∈ g.chains := (mem_chains_onto.mp hvia).resolve_left fun hother =>
      h.not_mem_inputs hlabel hother hsource
    refine List.forall_mem_cons.mpr ⟨⟨link, hlink, hmem, link.source, hsource, hplain⟩, ?_⟩
    exact ih (List.mem_flatMap.mpr ⟨link.via, hmem, htarget⟩) hrest

end Graph.IsApartFrom

namespace Graph.Wired

variable {g : Graph α} {inputCount : Nat} {names live : List String} {out : String}
  {chains : List (Chain α)}

/-- A chain that takes a stream comes after the one that gives it. -/
theorem mem_after_of_mem_inputs (h : g.Wired inputCount names live) {before after : List (Chain α)}
    {c d : Chain α} (hsplit : g.chains = before ++ c :: after) {label : String}
    (hgiven : label ∈ c.outputs) (hd : d ∈ g.chains) (htaken : label ∈ d.inputs) : d ∈ after := by
  have hplain : streamInput? label = none :=
    h.plain label (List.mem_flatMap.mpr ⟨c, by simp [hsplit], hgiven⟩)
  -- otherwise a chain before the one that gives the stream gives it as well
  have honce : ¬ ∃ b ∈ before, label ∈ b.outputs := by
    rintro ⟨b, hb, hmem⟩
    have hnodup := h.nodup
    rw [produced, hsplit, List.flatMap_append, List.flatMap_cons] at hnodup
    exact List.disjoint_of_nodup_append hnodup (List.mem_flatMap.mpr ⟨b, hb, hmem⟩)
      (List.mem_append_left _ hgiven)
  have hmem : d ∈ before ++ c :: after := hsplit ▸ hd
  rw [List.mem_append, List.mem_cons] at hmem
  obtain hbefore | rfl | hafter := hmem
  · obtain ⟨first, rest, rfl⟩ := List.append_of_mem hbefore
    have hearly := h.closed.ordered first d (rest ++ c :: after) (by simp [hsplit]) label htaken
      hplain
    obtain ⟨b, hb, hmem⟩ := hearly
    exact absurd ⟨b, List.mem_append_left _ hb, hmem⟩ honce
  · exact absurd (h.closed.ordered before d after hsplit label htaken hplain) honce
  · exact hafter

/-- **Every stream leads to the live one, by exactly one path**, if every chain gives one stream.
So it is on top of other chains that do not know the streams. -/
theorem existsUnique_isPath (h : g.Wired inputCount names [out])
    (hsingle : ∀ c ∈ g.chains, ∃ l, c.outputs = [l]) (hapart : g.IsApartFrom chains)
    {label : String} (hlabel : label ∈ g.produced) :
    ∃! path, (g.onto chains).IsPath label path out := by
  -- the induction is on the chains from the end, because a stream is taken after it was given
  have hafter : ∀ after before, g.chains = before ++ after → ∀ c ∈ after, ∀ label ∈ c.outputs,
      ∃! path, (g.onto chains).IsPath label path out := by
    intro after
    induction after with
    | nil => exact fun _ _ _ hc => absurd hc List.not_mem_nil
    | cons c after ih =>
      intro before hsplit
      have hrest : ∀ d ∈ after, ∀ label ∈ d.outputs,
          ∃! path, (g.onto chains).IsPath label path out :=
        ih (before ++ [c]) (by simp [hsplit])
      refine List.forall_mem_cons.mpr ⟨fun label hgiven => ?_, hrest⟩
      have hmem : label ∈ g.produced := List.mem_flatMap.mpr ⟨c, by simp [hsplit], hgiven⟩
      by_cases hout : label = out
      · have huntaken : label ∉ (g.onto chains).taken := by
          rw [← List.count_eq_zero, hapart.count_taken hmem, List.count_eq_zero, hout]
          exact h.not_mem_taken_of_live (List.mem_singleton_self out)
        rw [← hout]
        exact existsUnique_isPath_self huntaken
      · have honce : g.taken.count label = 1 :=
          h.count_taken hmem fun hlive => hout (List.mem_singleton.mp hlive)
        obtain ⟨d, hd, htaken⟩ := List.mem_flatMap.mp
          (List.count_pos_iff.mp (Nat.lt_of_lt_of_eq Nat.zero_lt_one honce.symm))
        obtain ⟨next, hnext⟩ := hsingle d hd
        have hlater : d ∈ after := h.mem_after_of_mem_inputs hsplit hgiven hd htaken
        refine existsUnique_isPath_of_taken hout (by simp [isPlain, h.plain label hmem])
          ((hapart.count_taken hmem).trans honce) (mem_chains_onto.mpr (.inr hd)) htaken hnext ?_
        exact hrest d hlater next (by rw [hnext]; exact List.mem_singleton_self next)
  obtain ⟨c, hc, hgiven⟩ := List.mem_flatMap.mp hlabel
  exact hafter g.chains [] rfl c hc label hgiven

/-- **The chains of a graph and those below it do not reach one another.** -/
theorem reaches_onto (h : g.Wired inputCount names live) (hapart : g.IsApartFrom chains)
    {c d : Chain α} (hc : c ∈ (g.onto chains).chains) (hreach : (g.onto chains).Reaches c d) :
    (c ∈ chains ∧ d ∈ chains) ∨ (c ∈ g.chains ∧ d ∈ g.chains) := by
  induction hreach with
  | refl => exact (mem_chains_onto.mp hc).imp (fun h => ⟨h, h⟩) fun h => ⟨h, h⟩
  | @tail m d _ hstep ih =>
    obtain ⟨hd, label, hgiven, hplain, htaken⟩ := hstep
    obtain ⟨hc, hm⟩ | ⟨hc, hm⟩ := ih
    -- the graph takes from itself what it does not take from inputs
    · refine .inl ⟨hc, (mem_chains_onto.mp hd).resolve_right fun hd => ?_⟩
      have hmem : label ∈ g.produced := h.mem_produced_of_taken
        (List.mem_flatMap.mpr ⟨d, hd, htaken⟩) (Option.isNone_iff_eq_none.mp hplain)
      exact hapart.not_mem_outputs hmem hm hgiven
    · refine .inr ⟨hc, (mem_chains_onto.mp hd).resolve_left fun hd => ?_⟩
      have hmem : label ∈ g.produced := List.mem_flatMap.mpr ⟨m, hm, hgiven⟩
      exact hapart.not_mem_inputs hmem hd htaken

end Graph.Wired

end TimelineExport
