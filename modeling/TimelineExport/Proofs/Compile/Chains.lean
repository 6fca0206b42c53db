import TimelineExport.Proofs.Compile.Closed

/-!
# The chains of a program

Each builder appends chains to a graph, and says here which. `SegmentRun` and `TrackRun` are the
chains of a track: one segment for each clip, in the order of the starts, and a concatenation
unless there is just one. `LayerRun` are the chains of all tracks, each followed by its layer.
`MixRun` are the chains of the clips with sound, with a mix for each track unless there is just
one. The finishing steps change no inputs and only append filters (`Chain.Extends`), and rename
outputs that no chain takes (`Finishes`).
-/

namespace TimelineExport

variable {α : Type}

/-! ### Chains that were finished -/

/-- A chain with the same inputs, and perhaps more filters at the end. -/
structure Chain.Extends (c d : Chain α) : Prop where
  inputs : d.inputs = c.inputs
  filters : c.filters <+: d.filters

theorem Chain.Extends.refl (c : Chain α) : c.Extends c := ⟨rfl, List.prefix_rfl⟩

theorem Chain.Extends.trans {b c d : Chain α} (h : b.Extends c) (h' : c.Extends d) : b.Extends d :=
  ⟨h'.inputs.trans h.inputs, h.filters.trans h'.filters⟩

/-- Relations between the members of lists compose. -/
theorem forall₂_comp {β γ δ : Type} {R : β → γ → Prop} {S : γ → δ → Prop} {T : β → δ → Prop}
    (hcomp : ∀ b c d, R b c → S c d → T b d) {bs : List β} {cs : List γ} {ds : List δ}
    (h : List.Forall₂ R bs cs) (h' : List.Forall₂ S cs ds) : List.Forall₂ T bs ds := by
  induction h generalizing ds with
  | nil =>
    cases h'
    exact .nil
  | cons hbc _ ih =>
    cases h' with
    | cons hcd htail => exact .cons (hcomp _ _ _ hbc hcd) (ih htail)

/-- Chains that were finished, in the same order. -/
abbrev Extended (cs ds : List (Chain α)) : Prop := List.Forall₂ Chain.Extends cs ds

theorem Extended.refl (cs : List (Chain α)) : Extended cs cs :=
  List.forall₂_same.mpr fun c _ => Chain.Extends.refl c

theorem Extended.trans {bs cs ds : List (Chain α)} (h : Extended bs cs) (h' : Extended cs ds) :
    Extended bs ds :=
  forall₂_comp (fun _ _ _ h h' => h.trans h') h h'

theorem extended_extendFirst (label : String) (filters : List (Filter α)) (cs : List (Chain α)) :
    Extended cs (Graph.extendFirst label filters cs) := by
  induction cs with
  | nil => exact .nil
  | cons c cs ih =>
    rw [Graph.extendFirst]
    split
    · exact .cons ⟨rfl, List.prefix_append _ _⟩ (Extended.refl cs)
    · exact .cons (.refl c) ih

theorem mem_extendFirst_of_not_mem {label : String} (filters : List (Filter α))
    {cs : List (Chain α)} {c : Chain α} (hc : c ∈ cs) (hlabel : label ∉ c.outputs) :
    c ∈ Graph.extendFirst label filters cs := by
  induction cs with
  | nil => exact absurd hc List.not_mem_nil
  | cons d ds ih =>
    rw [Graph.extendFirst]
    obtain rfl | hc := List.mem_cons.mp hc
    · rw [if_neg (by simpa using hlabel)]
      exact List.mem_cons_self
    · split
      · exact List.mem_cons_of_mem _ hc
      · exact List.mem_cons_of_mem d (ih hc)

/-- The only chain that gives a stream is the one that is extended. -/
theorem mem_extendFirst_of_mem {label : String} (filters : List (Filter α)) {cs : List (Chain α)}
    (hnodup : (cs.flatMap (·.outputs)).Nodup) {c : Chain α} (hc : c ∈ cs)
    (hlabel : label ∈ c.outputs) :
    { c with filters := c.filters ++ filters } ∈ Graph.extendFirst label filters cs := by
  induction cs with
  | nil => exact absurd hc List.not_mem_nil
  | cons d ds ih =>
    rw [List.flatMap_cons, List.nodup_append'] at hnodup
    obtain ⟨-, hnodup, hdisjoint⟩ := hnodup
    rw [Graph.extendFirst]
    obtain rfl | hc := List.mem_cons.mp hc
    · rw [if_pos (by simpa using hlabel)]
      exact List.mem_cons_self
    · have hnot : label ∉ d.outputs := fun hd =>
        hdisjoint hd (List.mem_flatMap.mpr ⟨c, hc, hlabel⟩)
      rw [if_neg (by simpa using hnot)]
      exact List.mem_cons_of_mem d (ih hnodup hc)

/-- **A finished list of chains**: some chains have more filters or another output, but not those
whose stream is taken by another chain. -/
structure Finishes (cs ds : List (Chain α)) : Prop where
  extended : Extended cs ds
  kept : ∀ c ∈ cs, ∀ label, c.outputs = [label] → (∃ d ∈ cs, label ∈ d.inputs) → c ∈ ds

theorem Finishes.refl (cs : List (Chain α)) : Finishes cs cs :=
  ⟨Extended.refl cs, fun _ hc _ _ _ => hc⟩

/-- What takes a stream still takes it in a finished list of chains. -/
theorem Extended.exists_taker {cs ds : List (Chain α)} (h : Extended cs ds) {c : Chain α}
    (hc : c ∈ cs) : ∃ d ∈ ds, c.Extends d := by
  induction h with
  | nil => exact absurd hc List.not_mem_nil
  | cons hcd _ ih =>
    obtain rfl | hc := List.mem_cons.mp hc
    · exact ⟨_, List.mem_cons_self, hcd⟩
    · obtain ⟨d, hd, hextends⟩ := ih hc
      exact ⟨d, List.mem_cons_of_mem _ hd, hextends⟩

/-- A chain whose stream is taken is kept while more chains are added and finished. -/
theorem Finishes.kept_append {cs ds es fs : List (Chain α)} (h : Finishes cs ds)
    (h' : Finishes (ds ++ es) fs) {c : Chain α} (hc : c ∈ cs) {label : String}
    (houtputs : c.outputs = [label]) (htaken : ∃ d ∈ cs, label ∈ d.inputs) : c ∈ fs := by
  refine h'.kept c (List.mem_append_left es (h.kept c hc label houtputs htaken)) label houtputs ?_
  obtain ⟨d, hd, hlabel⟩ := htaken
  obtain ⟨d', hd', hextends⟩ := h.extended.exists_taker hd
  exact ⟨d', List.mem_append_left es hd', hextends.inputs ▸ hlabel⟩

section
variable {g g' : Graph α} {inputCount : Nat} {names live : List String} {label name : String}
  {filters : List (Filter α)}

/-- No chain takes a live stream, before or after one was extended. -/
theorem Graph.Wired.not_mem_inputs_extend (h : g.Wired inputCount names (label :: live))
    (hsingle : ∀ f ∈ filters, f.IsSingle) :
    ∀ c ∈ (g.extend label filters).chains, label ∉ c.inputs := fun c hc hmem =>
  (h.extend label hsingle).not_mem_taken_of_live List.mem_cons_self
    (List.mem_flatMap.mpr ⟨c, hc, hmem⟩)

/-- What is renamed after filters were appended to a live stream. -/
theorem Graph.Wired.eq_rename_of_relabel (h : g.Wired inputCount names (label :: live))
    (hsingle : ∀ f ∈ filters, f.IsSingle)
    (hrelabel : (g.extend label filters).relabel label name = .ok g') :
    g' = (g.extend label filters).rename label name := by
  rw [relabel_eq_ok ((h.extend label hsingle).mem_produced_of_live List.mem_cons_self)] at hrelabel
  cases hrelabel
  rfl

/-- A chain of another stream is kept while a live stream is extended and renamed. -/
theorem Graph.Wired.mem_of_relabel (h : g.Wired inputCount names (label :: live))
    (hsingle : ∀ f ∈ filters, f.IsSingle)
    (hrelabel : (g.extend label filters).relabel label name = .ok g') {c : Chain α}
    (hc : c ∈ g.chains) (hlabel : label ∉ c.outputs) : c ∈ g'.chains := by
  have hmem := mem_extendFirst_of_not_mem filters hc hlabel
  have hrename : c.rename label name = c := by
    rw [Chain.rename, map_renamed_of_not_mem (h.not_mem_inputs_extend hsingle c hmem),
      map_renamed_of_not_mem hlabel]
  rw [h.eq_rename_of_relabel hsingle hrelabel]
  exact List.mem_map.mpr ⟨c, hmem, hrename⟩

/-- The chain of a live stream has more filters, and another output, when the stream was extended
and renamed. -/
theorem Graph.Wired.extended_mem_of_relabel (h : g.Wired inputCount names (label :: live))
    (hsingle : ∀ f ∈ filters, f.IsSingle)
    (hrelabel : (g.extend label filters).relabel label name = .ok g') {c : Chain α}
    (hc : c ∈ g.chains) (houtputs : c.outputs = [label]) :
    ⟨c.inputs, c.filters ++ filters, [name]⟩ ∈ g'.chains := by
  have hmem := mem_extendFirst_of_mem filters h.nodup hc (houtputs ▸ List.mem_singleton_self label)
  have hrename : Chain.rename label name { c with filters := c.filters ++ filters } =
      ⟨c.inputs, c.filters ++ filters, [name]⟩ := by
    rw [Chain.rename, map_renamed_of_not_mem (h.not_mem_inputs_extend hsingle _ hmem), houtputs,
      List.map_singleton, renamed, if_pos rfl]
  rw [h.eq_rename_of_relabel hsingle hrelabel]
  exact List.mem_map.mpr ⟨_, hmem, hrename⟩

/-- Appending filters to a live stream and renaming it only finishes a chain. -/
theorem Graph.Wired.finishes_of_relabel (h : g.Wired inputCount names (label :: live))
    (hsingle : ∀ f ∈ filters, f.IsSingle)
    (hrelabel : (g.extend label filters).relabel label name = .ok g') :
    Finishes g.chains g'.chains := by
  constructor
  · rw [h.eq_rename_of_relabel hsingle hrelabel]
    refine Extended.trans (extended_extendFirst label filters g.chains) ?_
    refine List.forall₂_map_right_iff.mpr (List.forall₂_same.mpr fun c hc => ?_)
    -- the renamed stream is live, so no chain takes it
    exact ⟨map_renamed_of_not_mem (h.not_mem_inputs_extend hsingle c hc), List.prefix_rfl⟩
  · rintro c hc taken houtputs ⟨d, hd, htaken⟩
    refine h.mem_of_relabel hsingle hrelabel hc ?_
    rw [houtputs, List.mem_singleton]
    rintro rfl
    exact h.not_mem_taken_of_live List.mem_cons_self (List.mem_flatMap.mpr ⟨d, hd, htaken⟩)

end

/-! ### Segments, tracks and layers -/

/-- The filter that plays streams back to back. -/
def concatFilter (count : Nat) : Filter α :=
  { name := "concat"
    options := [("n", .int count), ("v", .int 1), ("a", .int 0)] }

/-- The chain of the background. -/
def baseChain (index : Nat) : Chain α :=
  ⟨[streamLabel index "v"], [{ name := "setsar", positional := [.int 1] }], ["base"]⟩

/-- The layer of the overlay frames, over what lies below. -/
def overlayChains (below layer : String) (overlayIndex : Option Nat) : List (Chain α) :=
  (overlayIndex.map fun index =>
    ⟨[below, streamLabel index "v"], [overlayFilter], [layer]⟩).toList

theorem chains_layOverlay (overlayIndex : Option Nat) (r : String × Graph α) :
    ∃ layer, (layOverlay overlayIndex r).2.chains =
      r.2.chains ++ overlayChains r.1 layer overlayIndex := by
  cases overlayIndex with
  | none => exact ⟨"", (List.append_nil _).symm⟩
  | some index => exact ⟨(r.2.newLabel "layer").1, rfl⟩

section
variable [Scalar α]

/-- **The segments of clips** in the given order, of which the first follows a given end: each is
built for the gap since the end before. -/
inductive SegmentRun (settings : ExportSettings) (sources : List String) :
    α → List (Element α) → List (Chain α) → Prop
  | nil (previousEnd : α) : SegmentRun settings sources previousEnd [] []
  | cons {previousEnd : α} {e : Element α} {es : List (Element α)} {cs : List (Chain α)}
      {index : Nat} {filters : List (Filter α)} {label : String}
      (hindex : sourceIndex sources e = .ok index)
      (hfilters : e.segmentFilters settings (e.startMs - previousEnd) = .ok filters)
      (htail : SegmentRun settings sources e.endMs es cs) :
      SegmentRun settings sources previousEnd (e :: es)
        (⟨[streamLabel index "v"], filters, [label]⟩ :: cs)

/-- **The chains of a track**, which give one stream: the segments of its clips from zero on, and
a concatenation unless there is just one. -/
inductive TrackRun (settings : ExportSettings) (sources : List String) (clips : List (Element α)) :
    List (Chain α) → String → Prop
  | single {c : Chain α} {label : String}
      (hsegments : SegmentRun settings sources 0 (sortByStart clips) [c])
      (houtput : c.outputs = [label]) : TrackRun settings sources clips [c] label
  | concat {cs : List (Chain α)} {label : String}
      (hsegments : SegmentRun settings sources 0 (sortByStart clips) cs) (hlength : cs.length ≠ 1) :
      TrackRun settings sources clips
        (cs ++ [⟨cs.flatMap (·.outputs), [concatFilter cs.length], [label]⟩]) label

/-- **The chains of all tracks**: those of every track with pictures, each followed by the layer
that lays the track over what is below. -/
inductive LayerRun (settings : ExportSettings) (sources : List String)
    (pictures : List (Element α)) : String → List String → List (Chain α) → String → Prop
  | nil (below : String) : LayerRun settings sources pictures below [] [] below
  | skip {below top track : String} {tracks : List String} {cs : List (Chain α)}
      (hempty : pictures.filter (·.trackId = track) = [])
      (htail : LayerRun settings sources pictures below tracks cs top) :
      LayerRun settings sources pictures below (track :: tracks) cs top
  | cons {below label layer top track : String} {tracks : List String} {cs ds : List (Chain α)}
      (hne : pictures.filter (·.trackId = track) ≠ [])
      (htrack : TrackRun settings sources (pictures.filter (·.trackId = track)) cs label)
      (htail : LayerRun settings sources pictures layer tracks ds top) :
      LayerRun settings sources pictures below (track :: tracks)
        (cs ++ ⟨[below, label], [overlayFilter], [layer]⟩ :: ds) top

theorem SegmentRun.length_outputs {settings : ExportSettings} {sources : List String}
    {previousEnd : α} {es : List (Element α)} {cs : List (Chain α)}
    (h : SegmentRun settings sources previousEnd es cs) :
    cs.length = (cs.flatMap (·.outputs)).length := by
  induction h with
  | nil => rfl
  | cons _ _ _ ih => simp [ih]

theorem SegmentRun.exists_output {settings : ExportSettings} {sources : List String}
    {previousEnd : α} {es : List (Element α)} {cs : List (Chain α)}
    (h : SegmentRun settings sources previousEnd es cs) :
    ∀ c ∈ cs, ∃ label, c.outputs = [label] := by
  induction h with
  | nil => exact fun _ hc => absurd hc List.not_mem_nil
  | cons _ _ _ ih => exact List.forall_mem_cons.mpr ⟨⟨_, rfl⟩, ih⟩

/-- Every chain of a track gives one stream: that of the track, or one that another chain of the
track takes. -/
theorem TrackRun.exists_output {settings : ExportSettings} {sources : List String}
    {clips : List (Element α)} {cs : List (Chain α)} {label : String}
    (h : TrackRun settings sources clips cs label) :
    ∀ c ∈ cs, ∃ l, c.outputs = [l] ∧ (l = label ∨ ∃ d ∈ cs, l ∈ d.inputs) := by
  cases h with
  | single _ houtput =>
    intro c hc
    obtain rfl := List.mem_singleton.mp hc
    exact ⟨label, houtput, .inl rfl⟩
  | @concat cs _ hsegments _ =>
    intro c hc
    obtain hc | hc := List.mem_append.mp hc
    · obtain ⟨l, hl⟩ := hsegments.exists_output c hc
      refine ⟨l, hl, .inr ⟨_, List.mem_append_right _ List.mem_cons_self, ?_⟩⟩
      exact List.mem_flatMap.mpr ⟨c, hc, by rw [hl]; exact List.mem_singleton_self l⟩
    · obtain rfl := List.mem_singleton.mp hc
      exact ⟨label, rfl, .inl rfl⟩

/-- Every track with pictures has its chains and its layer. -/
theorem LayerRun.exists_track {settings : ExportSettings} {sources : List String}
    {pictures : List (Element α)} {below top track : String} {tracks : List String}
    {cs : List (Chain α)} (h : LayerRun settings sources pictures below tracks cs top)
    (htrack : track ∈ tracks) (hne : pictures.filter (·.trackId = track) ≠ []) :
    ∃ ds label below layer,
      TrackRun settings sources (pictures.filter (·.trackId = track)) ds label ∧
      ds ⊆ cs ∧ ⟨[below, label], [overlayFilter], [layer]⟩ ∈ cs := by
  induction h with
  | nil => exact absurd htrack List.not_mem_nil
  | @skip below top track' tracks cs hempty _ ih =>
    obtain rfl | htrack := List.mem_cons.mp htrack
    · exact absurd hempty hne
    · exact ih htrack
  | @cons below label layer top track' tracks cs ds _ hrun _ ih =>
    obtain rfl | htrack := List.mem_cons.mp htrack
    · exact ⟨cs, label, below, layer, hrun, List.subset_append_left _ _,
        List.mem_append_right _ List.mem_cons_self⟩
    · obtain ⟨ds', label', below', layer', hrun', hsub, hmem⟩ := ih htrack
      refine ⟨ds', label', below', layer', hrun', fun c hc => ?_, ?_⟩
      · exact List.mem_append_right _ (List.mem_cons_of_mem _ (hsub hc))
      · exact List.mem_append_right _ (List.mem_cons_of_mem _ hmem)

/-- The segments of clips add their chains. -/
theorem meets_buildSegments_run (settings : ExportSettings) (sources : List String)
    (g : Graph α) (previousEnd : α) (es : List (Element α)) :
    Meets (buildSegments settings sources g previousEnd es)
      (fun r => ∃ cs, SegmentRun settings sources previousEnd es cs ∧
        r.2.chains = g.chains ++ cs ∧ cs.flatMap (·.outputs) = r.1) fun _ => True := by
  induction es generalizing g previousEnd with
  | nil => exact ⟨[], .nil previousEnd, (List.append_nil _).symm, rfl⟩
  | cons e es ih =>
    refine (Meets.trivially _).bind fun index hindex _ =>
      (Meets.trivially _).bind fun filters hfilters _ => ?_
    refine (ih _ e.endMs).bind fun r _ hr => ?_
    obtain ⟨cs, hrun, hchains, hlabels⟩ := hr
    refine ⟨⟨[streamLabel index "v"], filters, [(g.newLabel "seg").1]⟩ :: cs,
      .cons hindex hfilters hrun, ?_, ?_⟩
    · rw [hchains]
      simp [Graph.newLabel]
    · rw [List.flatMap_cons, hlabels]
      rfl

/-- The picture of a track adds its chains. -/
theorem meets_assembleTrack_run (settings : ExportSettings) (sources : List String)
    (g : Graph α) (clips : List (Element α)) :
    Meets (assembleTrack settings sources g clips)
      (fun r => ∃ cs, TrackRun settings sources clips cs r.1 ∧ r.2.chains = g.chains ++ cs)
      fun _ => True := by
  refine (meets_buildSegments_run settings sources g 0 _).bind fun r _ hr => ?_
  obtain ⟨labels, g'⟩ := r
  obtain ⟨cs, hrun, hchains, hlabels⟩ := hr
  dsimp only at hchains hlabels ⊢
  subst hlabels
  change ∃ ds, TrackRun settings sources clips ds (concatenate g' (cs.flatMap (·.outputs))).1 ∧
    (concatenate g' (cs.flatMap (·.outputs))).2.chains = g.chains ++ ds
  unfold concatenate
  split
  -- a builder looks at the number of labels, a run at the number of chains
  · next label hlabel =>
    have hlength : cs.length = 1 := by rw [hrun.length_outputs, hlabel, List.length_singleton]
    obtain ⟨c, rfl⟩ := List.length_eq_one_iff.mp hlength
    exact ⟨[c], .single hrun (by simpa using hlabel), hchains⟩
  · next hmany =>
    refine ⟨_, .concat hrun ?_, ?_⟩
    · intro hlength
      obtain ⟨label, hlabel⟩ := List.length_eq_one_iff.mp (hrun.length_outputs ▸ hlength)
      exact hmany label hlabel
    · simp only [Graph.grow, Graph.newLabel, hchains, ← hrun.length_outputs, List.append_assoc]
      rfl

/-- The tracks add their chains. -/
theorem meets_buildLayers_run (settings : ExportSettings) (sources : List String)
    (pictures : List (Element α)) (g : Graph α) (current : String) (tracks : List String) :
    Meets (buildLayers settings sources pictures g current tracks)
      (fun r => ∃ cs, LayerRun settings sources pictures current tracks cs r.1 ∧
        r.2.chains = g.chains ++ cs) fun _ => True := by
  induction tracks generalizing g current with
  | nil => exact ⟨[], .nil current, (List.append_nil _).symm⟩
  | cons track tracks ih =>
    rw [buildLayers]
    dsimp only
    split
    · next hempty =>
      refine (ih g current).mono fun r _ hr => ?_
      obtain ⟨cs, hrun, hchains⟩ := hr
      exact ⟨cs, .skip (List.isEmpty_iff.mp hempty) hrun, hchains⟩
    · next hne =>
      refine (meets_assembleTrack_run settings sources g _).bind fun r _ hr => ?_
      obtain ⟨cs, htrack, hchains⟩ := hr
      refine (ih _ _).mono fun r' _ hr' => ?_
      obtain ⟨ds, hrun, hchains'⟩ := hr'
      refine ⟨_, .cons (fun hnil => hne (List.isEmpty_iff.mpr hnil)) htrack hrun, ?_⟩
      rw [hchains']
      simp [Graph.grow, Graph.newLabel, hchains]

/-- The stream of a picture in the engine's pixel format, under its fixed name. -/
def finishPicture (r : String × Graph α) : Except GraphFault (Graph α) :=
  (r.2.extend r.1 [{ name := "format", positional := [.text "yuv420p"] }]).relabel r.1 videoOutput

/-- **How a picture is built**: the background, the tracks and the overlay frames, and the stream
of the last one finished. -/
theorem meets_buildVideo_steps (settings : ExportSettings) (es : List (Element α))
    (order : List String) {sources : List String} {inputCount : Nat}
    (hsources : sources.length < inputCount) {overlayIndex : Option Nat}
    (hoverlay : ∀ i ∈ overlayIndex, i < inputCount) :
    Meets (buildVideo settings es order sources overlayIndex)
      (fun g => ∃ r cs,
        LayerRun settings sources (es.filter (·.kind.isPicture)) "base" order cs r.1 ∧
        r.2.chains = baseChain sources.length :: cs ∧
        (layOverlay overlayIndex r).2.Wired inputCount ["base"] [(layOverlay overlayIndex r).1] ∧
        finishPicture (layOverlay overlayIndex r) = .ok g)
      fun _ => True := by
  refine (meets_buildLayers_run settings sources _ _ "base" order).bind fun r heq hr => ?_
  obtain ⟨cs, hrun, hchains⟩ := hr
  have hwired := (meets_buildLayers_wired settings (Nat.le_of_lt hsources) _ order
    (wired_base hsources)).of_eq_ok heq
  have hfinish := (Meets.trivially ((finishPicture (layOverlay overlayIndex r)).mapError
    (CompileFault.graph (α := α)))).mono fun g hg _ =>
      (⟨r, cs, hrun, hchains, wired_layOverlay hwired hoverlay, mapError_eq_ok.mp hg⟩ : ∃ r cs,
        LayerRun settings sources (es.filter (·.kind.isPicture)) "base" order cs r.1 ∧
        r.2.chains = baseChain sources.length :: cs ∧
        (layOverlay overlayIndex r).2.Wired inputCount ["base"] [(layOverlay overlayIndex r).1] ∧
        finishPicture (layOverlay overlayIndex r) = .ok g)
  cases overlayIndex <;> exact hfinish

/-- **The chains of a picture**: the background, the tracks and the overlay frames, of which the
last one was finished. -/
theorem meets_buildVideo_run (settings : ExportSettings) (es : List (Element α))
    (order : List String) {sources : List String} {inputCount : Nat}
    (hsources : sources.length < inputCount) {overlayIndex : Option Nat}
    (hoverlay : ∀ i ∈ overlayIndex, i < inputCount) :
    Meets (buildVideo settings es order sources overlayIndex)
      (fun g => ∃ cs top layer,
        LayerRun settings sources (es.filter (·.kind.isPicture)) "base" order cs top ∧
        Finishes (baseChain sources.length :: cs ++ overlayChains top layer overlayIndex) g.chains)
      fun _ => True := by
  refine (meets_buildVideo_steps settings es order hsources hoverlay).mono fun g _ hg => ?_
  obtain ⟨r, cs, hrun, hchains, hwired, hrelabel⟩ := hg
  obtain ⟨layer, hlayer⟩ := chains_layOverlay overlayIndex r
  refine ⟨cs, r.1, layer, hrun, ?_⟩
  rw [← hchains, ← hlayer]
  exact hwired.finishes_of_relabel (by simp [Filter.IsSingle]) hrelabel

end

/-! ### The sound -/

/-- What follows the clips with sound: silence, nothing, or a mix over a bed of silence. -/
inductive SoundEnd (sampleRate : Int) (durationMs : α) : List String → List (Chain α) → Prop
  | silent : SoundEnd sampleRate durationMs []
      [⟨[], silence sampleRate durationMs, [audioOutput]⟩]
  | single (label : String) : SoundEnd sampleRate durationMs [label] []
  | mixed (bed : String) {labels : List String} (hne : labels ≠ []) :
      SoundEnd sampleRate durationMs labels [⟨[], silence sampleRate durationMs, [bed]⟩,
        ⟨bed :: labels, [mixFilter (labels.length + 1) "first"], [audioOutput]⟩]

section
variable [Scalar α]

/-- The chain of a clip with sound. -/
structure IsClipChain (sampleRate : Int) (clip : AudioClip α) (c : Chain α) : Prop where
  inputs : c.inputs = [clip.input]
  filters : clip.filters sampleRate = .ok c.filters
  output : ∃ label, c.outputs = [label]

/-- **The chains of tracks with sound**, and the streams that they give: those of every track's
clips, and a mix unless there is just one. -/
inductive MixRun (sampleRate : Int) :
    List (AudioTrack α) → List (Chain α) → List String → Prop
  | nil : MixRun sampleRate [] [] []
  | skip {t : AudioTrack α} {ts : List (AudioTrack α)} {ds : List (Chain α)}
      {labels : List String} (hempty : t.clips = []) (htail : MixRun sampleRate ts ds labels) :
      MixRun sampleRate (t :: ts) ds labels
  | single {t : AudioTrack α} {ts : List (AudioTrack α)} {c : Chain α} {ds : List (Chain α)}
      {label : String} {labels : List String}
      (hclips : List.Forall₂ (IsClipChain sampleRate) t.clips [c]) (houtput : c.outputs = [label])
      (htail : MixRun sampleRate ts ds labels) :
      MixRun sampleRate (t :: ts) (c :: ds) (label :: labels)
  | mix {t : AudioTrack α} {ts : List (AudioTrack α)} {cs ds : List (Chain α)}
      {label : String} {labels : List String}
      (hclips : List.Forall₂ (IsClipChain sampleRate) t.clips cs) (hlength : 2 ≤ cs.length)
      (htail : MixRun sampleRate ts ds labels) :
      MixRun sampleRate (t :: ts)
        (cs ++ ⟨cs.flatMap (·.outputs), [mixFilter cs.length "longest"], [label]⟩ :: ds)
        (label :: labels)

theorem length_outputs_of_isClipChain {sampleRate : Int} {clips : List (AudioClip α)}
    {cs : List (Chain α)} (h : List.Forall₂ (IsClipChain sampleRate) clips cs) :
    cs.length = (cs.flatMap (·.outputs)).length := by
  induction h with
  | nil => rfl
  | cons hc _ ih =>
    obtain ⟨label, hlabel⟩ := hc.output
    simp [hlabel, ih]

/-- Clips with sound add their chains. -/
theorem meets_buildClips_run (sampleRate : Int) (g : Graph α) (clips : List (AudioClip α)) :
    Meets (buildClips sampleRate g clips)
      (fun r => ∃ cs, List.Forall₂ (IsClipChain sampleRate) clips cs ∧
        r.2.chains = g.chains ++ cs ∧ cs.flatMap (·.outputs) = r.1) fun _ => True := by
  induction clips generalizing g with
  | nil => exact ⟨[], .nil, (List.append_nil _).symm, rfl⟩
  | cons clip clips ih =>
    have hbuild : Meets (clip.build sampleRate g)
        (fun r => ∃ c : Chain α, IsClipChain sampleRate clip c ∧
          r.2.chains = g.chains ++ [c] ∧ c.outputs = [r.1]) fun _ => True := by
      refine (Meets.trivially _).bind fun filters hfilters _ => ?_
      exact ⟨⟨[clip.input], filters, [(g.newLabel "ac").1]⟩, ⟨rfl, hfilters, _, rfl⟩, rfl, rfl⟩
    refine hbuild.bind fun r _ hr => ?_
    obtain ⟨c, hc, hchains, houtputs⟩ := hr
    refine (ih r.2).bind fun r' _ hr' => ?_
    obtain ⟨cs, hcs, hchains', hlabels⟩ := hr'
    refine ⟨c :: cs, .cons hc hcs, ?_, ?_⟩
    · rw [hchains', hchains, List.append_assoc, List.singleton_append]
    · rw [List.flatMap_cons, houtputs, hlabels]
      rfl

/-- The streams of a track's clips become one, by a mix unless there is just one. -/
theorem chains_mixTrack {sampleRate : Int} (g : Graph α) {t : AudioTrack α} {cs : List (Chain α)}
    (hclips : List.Forall₂ (IsClipChain sampleRate) t.clips cs)
    (hne : cs.flatMap (·.outputs) ≠ []) :
    ∃ mix, (mixTrack g (cs.flatMap (·.outputs))).2.chains = g.chains ++ mix ∧
      ∀ {ts ds labels}, MixRun sampleRate ts ds labels →
        MixRun sampleRate (t :: ts) (cs ++ (mix ++ ds))
          ((mixTrack g (cs.flatMap (·.outputs))).1 :: labels) := by
  have hlength := length_outputs_of_isClipChain hclips
  unfold mixTrack
  split
  · next label hlabel =>
    obtain ⟨c, rfl⟩ := List.length_eq_one_iff.mp (show cs.length = 1 by
      rw [hlength, hlabel, List.length_singleton])
    exact ⟨[], (List.append_nil _).symm, .single hclips (by simpa using hlabel)⟩
  · next hmany =>
    have hone : cs.length ≠ 1 := fun h => by
      obtain ⟨label, hlabel⟩ := List.length_eq_one_iff.mp (hlength ▸ h)
      exact hmany label hlabel
    have hpos : 0 < cs.length := hlength ▸ List.length_pos_iff.mpr hne
    refine ⟨_, rfl, fun hrun => ?_⟩
    rw [← hlength]
    exact .mix hclips (by omega) hrun

/-- Tracks with sound add their chains. -/
theorem meets_buildTracks_run (sampleRate : Int) (g : Graph α) (tracks : List (AudioTrack α)) :
    Meets (buildTracks sampleRate g tracks)
      (fun r => ∃ cs, MixRun sampleRate tracks cs r.1.1 ∧ r.2.chains = g.chains ++ cs)
      fun _ => True := by
  induction tracks generalizing g with
  | nil => exact ⟨[], .nil, (List.append_nil _).symm⟩
  | cons t ts ih =>
    refine (meets_buildClips_run sampleRate g t.clips).bind fun r _ hr => ?_
    obtain ⟨labels, g'⟩ := r
    obtain ⟨cs, hclips, hchains, hlabels⟩ := hr
    dsimp only at hchains hlabels ⊢
    subst hlabels
    have hlength := length_outputs_of_isClipChain hclips
    split
    · next hempty =>
      have hcs : cs = [] := by
        rwa [List.isEmpty_iff, ← List.length_eq_zero_iff, ← hlength,
          List.length_eq_zero_iff] at hempty
      subst hcs
      refine (ih g').mono fun r _ hr => ?_
      obtain ⟨ds, hrun, hchains'⟩ := hr
      exact ⟨ds, .skip (List.forall₂_nil_right_iff.mp hclips) hrun, by
        rw [hchains', hchains, List.append_nil]⟩
    · next hne =>
      obtain ⟨mix, hmix, hcons⟩ := chains_mixTrack g' hclips
        fun hnil => hne (List.isEmpty_iff.mpr hnil)
      refine (ih (mixTrack g' (cs.flatMap (·.outputs))).2).bind fun r _ hr => ?_
      obtain ⟨⟨rest, count⟩, g''⟩ := r
      obtain ⟨ds, hrun, hchains'⟩ := hr
      refine ⟨cs ++ (mix ++ ds), hcons hrun, ?_⟩
      rw [show g''.chains = _ from hchains', hmix, hchains, List.append_assoc, List.append_assoc]

/-- **The chains of the sound**: those of the tracks, and what follows them; a single clip is
finished instead. -/
theorem meets_buildAudio_run (sampleRate : Int) {g : Graph α} {inputCount : Nat}
    {names live : List String} (h : g.Wired inputCount names live) {tracks : List (AudioTrack α)}
    (htracks : ∀ t ∈ tracks, ∀ c ∈ t.clips, c.IsBounded inputCount) (durationMs : α) :
    Meets (buildAudio sampleRate g tracks durationMs)
      (fun g' => ∃ cs labels ds, MixRun sampleRate tracks cs labels ∧
        SoundEnd sampleRate durationMs labels ds ∧ Finishes (g.chains ++ cs ++ ds) g'.chains)
      fun _ => True := by
  refine (meets_buildTracks_run sampleRate g tracks).bind fun r heq hr => ?_
  have hwired := (meets_buildTracks_wired sampleRate htracks h).of_eq_ok heq
  obtain ⟨⟨labels, count⟩, g'⟩ := r
  obtain ⟨cs, hrun, hchains⟩ := hr
  dsimp only at hwired hrun hchains ⊢
  split
  · refine ⟨cs, [], _, hrun, .silent, ?_⟩
    rw [← hchains]
    exact Finishes.refl _
  · next _ _ label rest =>
    -- a single clip makes a single label
    have hrest : rest = [] := List.eq_nil_of_length_eq_zero (by simpa using hwired.2)
    subst hrest
    refine (Meets.trivially _).mono fun g'' hg'' _ => ⟨cs, [label], [], hrun, .single label, ?_⟩
    rw [← hchains, List.append_nil]
    exact hwired.1.finishes_of_relabel (by simp [Filter.IsSingle, cutAudio])
      (mapError_eq_ok.mp hg'')
  · next hne _ =>
    refine ⟨cs, labels, _, hrun, .mixed (g'.newLabel "abed").1 fun hnil => hne hnil, ?_⟩
    rw [← hchains]
    simp only [Graph.place, Graph.grow, Graph.newLabel, List.append_assoc]
    exact Finishes.refl _

/-- The sound keeps the chain of the finished picture. -/
theorem meets_buildAudio_keeps (sampleRate : Int) {g : Graph α} {inputCount : Nat}
    {names : List String} (h : g.Wired inputCount names [videoOutput])
    {tracks : List (AudioTrack α)}
    (htracks : ∀ t ∈ tracks, ∀ c ∈ t.clips, c.IsBounded inputCount) (durationMs : α) :
    Meets (buildAudio sampleRate g tracks durationMs)
      (fun g' => ∀ c ∈ g.chains, c.outputs = [videoOutput] → c ∈ g'.chains) fun _ => True := by
  refine (meets_buildTracks_run sampleRate g tracks).bind fun r heq hr => ?_
  have hwired := (meets_buildTracks_wired sampleRate htracks h).of_eq_ok heq
  obtain ⟨⟨labels, count⟩, built⟩ := r
  obtain ⟨cs, -, hchains⟩ := hr
  have hbuilt : ∀ c ∈ g.chains, c ∈ built.chains := fun c hc => by
    rw [show built.chains = _ from hchains]
    exact List.mem_append_left _ hc
  dsimp only at hwired ⊢
  split
  · exact fun c hc _ => List.mem_append_left _ (hbuilt c hc)
  · next label rest =>
    -- the single clip's stream is live beside the picture's, so it is another one
    have hlive : (label :: (rest ++ [videoOutput])).Nodup :=
      (hwired.1.balance.nodup_iff.mpr hwired.1.nodup).of_append_right
    refine (Meets.trivially _).mono fun g' hg' _ c hc houtputs => ?_
    refine hwired.1.mem_of_relabel (by simp [Filter.IsSingle, cutAudio]) (mapError_eq_ok.mp hg')
      (hbuilt c hc) ?_
    rw [houtputs, List.mem_singleton]
    rintro rfl
    exact (List.nodup_cons.mp hlive).1 (by simp)
  · exact fun c hc _ => List.mem_append_left _ (List.mem_append_left _ (hbuilt c hc))

/-! ### The program -/

section
variable {settings : ExportSettings} {sampleRate : Int} {es : List (Element α)}
  {tracks : List Track} {overlay : Option OverlaySequence} {duration : Option α}
  {audioSources : List (String × Bool)} {p : Program α}

/-- The steps of a compilation: the picture, the tracks with sound, and the sound on top of the
picture. -/
theorem steps_of_compile
    (h : compile settings sampleRate es tracks overlay duration audioSources = .ok p) :
    ∃ video audio,
      buildVideo settings es (trackOrder tracks) p.sources p.overlayIndex = .ok video ∧
      audioTracks es (trackOrder tracks) p.sources audioSources = .ok audio ∧
      buildAudio sampleRate video audio p.durationMs = .ok p.graph ∧
      p.sources = distinctSources es ∧
      p.inputs = programInputs settings p.sources p.durationMs overlay ∧
      p.backgroundIndex = p.sources.length ∧
      p.overlayIndex = overlay.map fun _ => p.sources.length + 1 := by
  unfold compile at h
  dsimp only at h
  obtain ⟨-, h⟩ := ite_throw_bind_eq_ok.mp h
  obtain ⟨video, hvideo, h⟩ := bind_eq_ok.mp h
  obtain ⟨audio, haudio, h⟩ := bind_eq_ok.mp h
  obtain ⟨g, hg, h⟩ := bind_eq_ok.mp h
  obtain ⟨-, h⟩ := unit_bind_eq_ok.mp h
  cases h
  exact ⟨video, audio, hvideo, haudio, hg, rfl, rfl, rfl, rfl⟩

/-- The inputs that a compilation refers to exist. -/
theorem index_lt_of_compile
    (h : compile settings sampleRate es tracks overlay duration audioSources = .ok p) :
    p.sources.length < p.inputs.length ∧ ∀ i ∈ p.overlayIndex, i < p.inputs.length := by
  obtain ⟨-, -, -, -, -, -, hinputs, -, hoverlay⟩ := steps_of_compile h
  rw [hinputs, hoverlay]
  exact ⟨length_lt_length_programInputs _ _ _ _, overlayIndex_lt_length_programInputs _ _ _ _⟩

/-- The picture of a compilation is wired, and its clips with sound play inputs that exist. -/
theorem wired_of_compile
    (h : compile settings sampleRate es tracks overlay duration audioSources = .ok p)
    {video : Graph α} {audio : List (AudioTrack α)}
    (hvideo : buildVideo settings es (trackOrder tracks) p.sources p.overlayIndex = .ok video)
    (haudio : audioTracks es (trackOrder tracks) p.sources audioSources = .ok audio) :
    video.Wired p.inputs.length [videoOutput, "base"] [videoOutput] ∧
      ∀ t ∈ audio, ∀ c ∈ t.clips, c.IsBounded p.inputs.length := by
  obtain ⟨hlength, hoverlay⟩ := index_lt_of_compile h
  have hbounded := (meets_audioTracks_bounded es _ _ audioSources).of_eq_ok haudio
  exact ⟨(meets_buildVideo_wired settings es _ hlength hoverlay).of_eq_ok hvideo,
    fun t ht c hc => (hbounded t ht c hc).mono (Nat.le_of_lt hlength)⟩

/-- **The chains of a program**: the background, the tracks and the overlay frames, finished to a
picture, and after them the sound of the tracks and what follows it, finished again. -/
theorem chains_of_compile
    (h : compile settings sampleRate es tracks overlay duration audioSources = .ok p) :
    p.sources = distinctSources es ∧
      ∃ layers top layer video sounds audio labels finish,
        LayerRun settings p.sources (es.filter (·.kind.isPicture)) "base" (trackOrder tracks)
          layers top ∧
        Finishes (baseChain p.sources.length :: layers ++ overlayChains top layer p.overlayIndex)
          video ∧
        audioTracks es (trackOrder tracks) p.sources audioSources = .ok audio ∧
        MixRun sampleRate audio sounds labels ∧ SoundEnd sampleRate p.durationMs labels finish ∧
        Finishes (video ++ sounds ++ finish) p.graph.chains := by
  obtain ⟨video, audio, hvideo, haudio, hg, hsources, -⟩ := steps_of_compile h
  obtain ⟨hlength, hoverlay⟩ := index_lt_of_compile h
  obtain ⟨layers, top, layer, hlayers, hchains⟩ :=
    (meets_buildVideo_run settings es _ hlength hoverlay).of_eq_ok hvideo
  obtain ⟨hwired, hbounded⟩ := wired_of_compile h hvideo haudio
  obtain ⟨sounds, labels, finish, hsounds, hfinish, hchains'⟩ :=
    (meets_buildAudio_run sampleRate hwired hbounded _).of_eq_ok hg
  exact ⟨hsources, layers, top, layer, video.chains, sounds, audio, labels, finish, hlayers,
    hchains, haudio, hsounds, hfinish, hchains'⟩

end

end

end TimelineExport
