import TimelineExport.Proofs.Compile.Chains

/-!
# Two settings, one topology

A timeline that is compiled for two exports gives two programs. The builders are run side by side:
`Aligned` says of two computations that their results are related if both have one, and
`Graph.Alike R` says of two graphs that they have the same labels and that their filters are
related by `R`, one by one. The settings reach the graph through the filters of the segments alone,
so whatever relation those have, all filters have (`alike_of_compile`).

Two relations are of interest. Filters of any two settings have the same names, which makes the
topology the same; and settings that agree in size and frame rate give equal filters, which makes
the programs equal (`compile_topology`).
-/

namespace TimelineExport

variable {α : Type}

/-! ### Two computations -/

section
variable {ε ε' β γ δ ζ : Type}

/-- If both computations have a result, the results are related. -/
def Aligned (x : Except ε β) (y : Except ε γ) (R : β → γ → Prop) : Prop :=
  ∀ b c, x = .ok b → y = .ok c → R b c

namespace Aligned

variable {x : Except ε β} {y : Except ε γ} {R : β → γ → Prop}

theorem of_ok {b : β} {c : γ} (h : R b c) : Aligned (.ok b : Except ε β) (.ok c) R := by
  rintro _ _ ⟨⟩ ⟨⟩
  exact h

theorem refl (x : Except ε β) : Aligned x x Eq := by
  intro b c hb hc
  exact Except.ok.inj (hb.symm.trans hc)

/-- Of results nothing need be known. -/
theorem trivially : Aligned x y fun _ _ => True := fun _ _ _ _ => trivial

/-- One computation after another, on both sides. -/
theorem bind {f : β → Except ε δ} {f' : γ → Except ε ζ} {S : δ → ζ → Prop} (h : Aligned x y R)
    (hf : ∀ b c, R b c → Aligned (f b) (f' c) S) : Aligned (x >>= f) (y >>= f') S := by
  intro d e hd he
  obtain ⟨b, hb, hd⟩ := bind_eq_ok.mp hd
  obtain ⟨c, hc, he⟩ := bind_eq_ok.mp he
  exact hf b c (h b c hb hc) d e hd he

/-- What is computed on both sides in the same way. -/
theorem bind_same {f : β → Except ε δ} {f' : β → Except ε ζ} {S : δ → ζ → Prop}
    (hf : ∀ b, Aligned (f b) (f' b) S) : Aligned (x >>= f) (x >>= f') S :=
  (refl x).bind fun b _ hbc => hbc ▸ hf b

/-- Renaming faults changes no results. -/
theorem mapError {f : ε → ε'} (h : Aligned x y R) :
    Aligned (x.mapError f) (y.mapError f) R := fun b c hb hc =>
  h b c (mapError_eq_ok.mp hb) (mapError_eq_ok.mp hc)

end Aligned

end

/-! ### Two graphs -/

/-- Chains with the same labels, whose filters are related one by one. -/
structure Chain.Alike (R : Filter α → Filter α → Prop) (c d : Chain α) : Prop where
  inputs : c.inputs = d.inputs
  filters : List.Forall₂ R c.filters d.filters
  outputs : c.outputs = d.outputs

/-- **Graphs with the same labels**, given and still to be given, whose filters are related one by
one. -/
structure Graph.Alike (R : Filter α → Filter α → Prop) (g g' : Graph α) : Prop where
  chains : List.Forall₂ (Chain.Alike R) g.chains g'.chains
  given : g.given = g'.given

/-- What two builders give: the same label, or labels, and graphs with the same labels. -/
structure BuiltAlike {β : Type} (R : Filter α → Filter α → Prop) (r r' : β × Graph α) :
    Prop where
  labels : r.1 = r'.1
  graphs : r.2.Alike R r'.2

/-- Chains that are alike for equal filters are equal. -/
theorem Chain.Alike.eq {c d : Chain α} (h : c.Alike Eq d) : c = d := by
  obtain ⟨inputs, filters, outputs⟩ := c
  obtain ⟨rfl, hfilters, rfl⟩ := h
  rw [List.forall₂_eq_eq_eq] at hfilters
  cases hfilters
  rfl

/-- Graphs that are alike for equal filters are equal. -/
theorem Graph.Alike.eq {g g' : Graph α} (h : g.Alike Eq g') : g = g' := by
  obtain ⟨chains, given⟩ := g
  obtain ⟨hchains, rfl⟩ := h
  have hchains := hchains.imp fun _ _ => Chain.Alike.eq
  rw [List.forall₂_eq_eq_eq] at hchains
  cases hchains
  rfl

namespace Graph.Alike

variable {R : Filter α → Filter α → Prop} {g g' : Graph α} {filters filters' : List (Filter α)}

theorem grow (h : g.Alike R g') (hfilters : List.Forall₂ R filters filters') (stem : String)
    (inputs : List String) :
    BuiltAlike R (g.grow stem inputs filters) (g'.grow stem inputs filters') := by
  have hcount : g.givenCount stem = g'.givenCount stem := by
    rw [givenCount, givenCount, h.given]
  have hlabel : (g.newLabel stem).1 = (g'.newLabel stem).1 := by
    simp only [newLabel, hcount]
  refine ⟨hlabel, List.rel_append h.chains (.cons ⟨rfl, hfilters, ?_⟩ .nil), ?_⟩
  · exact congrArg (fun label => [label]) hlabel
  · simp only [Graph.grow, newLabel, hcount, h.given]

theorem place (h : g.Alike R g') (hfilters : List.Forall₂ R filters filters')
    (inputs : List String) (label : String) :
    (g.place inputs filters label).Alike R (g'.place inputs filters' label) :=
  ⟨List.rel_append h.chains (.cons ⟨rfl, hfilters, rfl⟩ .nil), h.given⟩

theorem extend (h : g.Alike R g') (label : String) (hfilters : List.Forall₂ R filters filters') :
    (g.extend label filters).Alike R (g'.extend label filters') := by
  have hfirst : ∀ {cs ds : List (Chain α)}, List.Forall₂ (Chain.Alike R) cs ds →
      List.Forall₂ (Chain.Alike R) (extendFirst label filters cs)
        (extendFirst label filters' ds) := by
    intro cs ds hchains
    induction hchains with
    | nil => exact .nil
    | cons hcd htail ih =>
      -- the same chain is the first that gives the stream
      rw [extendFirst, extendFirst, ← hcd.outputs]
      split
      · exact .cons ⟨hcd.inputs, List.rel_append hcd.filters hfilters, rfl⟩ htail
      · exact .cons hcd ih
  exact ⟨hfirst h.chains, h.given⟩

theorem rename (h : g.Alike R g') (old new : String) :
    (g.rename old new).Alike R (g'.rename old new) := by
  refine ⟨List.forall₂_map_left_iff.mpr (List.forall₂_map_right_iff.mpr ?_), h.given⟩
  refine h.chains.imp fun c d hcd => ⟨?_, hcd.filters, ?_⟩
  · exact congrArg (List.map (renamed old new)) hcd.inputs
  · exact congrArg (List.map (renamed old new)) hcd.outputs

theorem aligned_relabel (h : g.Alike R g') (old new : String) :
    Aligned (g.relabel old new) (g'.relabel old new) (Alike R) := by
  intro r r' hr hr'
  obtain ⟨-, rfl⟩ := relabel_eq_ok_iff.mp hr
  obtain ⟨-, rfl⟩ := relabel_eq_ok_iff.mp hr'
  exact h.rename old new

end Graph.Alike

/-- A stream that both builders give is finished and renamed on both sides. -/
theorem BuiltAlike.aligned_finish {R : Filter α → Filter α → Prop} {r r' : String × Graph α}
    (h : BuiltAlike R r r') {filters : List (Filter α)} (hfilters : List.Forall₂ R filters filters)
    (name : String) :
    Aligned (((r.2.extend r.1 filters).relabel r.1 name).mapError (CompileFault.graph (α := α)))
      (((r'.2.extend r'.1 filters).relabel r'.1 name).mapError (CompileFault.graph (α := α)))
      (Graph.Alike R) := by
  rw [← h.labels]
  exact ((h.graphs.extend r.1 hfilters).aligned_relabel r.1 name).mapError

/-! ### Two programs -/

/-- Filters that the settings do not reach are the same. -/
theorem forall₂_self {R : Filter α → Filter α → Prop} [Std.Refl R] (filters : List (Filter α)) :
    List.Forall₂ R filters filters :=
  List.forall₂_refl filters

section
variable [Scalar α] {R : Filter α → Filter α → Prop} [Std.Refl R] {g g' : Graph α}

/-- The relation that the filters of segments have under two settings. -/
def SegmentsAlike (settings settings' : ExportSettings) (R : Filter α → Filter α → Prop) : Prop :=
  ∀ (gapMs : α) (e : Element α), Aligned (e.segmentFilters settings gapMs)
    (e.segmentFilters settings' gapMs) (List.Forall₂ R)

variable {settings settings' : ExportSettings}

omit [Std.Refl R] in
theorem aligned_buildSegments (hsegment : SegmentsAlike settings settings' R)
    (sources : List String) (h : g.Alike R g') (previousEnd : α) (es : List (Element α)) :
    Aligned (buildSegments settings sources g previousEnd es)
      (buildSegments settings' sources g' previousEnd es) (BuiltAlike R) := by
  induction es generalizing g g' previousEnd with
  | nil => exact .of_ok ⟨rfl, h⟩
  | cons e es ih =>
    refine Aligned.bind_same fun index => (hsegment _ e).bind fun filters filters' hfilters => ?_
    obtain ⟨hlabel, hgrow⟩ := h.grow hfilters "seg" [streamLabel index "v"]
    refine (ih hgrow e.endMs).bind fun r r' hr => .of_ok ⟨?_, hr.graphs⟩
    exact congrArg₂ List.cons hlabel hr.labels

omit [Scalar α] in
theorem builtAlike_concatenate (h : g.Alike R g') (labels : List String) :
    BuiltAlike R (concatenate g labels) (concatenate g' labels) := by
  unfold concatenate
  split
  · exact ⟨rfl, h⟩
  · exact h.grow (forall₂_self _) _ _

theorem aligned_assembleTrack (hsegment : SegmentsAlike settings settings' R)
    (sources : List String) (h : g.Alike R g') (clips : List (Element α)) :
    Aligned (assembleTrack settings sources g clips) (assembleTrack settings' sources g' clips)
      (BuiltAlike R) := by
  refine (aligned_buildSegments hsegment sources h 0 _).bind fun r r' hr => .of_ok ?_
  rw [← hr.labels]
  exact builtAlike_concatenate hr.graphs r.1

theorem aligned_buildLayers (hsegment : SegmentsAlike settings settings' R)
    (sources : List String) (pictures : List (Element α)) (h : g.Alike R g') (current : String)
    (tracks : List String) :
    Aligned (buildLayers settings sources pictures g current tracks)
      (buildLayers settings' sources pictures g' current tracks) (BuiltAlike R) := by
  induction tracks generalizing g g' current with
  | nil => exact .of_ok ⟨rfl, h⟩
  | cons track tracks ih =>
    rw [buildLayers, buildLayers]
    dsimp only
    split
    · exact ih h current
    · refine (aligned_assembleTrack hsegment sources h _).bind fun r r' hr => ?_
      obtain ⟨label, built⟩ := r
      obtain ⟨label', built'⟩ := r'
      obtain ⟨rfl, hbuilt⟩ := hr
      obtain ⟨hlayer, hgrow⟩ :=
        Graph.Alike.grow hbuilt (forall₂_self [overlayFilter]) "layer" [current, label]
      dsimp only at hlayer ⊢
      rw [← hlayer]
      exact ih hgrow _

theorem aligned_buildVideo (hsegment : SegmentsAlike settings settings' R) (es : List (Element α))
    (order sources : List String) (overlayIndex : Option Nat) :
    Aligned (buildVideo settings es order sources overlayIndex)
      (buildVideo settings' es order sources overlayIndex) (Graph.Alike R) := by
  have hbase : (Graph.place ({} : Graph α) [streamLabel sources.length "v"]
      [{ name := "setsar", positional := [.int 1] }] "base").Alike R
      (Graph.place {} [streamLabel sources.length "v"]
        [{ name := "setsar", positional := [.int 1] }] "base") :=
    Graph.Alike.place ⟨.nil, rfl⟩ (forall₂_self _) _ _
  refine (aligned_buildLayers hsegment sources _ hbase "base" order).bind fun r r' hr => ?_
  have hlay : BuiltAlike R (layOverlay overlayIndex r) (layOverlay overlayIndex r') := by
    cases overlayIndex with
    | none => exact hr
    | some index =>
      rw [layOverlay, layOverlay, ← hr.labels]
      exact hr.graphs.grow (forall₂_self _) _ _
  have hfinish := hlay.aligned_finish
    (forall₂_self [{ name := "format", positional := [.text "yuv420p"] }]) videoOutput
  cases overlayIndex <;> exact hfinish

theorem aligned_buildClips (sampleRate : Int) (h : g.Alike R g') (clips : List (AudioClip α)) :
    Aligned (buildClips sampleRate g clips) (buildClips sampleRate g' clips) (BuiltAlike R) := by
  induction clips generalizing g g' with
  | nil => exact .of_ok ⟨rfl, h⟩
  | cons clip clips ih =>
    have hbuild : Aligned (clip.build sampleRate g) (clip.build sampleRate g') (BuiltAlike R) :=
      Aligned.bind_same fun filters => .of_ok (h.grow (forall₂_self filters) "ac" [clip.input])
    refine hbuild.bind fun r r' hr => (ih hr.graphs).bind fun s s' hs => .of_ok ⟨?_, hs.graphs⟩
    exact congrArg₂ List.cons hr.labels hs.labels

omit [Scalar α] in
theorem builtAlike_mixTrack (h : g.Alike R g') (labels : List String) :
    BuiltAlike R (mixTrack g labels) (mixTrack g' labels) := by
  unfold mixTrack
  split
  · exact ⟨rfl, h⟩
  · exact h.grow (forall₂_self _) _ _

theorem aligned_buildTracks (sampleRate : Int) (h : g.Alike R g') (tracks : List (AudioTrack α)) :
    Aligned (buildTracks sampleRate g tracks) (buildTracks sampleRate g' tracks)
      (BuiltAlike R) := by
  induction tracks generalizing g g' with
  | nil => exact .of_ok ⟨rfl, h⟩
  | cons t ts ih =>
    refine (aligned_buildClips sampleRate h t.clips).bind fun r r' hr => ?_
    dsimp only
    rw [← hr.labels]
    split
    · exact ih hr.graphs
    · obtain ⟨hlabel, hmix⟩ := builtAlike_mixTrack hr.graphs r.1
      refine (ih hmix).bind fun s s' hs => .of_ok ⟨?_, hs.graphs⟩
      simp only [hlabel, hs.labels]

theorem aligned_buildAudio (sampleRate : Int) (h : g.Alike R g') (tracks : List (AudioTrack α))
    (durationMs : α) :
    Aligned (buildAudio sampleRate g tracks durationMs)
      (buildAudio sampleRate g' tracks durationMs) (Graph.Alike R) := by
  refine (aligned_buildTracks sampleRate h tracks).bind fun r r' hr => ?_
  obtain ⟨⟨labels, count⟩, built⟩ := r
  obtain ⟨labels', built'⟩ := r'
  obtain ⟨rfl, hbuilt⟩ := hr
  dsimp only at hbuilt ⊢
  split
  · exact .of_ok (hbuilt.place (forall₂_self _) _ _)
  · next _ _ label _ =>
    have hclip : BuiltAlike R (label, built) (label, built') := ⟨rfl, hbuilt⟩
    exact hclip.aligned_finish (forall₂_self _) _
  · obtain ⟨hbed, hgrow⟩ := hbuilt.grow (forall₂_self (silence sampleRate durationMs)) "abed" []
    rw [← hbed]
    exact .of_ok (hgrow.place (forall₂_self _) _ _)

theorem durationMs_of_compile {sampleRate : Int} {es : List (Element α)} {tracks : List Track}
    {overlay : Option OverlaySequence} {duration : Option α} {audioSources : List (String × Bool)}
    {p : Program α}
    (h : compile settings sampleRate es tracks overlay duration audioSources = .ok p) :
    p.durationMs = duration.getD (defaultDuration es overlay) := by
  unfold compile at h
  dsimp only at h
  obtain ⟨-, h⟩ := ite_throw_bind_eq_ok.mp h
  obtain ⟨_, -, h⟩ := bind_eq_ok.mp h
  obtain ⟨_, -, h⟩ := bind_eq_ok.mp h
  obtain ⟨_, -, h⟩ := bind_eq_ok.mp h
  obtain ⟨-, h⟩ := unit_bind_eq_ok.mp h
  cases h
  rfl

/-- **The graphs of two programs are alike**, if the filters of the segments are. -/
theorem alike_of_compile (hsegment : SegmentsAlike settings settings' R) {sampleRate : Int}
    {es : List (Element α)} {tracks : List Track} {overlay : Option OverlaySequence}
    {duration : Option α} {audioSources : List (String × Bool)} {p q : Program α}
    (hp : compile settings sampleRate es tracks overlay duration audioSources = .ok p)
    (hq : compile settings' sampleRate es tracks overlay duration audioSources = .ok q) :
    p.graph.Alike R q.graph := by
  obtain ⟨video, audio, hvideo, haudio, hg, hsources, -, -, hoverlay⟩ := steps_of_compile hp
  obtain ⟨video', audio', hvideo', haudio', hg', hsources', -, -, hoverlay'⟩ :=
    steps_of_compile hq
  rw [hoverlay, hsources] at hvideo
  rw [hoverlay', hsources'] at hvideo'
  have hvideos := aligned_buildVideo hsegment es _ _ _ video video' hvideo hvideo'
  -- the tracks with sound are read off the elements alone
  rw [hsources] at haudio
  rw [hsources'] at haudio'
  obtain rfl : audio = audio' := Except.ok.inj (haudio.symm.trans haudio')
  rw [durationMs_of_compile hp] at hg
  rw [durationMs_of_compile hq] at hg'
  exact aligned_buildAudio sampleRate hvideos audio _ _ _ hg hg'

end

/-! ### Names of filters -/

/-- Filters of one kind, whatever their arguments are. -/
def Filter.SameName (f f' : Filter α) : Prop := f.name = f'.name

instance : Std.Refl (Filter.SameName (α := α)) := ⟨fun _ => rfl⟩

/-- Chains with the same labels and the same kinds of filters. -/
structure Chain.SameShape (c d : Chain α) : Prop where
  inputs : c.inputs = d.inputs
  filterNames : c.filterNames = d.filterNames
  outputs : c.outputs = d.outputs

theorem Chain.Alike.sameShape {c d : Chain α} (h : c.Alike Filter.SameName d) :
    c.SameShape d := by
  refine ⟨h.inputs, ?_, h.outputs⟩
  have hnames : List.Forall₂ (fun name name' : String => name = name') c.filterNames
      d.filterNames :=
    List.forall₂_map_left_iff.mpr (List.forall₂_map_right_iff.mpr h.filters)
  rwa [List.forall₂_eq_eq_eq] at hnames

section
variable [Scalar α] (settings settings' : ExportSettings)

theorem sameName_zoomFilter? (entry exit : Option (Window α)) :
    List.Forall₂ Filter.SameName (zoomFilter? settings entry exit).toList
      (zoomFilter? settings' entry exit).toList := by
  unfold zoomFilter?
  dsimp only
  split
  · exact .nil
  · exact .cons rfl .nil

omit [Scalar α] in
theorem sameName_slideFilters (entry exit : Option (Window α)) :
    List.Forall₂ Filter.SameName (slideFilters settings entry exit)
      (slideFilters settings' entry exit) := by
  unfold slideFilters
  dsimp only
  split
  · exact .nil
  · exact .cons rfl (.cons rfl .nil)

namespace Element

theorem sameName_sourceFilters (e : Element α) :
    List.Forall₂ Filter.SameName (e.sourceFilters settings) (e.sourceFilters settings') := by
  unfold sourceFilters
  split
  · exact .cons rfl (.cons rfl .nil)
  · exact forall₂_self _

theorem sameName_transitionFilters (e : Element α) :
    List.Forall₂ Filter.SameName (e.transitionFilters settings)
      (e.transitionFilters settings') := by
  refine List.rel_append (List.rel_append (List.rel_append (forall₂_self _) ?_) ?_)
    (forall₂_self _)
  · exact sameName_zoomFilter? settings settings' e.entry e.exit
  · exact sameName_slideFilters settings settings' e.entry e.exit

/-- Which filters fit a clip into the frame depends on its scale, and not on the frame. -/
theorem aligned_fitFilters (e : Element α) :
    Aligned (e.fitFilters settings) (e.fitFilters settings')
      (List.Forall₂ Filter.SameName) := by
  refine Aligned.trivially.bind fun _ _ _ => Aligned.trivially.bind fun _ _ _ => .of_ok ?_
  refine List.rel_append (List.rel_append ?_ ?_) ?_
  · exact .cons rfl .nil
  · split
    · exact .cons rfl .nil
    · exact .nil
  · exact .cons rfl (.cons rfl .nil)

end Element

/-- **No setting decides which filters a segment has.** -/
theorem segmentsAlike_sameName : SegmentsAlike (α := α) settings settings' Filter.SameName := by
  intro gapMs e
  refine (e.aligned_fitFilters settings settings').bind fun fit fit' hfit => .of_ok ?_
  have hrate : List.Forall₂ Filter.SameName
      [({ name := "fps", positional := [.int settings.fps] } : Filter α)]
      [{ name := "fps", positional := [.int settings'.fps] }] := .cons rfl .nil
  have hfitted := List.rel_append
    (List.rel_append (e.sameName_sourceFilters settings settings') hrate) hfit
  have hopaque := List.rel_append (List.rel_append hfitted
    (forall₂_self [{ name := "format", positional := [.text "yuva420p"] }]))
    (forall₂_self e.opacityFilters)
  have hshown := List.rel_append hopaque (e.sameName_transitionFilters settings settings')
  exact List.rel_append (List.rel_append hshown (forall₂_self _)) (forall₂_self _)

variable {settings settings'}

/-- Size and frame rate are all that a segment takes from the settings. -/
theorem segmentsAlike_eq (hresolution : settings.resolution = settings'.resolution)
    (haspect : settings.aspectRatio = settings'.aspectRatio)
    (hfps : settings.fps = settings'.fps) : SegmentsAlike (α := α) settings settings' Eq := by
  obtain ⟨resolution, fps, quality, aspect, optimization⟩ := settings
  obtain ⟨resolution', fps', quality', aspect', optimization'⟩ := settings'
  cases hresolution
  cases haspect
  cases hfps
  intro gapMs e
  rw [List.forall₂_eq_eq_eq]
  exact Aligned.refl _

end

/-! ### Topology -/

/-- Inputs of one kind, which are the same file or the same pictures. What is generated may
differ. -/
inductive Input.SameSource : Input α → Input α → Prop
  | file (path : String) : SameSource (.file path) (.file path)
  | generated (source source' : Formula α) : SameSource (.generated source) (.generated source')
  | pictures (pattern : String) (fps : Int) :
    SameSource (.pictures pattern fps) (.pictures pattern fps)

/-- **Programs with the same topology**: as many chains with the same labels and kinds of filters,
and inputs of the same kinds from the same files. -/
structure Program.SameTopology (p q : Program α) : Prop where
  chains : List.Forall₂ Chain.SameShape p.graph.chains q.graph.chains
  inputs : List.Forall₂ Input.SameSource p.inputs q.inputs
  sources : p.sources = q.sources
  backgroundIndex : p.backgroundIndex = q.backgroundIndex
  overlayIndex : p.overlayIndex = q.overlayIndex
  durationMs : p.durationMs = q.durationMs

theorem sameSource_programInputs (settings settings' : ExportSettings) (sources : List String)
    (durationMs : α) (overlay : Option OverlaySequence) :
    List.Forall₂ Input.SameSource (programInputs settings sources durationMs overlay)
      (programInputs settings' sources durationMs overlay) := by
  have hfiles : List.Forall₂ Input.SameSource (sources.map (Input.file (α := α)))
      (sources.map .file) :=
    List.forall₂_same.mpr fun i hi => by
      obtain ⟨path, -, rfl⟩ := List.mem_map.mp hi
      exact .file path
  refine List.rel_append (List.rel_append hfiles (.cons (.generated _ _) .nil)) ?_
  cases overlay with
  | none => exact .nil
  | some o => exact .cons (.pictures o.path o.fps) .nil

section
variable [Scalar α] {settings settings' : ExportSettings} {sampleRate : Int}
  {es : List (Element α)} {tracks : List Track} {overlay : Option OverlaySequence}
  {duration : Option α} {audioSources : List (String × Bool)} {p q : Program α}

/-- Programs of one timeline for any two settings have the same topology. -/
theorem sameTopology_of_compile
    (hp : compile settings sampleRate es tracks overlay duration audioSources = .ok p)
    (hq : compile settings' sampleRate es tracks overlay duration audioSources = .ok q) :
    p.SameTopology q := by
  obtain ⟨-, -, -, -, -, hsources, hinputs, hbackground, hoverlay⟩ := steps_of_compile hp
  obtain ⟨-, -, -, -, -, hsources', hinputs', hbackground', hoverlay'⟩ := steps_of_compile hq
  have hsame : p.sources = q.sources := hsources.trans hsources'.symm
  have hduration : p.durationMs = q.durationMs :=
    (durationMs_of_compile hp).trans (durationMs_of_compile hq).symm
  have halike := alike_of_compile (segmentsAlike_sameName settings settings') hp hq
  exact {
    chains := halike.chains.imp fun _ _ h => h.sameShape
    inputs := by
      rw [hinputs, hinputs', hsame, hduration]
      exact sameSource_programInputs settings settings' _ _ overlay
    sources := hsame
    backgroundIndex := by rw [hbackground, hbackground', hsame]
    overlayIndex := by rw [hoverlay, hoverlay', hsame]
    durationMs := hduration }

/-- Programs of one timeline for settings of one size and frame rate are equal. -/
theorem eq_of_compile (hresolution : settings.resolution = settings'.resolution)
    (haspect : settings.aspectRatio = settings'.aspectRatio)
    (hfps : settings.fps = settings'.fps)
    (hp : compile settings sampleRate es tracks overlay duration audioSources = .ok p)
    (hq : compile settings' sampleRate es tracks overlay duration audioSources = .ok q) :
    p = q := by
  have hgraph : p.graph = q.graph :=
    (alike_of_compile (segmentsAlike_eq hresolution haspect hfps) hp hq).eq
  have htopology := sameTopology_of_compile hp hq
  obtain ⟨-, -, -, -, -, -, hinputs, -, -⟩ := steps_of_compile hp
  obtain ⟨-, -, -, -, -, -, hinputs', -, -⟩ := steps_of_compile hq
  have hsize : settings.size = settings'.size := by
    rw [ExportSettings.size, ExportSettings.size, hresolution, haspect]
  have hsame : p.inputs = q.inputs := by
    rw [hinputs, hinputs', htopology.sources, htopology.durationMs]
    simp only [programInputs, ExportSettings.width, ExportSettings.height, hsize, hfps]
  obtain ⟨inputs, graph, durationMs, sources, backgroundIndex, overlayIndex⟩ := p
  obtain ⟨-, -, hsources, hbackground, hoverlay, hduration⟩ := htopology
  cases hgraph
  cases hsame
  cases hsources
  cases hbackground
  cases hoverlay
  cases hduration
  rfl

/-- **Settings never change the topology.** If one timeline compiles for two exports, the programs
have the same chains with the same labels and the same filters by name, and inputs of the same kinds
from the same files; and exports of the same size and frame rate have the same program. -/
theorem compile_topology
    (hp : compile settings sampleRate es tracks overlay duration audioSources = .ok p)
    (hq : compile settings' sampleRate es tracks overlay duration audioSources = .ok q) :
    p.SameTopology q ∧
      (settings.resolution = settings'.resolution → settings.aspectRatio = settings'.aspectRatio →
        settings.fps = settings'.fps → p = q) :=
  ⟨sameTopology_of_compile hp hq, fun hresolution haspect hfps =>
    eq_of_compile hresolution haspect hfps hp hq⟩

end

/-- A clip that zooms in and slides out. -/
def movingClip : Element Float :=
  { Element.plain .video "clip" "main" "a.mp4" 500 3500 with
    transitionIn := some { effect := some .zoom, durationMs := 400 }
    transitionOut := some { effect := some .slide, durationMs := 600 } }

/-- A clip with transitions has one topology in landscape at 30 frames and in portrait at 24; for
another quality its program is the same. -/
theorem movingClip_topology :
    ∃ p q r,
      compile {} 48000 [movingClip] [{ id := "main" }] none none [] = .ok p ∧
      compile { resolution := .p480, fps := 24, aspectRatio := .vertical } 48000 [movingClip]
        [{ id := "main" }] none none [] = .ok q ∧
      compile { quality := .low, optimization := .speed } 48000 [movingClip] [{ id := "main" }]
        none none [] = .ok r ∧
      p.graph.render ≠ q.graph.render ∧ p.SameTopology q ∧ p = r := by
  obtain ⟨p, hp⟩ : Succeeds (compile {} 48000 [movingClip] [{ id := "main" }] none none []) :=
    .of_isOk (by decide +kernel)
  obtain ⟨q, hq⟩ : Succeeds (compile { resolution := .p480, fps := 24, aspectRatio := .vertical }
      48000 [movingClip] [{ id := "main" }] none none []) := .of_isOk (by decide +kernel)
  obtain ⟨r, hr⟩ : Succeeds (compile { quality := .low, optimization := .speed } 48000
      [movingClip] [{ id := "main" }] none none []) := .of_isOk (by decide +kernel)
  have hrender : (compile {} 48000 [movingClip] [{ id := "main" }] none none []).toOption.map
      (fun p => p.graph.render) ≠
      (compile { resolution := .p480, fps := 24, aspectRatio := .vertical } 48000 [movingClip]
        [{ id := "main" }] none none []).toOption.map (fun q => q.graph.render) := by
    decide +kernel
  rw [hp, hq] at hrender
  exact ⟨p, q, r, hp, hq, hr, fun heq => hrender (congrArg some heq), (compile_topology hp hq).1,
    (compile_topology hp hr).2 rfl rfl rfl⟩

end TimelineExport
