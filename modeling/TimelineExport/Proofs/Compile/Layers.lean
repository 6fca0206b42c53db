import TimelineExport.Proofs.Compile.Placement
import TimelineExport.Proofs.StableSort

/-!
# The layers of a picture

A picture is built from below: a current stream is laid under the next track, and what comes out is
the current stream from then on. `Graph.Composites` reads a finished graph the other way, from a
chain down: every layer has a stream on top and the rest below it, until a chain is found that lays
nothing over anything. There is only one such reading (`Graph.Composites.unique`).

In every program the reading from `vout` gives the overlay frames, if there are any, the tracks with
pictures from the last to the first in the order of their indexes, and the background
(`compile_composites_tracks`). A track is one entry of the track list, at its position there; an id
that is listed twice is shown twice.
-/

namespace TimelineExport

variable {α : Type}

/-! ### Reading a graph -/

/-- **What a chain shows**: streams that are laid one over another, from the top, and a chain below
all of them that lays nothing over anything. -/
inductive Graph.Composites (g : Graph α) : Chain α → List String → Chain α → Prop
  | bottom {c : Chain α} (hplain : ∀ f ∈ c.filters, f.name ≠ "overlay") : g.Composites c [] c
  | layered {c d bottom : Chain α} {below above : String} {labels : List String}
      (hinputs : c.inputs = [below, above]) (hoverlay : overlayFilter ∈ c.filters)
      (hbelow : g.producer? below = some d) (hrest : g.Composites d labels bottom) :
      g.Composites c (above :: labels) bottom

namespace Graph.Composites

variable {g : Graph α} {c bottom bottom' : Chain α} {labels labels' : List String}

/-- A chain is read in one way. -/
theorem unique (h : g.Composites c labels bottom) (h' : g.Composites c labels' bottom') :
    labels = labels' ∧ bottom = bottom' := by
  induction h generalizing labels' with
  | bottom hplain =>
    cases h' with
    | bottom _ => exact ⟨rfl, rfl⟩
    | layered _ hoverlay _ _ => exact absurd rfl (hplain _ hoverlay)
  | layered hinputs hoverlay hbelow _ ih =>
    cases h' with
    | bottom hplain => exact absurd rfl (hplain _ hoverlay)
    | layered hinputs' _ hbelow' hrest' =>
      obtain ⟨rfl, rfl⟩ : _ = _ ∧ _ = _ := by simpa using hinputs.symm.trans hinputs'
      obtain rfl := Option.some.inj (hbelow.symm.trans hbelow')
      obtain ⟨rfl, rfl⟩ := ih hrest'
      exact ⟨rfl, rfl⟩

/-- A chain that is finished shows the same streams over the same inputs. -/
theorem finished (h : g.Composites c labels bottom) {fs : List (Filter α)}
    (hfs : ∀ f ∈ fs, f.name ≠ "overlay") (outputs : List String) :
    ∃ bottom', bottom'.inputs = bottom.inputs ∧
      g.Composites ⟨c.inputs, c.filters ++ fs, outputs⟩ labels bottom' := by
  cases h with
  | bottom hplain =>
    exact ⟨⟨c.inputs, c.filters ++ fs, outputs⟩, rfl,
      .bottom fun f hf => (List.mem_append.mp hf).elim (hplain f) (hfs f)⟩
  | layered hinputs hoverlay hbelow hrest =>
    exact ⟨bottom, rfl, .layered hinputs (List.mem_append_left fs hoverlay) hbelow hrest⟩

end Graph.Composites

/-! ### The layers of the tracks -/

section
variable [Scalar α] {settings : ExportSettings} {sources : List String}
  {pictures : List (Element α)}

/-- A stream is the picture of a track among some chains: those of the track are there, and a layer
over something. -/
def IsLayerOf (settings : ExportSettings) (sources : List String) (pictures : List (Element α))
    (cs : List (Chain α)) (track label : String) : Prop :=
  ∃ ds below layer, TrackRun settings sources (pictures.filter (·.trackId = track)) ds label ∧
    ds ⊆ cs ∧ ⟨[below, label], [overlayFilter], [layer]⟩ ∈ cs

theorem IsLayerOf.mono {cs cs' : List (Chain α)} {track label : String}
    (h : IsLayerOf settings sources pictures cs track label) (hsub : cs ⊆ cs') :
    IsLayerOf settings sources pictures cs' track label := by
  obtain ⟨ds, below, layer, hrun, hds, hlayer⟩ := h
  exact ⟨ds, below, layer, hrun, fun c hc => hsub (hds hc), hsub hlayer⟩

/-- Whether a track has pictures. -/
def hasPictures (pictures : List (Element α)) (track : String) : Bool :=
  !(pictures.filter (·.trackId = track)).isEmpty

/-- **The chains of the tracks show the tracks**, the last one on top, over what is below them. It
is enough that the streams that are taken have their chains in the graph. -/
theorem LayerRun.composites {below top : String} {tracks : List String} {cs : List (Chain α)}
    (h : LayerRun settings sources pictures below tracks cs top) {g : Graph α} {d bottom : Chain α}
    {labels : List String} (houtput : d.outputs = [below]) (hbelow : g.Composites d labels bottom)
    (hkept : ∀ c ∈ d :: cs, ∀ l, c.outputs = [l] → (∃ e ∈ cs, l ∈ e.inputs) →
      g.producer? l = some c) :
    ∃ c ∈ d :: cs, c.outputs = [top] ∧ ∃ layers, g.Composites c (layers ++ labels) bottom ∧
      List.Forall₂ (IsLayerOf settings sources pictures cs)
        (tracks.filter (hasPictures pictures)).reverse layers := by
  -- what is below grows by a layer with every track, so the chain below is general
  induction h generalizing d labels with
  | nil => exact ⟨d, List.mem_cons_self, houtput, [], hbelow, .nil⟩
  | @skip below top track tracks cs hempty _ ih =>
    have hskip : hasPictures pictures track = false := by simp [hasPictures, hempty]
    rw [List.filter_cons_of_neg (by simp [hskip])]
    exact ih houtput hbelow hkept
  | @cons below label layer top track tracks cs ds hne htrack _ ih =>
    have hshown : hasPictures pictures track = true := by simpa [hasPictures] using hne
    have hsub : ds ⊆ cs ++ ⟨[below, label], [overlayFilter], [layer]⟩ :: ds := fun c hc =>
      List.mem_append_right cs (List.mem_cons_of_mem _ hc)
    have hlayer : (⟨[below, label], [overlayFilter], [layer]⟩ : Chain α) ∈
        cs ++ ⟨[below, label], [overlayFilter], [layer]⟩ :: ds :=
      List.mem_append_right cs List.mem_cons_self
    have hover : g.Composites ⟨[below, label], [overlayFilter], [layer]⟩ (label :: labels) bottom :=
      .layered rfl List.mem_cons_self
        (hkept d List.mem_cons_self below houtput ⟨_, hlayer, List.mem_cons_self⟩) hbelow
    obtain ⟨c, hc, hctop, layers, hcomposites, hlayers⟩ := ih rfl hover
      fun c hc l hl ⟨e, he, hmem⟩ => hkept c
        (List.mem_cons_of_mem d (List.mem_append_right cs hc)) l hl ⟨e, hsub he, hmem⟩
    refine ⟨c, List.mem_cons_of_mem d (List.mem_append_right cs hc), hctop, layers ++ [label],
      by rwa [List.append_assoc, List.singleton_append], ?_⟩
    rw [List.filter_cons_of_pos hshown, List.reverse_cons]
    refine List.rel_append (hlayers.imp fun _ _ h => h.mono hsub) (.cons ?_ .nil)
    exact ⟨cs, below, layer, htrack, List.subset_append_left _ _, hlayer⟩

end

/-! ### The order of the tracks -/

/-- One entry of the track list lies above another: its index is greater, or they have the same
index and it comes later in the list. -/
def IsAbove (t u : Track × Nat) : Prop :=
  u.1.index < t.1.index ∨ u.1.index = t.1.index ∧ u.2 < t.2

/-- The track list with the positions of its entries, in the order of the tracks. -/
def sortedEntries (tracks : List Track) : List (Track × Nat) :=
  tracks.zipIdx.mergeSort (List.zipIdxLE fun a b => a.index ≤ b.index)

theorem sortedEntries_perm (tracks : List Track) : (sortedEntries tracks).Perm tracks.zipIdx :=
  List.mergeSort_perm _ _

theorem trackOrder_eq_map_sortedEntries (tracks : List Track) :
    trackOrder tracks = (sortedEntries tracks).map (·.1.id) := by
  rw [trackOrder, ← List.mergeSort_zipIdx, List.map_map]
  rfl

theorem sortedEntries_pairwise (tracks : List Track) :
    (sortedEntries tracks).Pairwise fun t u => IsAbove u t :=
  sortedByKey_pairwise Track.index tracks

/-! ### The program -/

/-- The overlay frames, if there are any, lie over a stream. -/
theorem composites_layOverlay {g : Graph α} {r : String × Graph α} (overlayIndex : Option Nat)
    {c bottom : Chain α} {labels : List String} (hc : c ∈ r.2.chains) (houtput : c.outputs = [r.1])
    (hcomposites : g.Composites c labels bottom)
    (hkept : ∀ c ∈ (layOverlay overlayIndex r).2.chains, ∀ l, c.outputs = [l] →
      (∃ e ∈ (layOverlay overlayIndex r).2.chains, l ∈ e.inputs) → g.producer? l = some c) :
    ∃ c' ∈ (layOverlay overlayIndex r).2.chains, c'.outputs = [(layOverlay overlayIndex r).1] ∧
      g.Composites c' ((overlayIndex.map fun index => streamLabel index "v").toList ++ labels)
        bottom := by
  cases overlayIndex with
  | none => exact ⟨c, hc, houtput, hcomposites⟩
  | some index =>
    have hlast : (⟨[r.1, streamLabel index "v"], [overlayFilter], [(r.2.newLabel "layer").1]⟩ :
        Chain α) ∈ (layOverlay (some index) r).2.chains :=
      List.mem_append_right r.2.chains List.mem_cons_self
    refine ⟨_, hlast, rfl, .layered rfl List.mem_cons_self ?_ hcomposites⟩
    exact hkept c (List.mem_append_left _ hc) r.1 houtput ⟨_, hlast, List.mem_cons_self⟩

/-- The conversion to the engine's pixel format. -/
def pixelFormat : Filter α := { name := "format", positional := [.text "yuv420p"] }

/-- The source of the background. -/
def backgroundSource (settings : ExportSettings) (durationMs : α) : Formula α :=
  [.text ("color=c=black:s=" ++ toString settings.width ++ "x" ++ toString settings.height ++
    ":r=" ++ toString settings.fps ++ ":d="), .seconds durationMs]

/-- A chain shows the background and nothing else. -/
def Program.ShowsBackground (settings : ExportSettings) (p : Program α) (c : Chain α) : Prop :=
  ∃ index, c.inputs = [streamLabel index "v"] ∧
    p.inputs[index]? = some (.generated (backgroundSource settings p.durationMs))

/-- A stream shows the frames of an overlay. -/
def Program.ShowsFrames (p : Program α) (o : OverlaySequence) (label : String) : Prop :=
  ∃ index, label = streamLabel index "v" ∧ p.inputs[index]? = some (.pictures o.path o.fps)

section
variable {settings : ExportSettings} {overlay : Option OverlaySequence} {p : Program α}

theorem showsBackground_of_inputs {c : Chain α}
    (hinputs : p.inputs = programInputs settings p.sources p.durationMs overlay)
    (hc : c.inputs = [streamLabel p.sources.length "v"]) : p.ShowsBackground settings c := by
  refine ⟨_, hc, ?_⟩
  rw [hinputs]
  simp [programInputs, backgroundSource]

theorem showsFrames_of_inputs
    (hinputs : p.inputs = programInputs settings p.sources p.durationMs overlay)
    (hoverlay : p.overlayIndex = overlay.map fun _ => p.sources.length + 1) :
    List.Forall₂ p.ShowsFrames overlay.toList
      (p.overlayIndex.map fun index => streamLabel index "v").toList := by
  rw [hoverlay]
  cases overlay with
  | none => exact .nil
  | some o =>
    refine .cons ⟨_, rfl, ?_⟩ .nil
    rw [hinputs]
    simp [programInputs]

end

section
variable [Scalar α]

section
variable {settings : ExportSettings} {sampleRate : Int} {es : List (Element α)}
  {tracks : List Track} {overlay : Option OverlaySequence} {duration : Option α}
  {audioSources : List (String × Bool)} {p : Program α}

/-- **The picture in a program**: its chains are those of the background, the tracks and the
overlay frames, finished twice, and the last of them ends in the conversion of the pixels. -/
theorem picture_of_compile
    (h : compile settings sampleRate es tracks overlay duration audioSources = .ok p) :
    ∃ r cs video rest,
      LayerRun settings p.sources (es.filter (·.kind.isPicture)) "base" (trackOrder tracks) cs
        r.1 ∧
      r.2.chains = baseChain p.sources.length :: cs ∧
      Finishes (layOverlay p.overlayIndex r).2.chains video ∧
      Finishes (video ++ rest) p.graph.chains ∧
      ∀ c ∈ (layOverlay p.overlayIndex r).2.chains,
        c.outputs = [(layOverlay p.overlayIndex r).1] →
        ⟨c.inputs, c.filters ++ [pixelFormat], [videoOutput]⟩ ∈ p.graph.chains := by
  obtain ⟨video, audio, hvideo, haudio, hg, -⟩ := steps_of_compile h
  obtain ⟨hlength, hbounded⟩ := index_lt_of_compile h
  obtain ⟨hwired, hclips⟩ := wired_of_compile h hvideo haudio
  obtain ⟨r, cs, hrun, hchains, hlive, hfinish⟩ :=
    (meets_buildVideo_steps settings es _ hlength hbounded).of_eq_ok hvideo
  have hsingle : ∀ f ∈ [(pixelFormat : Filter α)], f.IsSingle := by
    simp [Filter.IsSingle, pixelFormat]
  obtain ⟨sounds, -, finish, -, -, hfinishes⟩ :=
    (meets_buildAudio_run sampleRate hwired hclips _).of_eq_ok hg
  rw [List.append_assoc] at hfinishes
  refine ⟨r, cs, video.chains, sounds ++ finish, hrun, hchains,
    hlive.finishes_of_relabel hsingle hfinish, hfinishes, fun c hc houtput => ?_⟩
  -- `vout` is live while the sound is built, so the sound leaves its chain alone
  exact (meets_buildAudio_keeps sampleRate hwired hclips _).of_eq_ok hg _
    (hlive.extended_mem_of_relabel hsingle hfinish hc houtput) rfl

/-- **The tracks of a program lie in the order of their indexes**, the greatest on top and equal
ones in the order of the list, under the overlay frames and over the background; and the picture is
given in the engine's pixel format. -/
theorem compile_composites_tracks
    (h : compile settings sampleRate es tracks overlay duration audioSources = .ok p) :
    ∃ top frames labels bottom entries,
      p.graph.producer? videoOutput = some top ∧ top.filters.getLast? = some pixelFormat ∧
      p.graph.Composites top (frames ++ labels) bottom ∧
      List.Forall₂ p.ShowsFrames overlay.toList frames ∧
      entries.Perm
        (tracks.zipIdx.filter fun t => hasPictures (es.filter (·.kind.isPicture)) t.1.id) ∧
      entries.Pairwise IsAbove ∧
      List.Forall₂ (fun t label => p.ShowsTrack settings
        ((es.filter (·.kind.isPicture)).filter (·.trackId = t.1.id)) label) entries labels ∧
      p.ShowsBackground settings bottom := by
  have hnodup := nodup_produced_of_compile h
  obtain ⟨-, -, -, -, -, -, hinputs, -, hoverlay⟩ := steps_of_compile h
  obtain ⟨r, cs, video, rest, hrun, hchains, hfinishes, hfinishes', htop⟩ := picture_of_compile h
  -- below the top every stream is taken, so its chain is found as it was built
  have hkept : ∀ c ∈ (layOverlay p.overlayIndex r).2.chains, ∀ l, c.outputs = [l] →
      (∃ e ∈ (layOverlay p.overlayIndex r).2.chains, l ∈ e.inputs) →
      p.graph.producer? l = some c := fun c hc l hl htaken =>
    Graph.producer?_eq_some hnodup (hfinishes.kept_append hfinishes' hc hl htaken)
      (hl ▸ List.mem_singleton_self l)
  have hsub : baseChain p.sources.length :: cs ⊆ (layOverlay p.overlayIndex r).2.chains := by
    obtain ⟨layer, hlayer⟩ := chains_layOverlay p.overlayIndex r
    rw [hlayer, ← hchains]
    exact List.subset_append_left _ _
  have hsub' := fun c hc => hsub (List.mem_cons_of_mem (baseChain p.sources.length) (a := c) hc)
  have hbase : p.graph.Composites (baseChain p.sources.length) [] (baseChain p.sources.length) :=
    .bottom (by simp [baseChain])
  obtain ⟨c, hc, houtput, labels, hcomposites, hlabels⟩ := hrun.composites rfl hbase
    fun c hc l hl ⟨e, he, hmem⟩ => hkept c (hsub hc) l hl ⟨e, hsub' e he, hmem⟩
  obtain ⟨c', hc', houtput', hcomposites'⟩ :=
    composites_layOverlay p.overlayIndex (hchains ▸ hc) houtput hcomposites hkept
  have hplain : ∀ f ∈ [(pixelFormat : Filter α)], f.name ≠ "overlay" := by simp [pixelFormat]
  obtain ⟨bottom, hbottom, hfinished⟩ := hcomposites'.finished hplain [videoOutput]
  refine ⟨_, _, labels, bottom, ((sortedEntries tracks).filter fun t =>
      hasPictures (es.filter (·.kind.isPicture)) t.1.id).reverse,
    Graph.producer?_eq_some hnodup (htop c' hc' houtput') List.mem_cons_self,
    List.getLast?_concat, ?_, showsFrames_of_inputs hinputs hoverlay, ?_, ?_, ?_,
    showsBackground_of_inputs hinputs hbottom⟩
  · rwa [List.append_nil] at hfinished
  · exact (List.reverse_perm _).trans ((sortedEntries_perm tracks).filter _)
  · exact List.pairwise_reverse.mpr ((sortedEntries_pairwise tracks).filter _)
  · rw [trackOrder_eq_map_sortedEntries, List.filter_map, ← List.map_reverse] at hlabels
    refine (List.forall₂_map_left_iff.mp hlabels).imp fun t label ht => ?_
    obtain ⟨ds, below, layer, hds, hdsub, hmem⟩ := ht
    exact .of_run hnodup hfinishes hfinishes' hds (fun c hc => hsub' c (hdsub hc)) (hsub' _ hmem)

end

end

/-- Two tracks of one index, one below them and one without pictures, under overlay frames. -/
theorem tied_tracks_are_composited :
    let still (track : String) : Element Rat := .plain .image track track "a.png" 0 1000
    let overlay : OverlaySequence := { directory := "frames", frameCount := 30, fps := 30 }
    ∃ p top frames later earlier lowest bottom,
      compile {} 48000 [still "c", still "b", still "a"]
        [{ id := "a", index := 2 }, { id := "b", index := -1 }, { id := "c", index := 2 },
          { id := "d", index := 5 }] (some overlay) none [] = .ok p ∧
      p.graph.producer? videoOutput = some top ∧
      p.graph.Composites top [frames, later, earlier, lowest] bottom ∧
      p.ShowsFrames overlay frames ∧ p.ShowsTrack {} [still "c"] later ∧
      p.ShowsTrack {} [still "a"] earlier ∧ p.ShowsTrack {} [still "b"] lowest ∧
      p.ShowsBackground {} bottom := by
  intro still overlay
  have hsources : ∀ e ∈ [still "c", still "b", still "a"],
      e.kind.isMedia → e.assetSource.isSome := by decide +kernel
  have hspeeds : ∀ e ∈ [still "c", still "b", still "a"],
      e.kind.hasSound → IsSupported e.speed := by
    unfold IsSupported
    decide +kernel
  obtain ⟨p, hp⟩ : Succeeds (compile {} 48000 [still "c", still "b", still "a"]
      [{ id := "a", index := 2 }, { id := "b", index := -1 }, { id := "c", index := 2 },
        { id := "d", index := 5 }] (some overlay) none []) :=
    succeeds_compile {} 48000 hsources hspeeds _ (by decide +kernel) []
  obtain ⟨top, frames, labels, bottom, entries, htop, -, hcomposites, hframes, hperm, hsorted,
    hlabels, hbottom⟩ := compile_composites_tracks hp
  have hperm' : entries.Perm [(⟨"c", 2, .video⟩, 2), (⟨"a", 2, .video⟩, 0),
      (⟨"b", -1, .video⟩, 1)] := hperm.trans (by decide +kernel)
  have hentries : entries = [(⟨"c", 2, .video⟩, 2), (⟨"a", 2, .video⟩, 0),
      (⟨"b", -1, .video⟩, 1)] := by
    refine hperm'.eq_of_pairwise (fun t u _ _ h h' => ?_) hsorted ?_
    · unfold IsAbove at h h'
      omega
    · unfold IsAbove
      decide
  subst hentries
  obtain - | ⟨hlater, - | ⟨hearlier, - | ⟨hlowest, ⟨⟩⟩⟩⟩ := hlabels
  obtain - | ⟨hframe, ⟨⟩⟩ := hframes
  exact ⟨p, top, _, _, _, _, bottom, hp, htop, hcomposites, hframe, hlater, hearlier, hlowest,
    hbottom⟩

end TimelineExport
