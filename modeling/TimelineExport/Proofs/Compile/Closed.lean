import TimelineExport.Proofs.Compile.ClipFilters
import TimelineExport.Proofs.Timeline.Accepted

/-!
# Compiled graphs are closed

Every builder of a program takes a wired graph to a wired graph: the chain of a clip adds a live
stream, a concatenation or a mix replaces several by one, a layer replaces two by one. At the end
of the picture the stream `vout` is live, and at the end of the sound `aout` as well. So whatever
the elements, tracks, overlay and duration are, a compiled graph is closed
(`meets_compile_closed`), and no fault of the graph is ever the reason why a timeline does not
compile.

Nothing is used of the numbers: the results hold over any scalars.
-/

namespace TimelineExport

variable {α : Type}

/-! ### References to inputs -/

theorem streamInput?_streamLabel (index : Nat) {kind : String} (hkind : kind = "v" ∨ kind = "a") :
    streamInput? (streamLabel index kind) = some index :=
  streamInput?_reference index hkind

/-- A chain that takes the stream of an input takes no live stream. -/
theorem filter_isPlain_streamLabel (index : Nat) {kind : String}
    (hkind : kind = "v" ∨ kind = "a") : [streamLabel index kind].filter isPlain = [] := by
  simp [isPlain, streamInput?_streamLabel index hkind]

/-- A reference to an input that exists is in range. -/
theorem bounded_streamLabel {index inputCount : Nat} (h : index < inputCount) {kind : String}
    (hkind : kind = "v" ∨ kind = "a") :
    ∀ l ∈ [streamLabel index kind], IsReferenceBelow inputCount l := by
  intro l hl n hn
  obtain rfl := List.mem_singleton.mp hl
  rw [streamInput?_streamLabel index hkind, Option.mem_some_iff] at hn
  subst hn
  exact ⟨h, leadingDigits_reference index kind⟩

/-- The source of an element is an input. -/
theorem meets_sourceIndex (sources : List String) (e : Element α) :
    Meets (sourceIndex sources e) (fun i => i < sources.length) CompileFault.NotGraph := by
  unfold sourceIndex
  split
  · next i h =>
    obtain ⟨path, -, hpath⟩ := Option.bind_eq_some_iff.mp h
    exact (List.idxOf?_eq_some_iff.mp hpath).1
  · exact fun f => nofun

namespace Graph.Wired

variable {g : Graph α} {inputCount : Nat} {names live : List String}

/-- The empty graph is wired. -/
theorem empty (inputCount : Nat) : ({} : Graph α).Wired inputCount [] [] where
  nodup := List.nodup_nil
  hasLabel _ h := absurd h List.not_mem_nil
  names_stem _ h := absurd h List.not_mem_nil
  plain _ h := absurd h List.not_mem_nil
  balance := .nil
  bounded _ h := absurd h List.not_mem_nil
  ordered := trivial
  fits _ h := absurd h List.not_mem_nil

/-- Live streams are no streams of inputs. -/
theorem filter_isPlain_of_live (h : g.Wired inputCount names live) {labels : List String}
    (hlabels : labels ⊆ live) : labels.filter isPlain = labels :=
  List.filter_eq_self.mpr fun l hl => by
    simp [isPlain, h.plain l (h.mem_produced_of_live (hlabels hl))]

theorem bounded_of_live (h : g.Wired inputCount names live) {labels : List String}
    (hlabels : labels ⊆ live) : ∀ l ∈ labels, IsReferenceBelow inputCount l := by
  intro l hl n hn
  rw [h.plain l (h.mem_produced_of_live (hlabels hl))] at hn
  cases hn

/-- A chain that works on the stream of an input adds a live stream. -/
theorem grow_input (h : g.Wired inputCount names live) {stem : String} (hstem : IsLabelStem stem)
    {index : Nat} (hindex : index < inputCount) {kind : String} (hkind : kind = "v" ∨ kind = "a")
    {filters : List (Filter α)} (hsingle : ∀ f ∈ filters, f.IsSingle) :
    (g.grow stem [streamLabel index kind] filters).2.Wired inputCount names
      ((g.grow stem [streamLabel index kind] filters).1 :: live) := by
  refine h.grow hstem ?_ (bounded_streamLabel hindex hkind) fun f hf => (hsingle f hf).fits _
  rw [filter_isPlain_streamLabel index hkind, List.nil_append]

/-- A chain that joins live streams replaces them by one. -/
theorem grow_join {labels : List String} (h : g.Wired inputCount names (labels ++ live))
    {stem : String} (hstem : IsLabelStem stem) {filter : Filter α}
    (hfits : filter.Fits labels.length) :
    (g.grow stem labels [filter]).2.Wired inputCount names
      ((g.grow stem labels [filter]).1 :: live) := by
  -- live streams are no inputs', so the chain takes all of its labels from the live ones
  have hsub : labels ⊆ labels ++ live := List.subset_append_left _ _
  refine h.grow hstem ?_ (h.bounded_of_live hsub) (by simpa using hfits)
  rw [h.filter_isPlain_of_live hsub]

end Graph.Wired

/-- A live stream can be finished and given a fixed name. -/
theorem succeeds_finish {g : Graph α} {inputCount : Nat} {names live : List String}
    {label : String} (h : g.Wired inputCount names (label :: live)) {filters : List (Filter α)}
    (hsingle : ∀ f ∈ filters, f.IsSingle) (name : String) :
    Succeeds (((g.extend label filters).relabel label name).mapError
      (CompileFault.graph (α := α))) := by
  rw [Graph.relabel_eq_ok ((h.extend label hsingle).mem_produced_of_live List.mem_cons_self)]
  exact ⟨_, rfl⟩

/-- A graph in which a live stream is finished is wired, with the fixed name live. -/
theorem meets_finish_wired {g : Graph α} {inputCount : Nat} {names live : List String}
    {label : String} (h : g.Wired inputCount names (label :: live)) {filters : List (Filter α)}
    (hsingle : ∀ f ∈ filters, f.IsSingle) {name : String} (hname : IsStem name)
    (hnew : name ∉ names) (hplain : streamInput? name = none) :
    Meets (((g.extend label filters).relabel label name).mapError (.graph (α := α)))
      (fun g => g.Wired inputCount (name :: names) (name :: live)) CompileFault.NotGraph := by
  have hextend := h.extend label hsingle
  rw [Graph.relabel_eq_ok (hextend.mem_produced_of_live List.mem_cons_self)]
  exact hextend.rename hname hnew hplain

/-! ### The picture -/

theorem fits_overlayFilter : (overlayFilter : Filter α).Fits 2 where
  concat h := by simp [overlayFilter] at h
  amix h := by simp [overlayFilter] at h
  overlay _ := rfl

variable {g : Graph α} {inputCount : Nat} {names live : List String}

/-- A concatenation replaces the streams of the segments by one. -/
theorem wired_concatenate {labels : List String}
    (h : g.Wired inputCount names (labels ++ live)) :
    (concatenate g labels).2.Wired inputCount names ((concatenate g labels).1 :: live) := by
  unfold concatenate
  split
  · exact h
  · exact h.grow_join (by decide)
      { concat := fun _ => rfl, amix := fun h => by simp at h, overlay := fun h => by simp at h }

/-- The stream of the background. -/
theorem wired_base {index : Nat} (hindex : index < inputCount) :
    (Graph.place ({} : Graph α) [streamLabel index "v"]
      [{ name := "setsar", positional := [.int 1] }] "base").Wired inputCount ["base"] ["base"] := by
  refine (Graph.Wired.empty inputCount).place (by decide) List.not_mem_nil (by decide) ?_
    (bounded_streamLabel hindex (.inl rfl)) ?_
  · rw [filter_isPlain_streamLabel _ (.inl rfl), List.nil_append]
  · exact fun f hf => Filter.IsSingle.fits (by
      obtain rfl := List.mem_singleton.mp hf
      simp [Filter.IsSingle]) _

/-- Lays the overlay frames, if there are any, over a stream. -/
def layOverlay (overlayIndex : Option Nat) (r : String × Graph α) : String × Graph α :=
  match overlayIndex with
  | some index => r.2.grow "layer" [r.1, streamLabel index "v"] [overlayFilter]
  | none => r

/-- The overlay frames replace the live stream by another one. -/
theorem wired_layOverlay {r : String × Graph α} (hr : r.2.Wired inputCount names [r.1])
    {overlayIndex : Option Nat} (hoverlay : ∀ i ∈ overlayIndex, i < inputCount) :
    (layOverlay overlayIndex r).2.Wired inputCount names [(layOverlay overlayIndex r).1] := by
  cases overlayIndex with
  | none => exact hr
  | some index =>
    refine hr.grow (by decide) ?_ ?_ (by simpa using fits_overlayFilter)
    · have hpair : [r.1, streamLabel index "v"].filter isPlain = [r.1] := by
        change ([r.1] ++ [streamLabel index "v"]).filter isPlain = [r.1]
        rw [List.filter_append, hr.filter_isPlain_of_live (List.Subset.refl [r.1]),
          filter_isPlain_streamLabel index (.inl rfl), List.append_nil]
      rw [hpair, List.append_nil]
    · intro l hl
      obtain hl | hl := List.mem_cons.mp hl
      · exact hr.bounded_of_live (List.Subset.refl [r.1]) l (by simp [hl])
      · exact bounded_streamLabel (hoverlay index rfl) (.inl rfl) l hl

section
variable [Scalar α]

/-- The segments of clips add one live stream each. -/
theorem meets_buildSegments_wired (settings : ExportSettings) {sources : List String}
    (hsources : sources.length ≤ inputCount) (es : List (Element α)) (previousEnd : α)
    (h : g.Wired inputCount names live) :
    Meets (buildSegments settings sources g previousEnd es)
      (fun r => r.2.Wired inputCount names (r.1 ++ live)) CompileFault.NotGraph := by
  -- the label of a segment is live while the segments after it are built
  induction es generalizing g previousEnd live with
  | nil => exact h
  | cons e es ih =>
    refine (meets_sourceIndex sources e).bind fun index _ hindex =>
      (e.meets_segmentFilters settings _).bind fun filters _ hsingle => ?_
    have hgrow := h.grow_input (show IsLabelStem "seg" by decide)
      (Nat.lt_of_lt_of_le hindex hsources) (.inl rfl) hsingle
    refine (ih e.endMs hgrow).bind fun r _ hr => ?_
    exact hr.congr List.perm_middle

/-- The picture of a track adds a live stream. -/
theorem meets_assembleTrack_wired (settings : ExportSettings) {sources : List String}
    (hsources : sources.length ≤ inputCount) (clips : List (Element α))
    (h : g.Wired inputCount names live) :
    Meets (assembleTrack settings sources g clips)
      (fun r => r.2.Wired inputCount names (r.1 :: live)) CompileFault.NotGraph :=
  (meets_buildSegments_wired settings hsources _ 0 h).bind fun _ _ hr => wired_concatenate hr

/-- The layers of the tracks replace the live stream below by one. -/
theorem meets_buildLayers_wired (settings : ExportSettings) {sources : List String}
    (hsources : sources.length ≤ inputCount) (pictures : List (Element α))
    (tracks : List String) {current : String} (h : g.Wired inputCount names (current :: live)) :
    Meets (buildLayers settings sources pictures g current tracks)
      (fun r => r.2.Wired inputCount names (r.1 :: live)) CompileFault.NotGraph := by
  induction tracks generalizing g current with
  | nil => exact h
  | cons track tracks ih =>
    rw [buildLayers]
    dsimp only
    split
    · exact ih h
    · refine (meets_assembleTrack_wired settings hsources _ h).bind fun r _ hr => ?_
      -- the track's stream came last, but a layer takes what is below first
      have hlayer : r.2.Wired inputCount names ([current, r.1] ++ live) :=
        hr.congr (List.Perm.swap _ _ _)
      exact ih (hlayer.grow_join (by decide) fits_overlayFilter)

/-- **The picture of a program is wired, with `vout` live.** -/
theorem meets_buildVideo_wired (settings : ExportSettings) (es : List (Element α))
    (order : List String) {sources : List String} (hsources : sources.length < inputCount)
    {overlayIndex : Option Nat} (hoverlay : ∀ i ∈ overlayIndex, i < inputCount) :
    Meets (buildVideo settings es order sources overlayIndex)
      (fun g => g.Wired inputCount [videoOutput, "base"] [videoOutput]) CompileFault.NotGraph := by
  -- the base is the first layer, and the overlay frames are the last
  refine (meets_buildLayers_wired settings (Nat.le_of_lt hsources) _ order
    (wired_base hsources)).bind fun r _ hr => ?_
  have hsingle : ∀ f ∈ [({ name := "format", positional := [.text "yuv420p"] } : Filter α)],
      f.IsSingle := by simp [Filter.IsSingle]
  have hfinish := meets_finish_wired (wired_layOverlay hr hoverlay) hsingle
    (show IsStem videoOutput by decide) (by decide) (by decide)
  cases overlayIndex <;> exact hfinish

end

/-! ### The sound -/

theorem fits_mixFilter (count : Nat) (length : String) :
    (mixFilter count length : Filter α).Fits count where
  concat h := by simp [mixFilter] at h
  amix _ := rfl
  overlay h := by simp [mixFilter] at h

theorem isSingle_of_mem_silence (sampleRate : Int) (durationMs : α) :
    ∀ f ∈ silence sampleRate durationMs, f.IsSingle := by
  simp [silence, cutAudio, Filter.IsSingle]

/-- The number of inputs of a program. -/
theorem length_programInputs (settings : ExportSettings) (sources : List String) (durationMs : α)
    (overlay : Option OverlaySequence) :
    (programInputs settings sources durationMs overlay).length =
      sources.length + 1 + overlay.toList.length := by
  cases overlay <;> simp [programInputs]

/-- The background is an input. -/
theorem length_lt_length_programInputs (settings : ExportSettings) (sources : List String)
    (durationMs : α) (overlay : Option OverlaySequence) :
    sources.length < (programInputs settings sources durationMs overlay).length := by
  rw [length_programInputs]
  omega

/-- The overlay frames are an input. -/
theorem overlayIndex_lt_length_programInputs (settings : ExportSettings) (sources : List String)
    (durationMs : α) (overlay : Option OverlaySequence) :
    ∀ i ∈ overlay.map fun _ => sources.length + 1,
      i < (programInputs settings sources durationMs overlay).length := by
  intro i hi
  obtain ⟨o, rfl, rfl⟩ := Option.map_eq_some_iff.mp hi
  rw [length_programInputs]
  exact Nat.lt_succ_self _

/-- A clip that plays an input that exists. -/
def AudioClip.IsBounded (inputCount : Nat) (c : AudioClip α) : Prop :=
  ∃ index < inputCount, c.input = streamLabel index "a"

theorem AudioClip.IsBounded.mono {inputCount' : Nat} {c : AudioClip α}
    (h : c.IsBounded inputCount) (hle : inputCount ≤ inputCount') : c.IsBounded inputCount' := by
  obtain ⟨index, hindex, hinput⟩ := h
  exact ⟨index, Nat.lt_of_lt_of_le hindex hle, hinput⟩

/-- A mix replaces the streams of a track's clips by one. -/
theorem wired_mixTrack {labels : List String} (h : g.Wired inputCount names (labels ++ live)) :
    (mixTrack g labels).2.Wired inputCount names ((mixTrack g labels).1 :: live) := by
  unfold mixTrack
  split
  · exact h
  · exact h.grow_join (by decide) (fits_mixFilter _ _)

section
variable [Scalar α]

/-- Clips with sound add one live stream each. -/
theorem meets_buildClips_wired (sampleRate : Int) {clips : List (AudioClip α)}
    (hclips : ∀ c ∈ clips, c.IsBounded inputCount) (h : g.Wired inputCount names live) :
    Meets (buildClips sampleRate g clips)
      (fun r => r.2.Wired inputCount names (r.1 ++ live)) CompileFault.NotGraph := by
  induction clips generalizing g live with
  | nil => exact h
  | cons c cs ih =>
    obtain ⟨index, hindex, hinput⟩ := hclips c List.mem_cons_self
    have hbuild : Meets (c.build sampleRate g)
        (fun r => r.2.Wired inputCount names (r.1 :: live)) CompileFault.NotGraph := by
      refine (c.meets_filters sampleRate).bind fun filters _ hsingle => ?_
      rw [hinput]
      exact h.grow_input (by decide) hindex (.inr rfl) hsingle
    refine hbuild.bind fun r _ hr => ?_
    refine (ih (fun d hd => hclips d (List.mem_cons_of_mem c hd)) hr).bind fun r' _ hr' => ?_
    exact hr'.congr List.perm_middle

/-- Tracks add at most one live stream each, and no more than they have clips. -/
theorem meets_buildTracks_wired (sampleRate : Int) {tracks : List (AudioTrack α)}
    (htracks : ∀ t ∈ tracks, ∀ c ∈ t.clips, c.IsBounded inputCount)
    (h : g.Wired inputCount names live) :
    Meets (buildTracks sampleRate g tracks)
      (fun r => r.2.Wired inputCount names (r.1.1 ++ live) ∧ r.1.1.length ≤ r.1.2)
      CompileFault.NotGraph := by
  induction tracks generalizing g live with
  | nil => exact ⟨h, Nat.le_refl _⟩
  | cons t ts ih =>
    have hts : ∀ u ∈ ts, ∀ c ∈ u.clips, c.IsBounded inputCount := fun u hu =>
      htracks u (List.mem_cons_of_mem t hu)
    refine (meets_buildClips_wired sampleRate (htracks t List.mem_cons_self) h).bind
      fun r _ hr => ?_
    dsimp only
    split
    · next hempty =>
      rw [List.isEmpty_iff.mp hempty, List.nil_append] at hr
      exact ih hts hr
    · next hempty =>
      have hpos : 0 < r.1.length := List.length_pos_iff.mpr fun hnil => hempty (by simp [hnil])
      refine (ih hts (wired_mixTrack hr)).bind fun r' _ hr' => ?_
      obtain ⟨⟨rest, count⟩, g'⟩ := r'
      refine ⟨hr'.1.congr List.perm_middle, ?_⟩
      have hle : rest.length ≤ count := hr'.2
      change rest.length + 1 ≤ r.1.length + count
      omega

/-- **The sound of a program adds `aout` to the live streams.** -/
theorem meets_buildAudio_wired (sampleRate : Int) {tracks : List (AudioTrack α)}
    (htracks : ∀ t ∈ tracks, ∀ c ∈ t.clips, c.IsBounded inputCount) (durationMs : α)
    (hnames : audioOutput ∉ names) (h : g.Wired inputCount names live) :
    Meets (buildAudio sampleRate g tracks durationMs)
      (fun g => g.Wired inputCount (audioOutput :: names) (audioOutput :: live))
      CompileFault.NotGraph := by
  refine (meets_buildTracks_wired sampleRate htracks h).bind fun r _ hr => ?_
  obtain ⟨⟨labels, count⟩, g'⟩ := r
  obtain ⟨hwired, hcount⟩ := hr
  dsimp only at hwired hcount ⊢
  split
  · exact hwired.place (by decide) hnames (by decide) (.refl _) (by simp)
      fun f hf => (isSingle_of_mem_silence sampleRate durationMs f hf).fits _
  · next label rest _ =>
    -- a single clip makes a single label
    have hrest : rest = [] := List.eq_nil_of_length_eq_zero (by simpa using hcount)
    subst hrest
    exact meets_finish_wired hwired (by simp [Filter.IsSingle, cutAudio]) (by decide) hnames
      (by decide)
  · have hbed : (g'.grow "abed" [] (silence sampleRate durationMs)).2.Wired inputCount names
        (((g'.grow "abed" [] (silence sampleRate durationMs)).1 :: labels) ++ live) :=
      hwired.grow (by decide) (.refl _) (by simp)
        fun f hf => (isSingle_of_mem_silence sampleRate durationMs f hf).fits _
    have hsub := List.subset_append_left
      ((g'.grow "abed" [] (silence sampleRate durationMs)).1 :: labels) live
    refine hbed.place (by decide) hnames (by decide) ?_ (hbed.bounded_of_live hsub) ?_
    · rw [hbed.filter_isPlain_of_live hsub]
    · simpa using fits_mixFilter _ "first"

/-- What holds of the clip of every element that is heard holds of all clips of the tracks. -/
theorem meets_audioTracks {es : List (Element α)} {sources : List String}
    {audioSources : List (String × Bool)} (good : AudioClip α → Prop)
    (bad : CompileFault α → Prop)
    (hclip : ∀ e ∈ es.filter (isAudible audioSources), Meets (audioClip sources e) good bad)
    (order : List String) :
    Meets (audioTracks es order sources audioSources)
      (fun ts => ∀ t ∈ ts, ∀ c ∈ t.clips, good c) bad := by
  have hpair : ∀ e ∈ es.filter (isAudible audioSources),
      Meets (do return (e.trackId, ← audioClip sources e))
        (fun p : String × AudioClip α => good p.2) bad := fun e he =>
    (hclip e he).bind fun c _ hc => hc
  refine (Meets.mapM hpair).bind fun clips _ hclips => ?_
  have hgood : ∀ p : String × AudioClip α, p ∈ clips → good p.2 :=
    forall_of_forall₂ hclips fun _ _ h => h
  have htracks : ∀ t ∈ (groupBy (·.1) clips).map fun p =>
      (⟨p.1, p.2.map fun q => q.2⟩ : AudioTrack α), ∀ c ∈ t.clips, good c := by
    intro t ht c hc
    simp only [groupBy, List.map_map, List.mem_map] at ht
    obtain ⟨id, -, rfl⟩ := ht
    obtain ⟨p, hp, rfl⟩ := List.mem_map.mp hc
    exact hgood p (List.mem_of_mem_filter hp)
  intro t ht
  obtain ht | ht := List.mem_append.mp ht
  · obtain ⟨id, -, hfind⟩ := List.mem_filterMap.mp ht
    exact htracks t (List.mem_of_find?_eq_some hfind)
  · exact htracks t (List.mem_of_mem_filter ht)

/-- The clips with sound of a program play its sources. -/
theorem meets_audioTracks_bounded (es : List (Element α)) (order sources : List String)
    (audioSources : List (String × Bool)) :
    Meets (audioTracks es order sources audioSources)
      (fun ts => ∀ t ∈ ts, ∀ c ∈ t.clips, c.IsBounded sources.length)
      CompileFault.NotGraph := by
  refine meets_audioTracks (AudioClip.IsBounded sources.length) _ (fun e _ => ?_) order
  exact (meets_sourceIndex sources e).bind fun index _ hindex => ⟨index, hindex, rfl⟩

/-! ### The program -/

/-- What holds of every program that compiles, and of every fault. -/
theorem meets_compile_closed (settings : ExportSettings) (sampleRate : Int)
    (es : List (Element α)) (tracks : List Track) (overlay : Option OverlaySequence)
    (duration : Option α) (audioSources : List (String × Bool)) :
    Meets (compile settings sampleRate es tracks overlay duration audioSources)
      (fun p => p.graph.Closed p.inputs.length [videoOutput, audioOutput] ∧
        ((∀ n < p.inputs.length, (Nat.toDigits 10 n).length ≤ maxDigits) →
          p.graph.validate p.inputs.length [videoOutput, audioOutput] = .ok ()))
      CompileFault.NotGraph := by
  unfold compile
  dsimp only
  split
  · exact fun f => nofun
  have hlength := length_lt_length_programInputs settings (distinctSources es)
    (duration.getD (defaultDuration es overlay)) overlay
  refine (meets_buildVideo_wired settings es (trackOrder tracks) hlength
    (overlayIndex_lt_length_programInputs _ _ _ _)).bind fun video _ hvideo => ?_
  refine (meets_audioTracks_bounded es _ _ audioSources).bind fun audio _ haudio => ?_
  have hbounded := fun t ht c hc => (haudio t ht c hc).mono (Nat.le_of_lt hlength)
  refine (meets_buildAudio_wired sampleRate hbounded _ (by decide) hvideo).bind
    fun g _ hg => ?_
  -- both outputs are live and nothing else is, which is what the closing check looks for
  have houtputs := hg.congr (List.Perm.swap videoOutput audioOutput [])
  rw [houtputs.check]
  exact ⟨houtputs.closed, houtputs.validate⟩

/-- **Compiled graphs are closed.** Whatever elements, tracks, overlay and duration are given, no
fault of the graph keeps a timeline from compiling, so the closing check never fails; and the
graph of a program is closed over its inputs, with the outputs `vout` and `aout`. -/
theorem compile_closed (settings : ExportSettings) (sampleRate : Int) (es : List (Element α))
    (tracks : List Track) (overlay : Option OverlaySequence) (duration : Option α)
    (audioSources : List (String × Bool)) :
    (∀ fault, compile settings sampleRate es tracks overlay duration audioSources ≠
      .error (.graph fault)) ∧
    ∀ p, compile settings sampleRate es tracks overlay duration audioSources = .ok p →
      p.graph.Closed p.inputs.length [videoOutput, audioOutput] := by
  have h := meets_compile_closed settings sampleRate es tracks overlay duration audioSources
  exact ⟨fun fault heq => h.of_eq_error heq fault rfl, fun p heq => (h.of_eq_ok heq).1⟩

variable {settings : ExportSettings} {sampleRate : Int} {es : List (Element α)}
  {tracks : List Track} {overlay : Option OverlaySequence} {duration : Option α}
  {audioSources : List (String × Bool)} {p : Program α}

/-- In a compiled graph, no stream is given twice. -/
theorem nodup_produced_of_compile
    (h : compile settings sampleRate es tracks overlay duration audioSources = .ok p) :
    p.graph.produced.Nodup :=
  ((meets_compile_closed settings sampleRate es tracks overlay duration audioSources).of_eq_ok
    h).1.nodup_produced

/-- **The numbers of the inputs can be read**, so that the compiler may leave their length
unchecked. -/
theorem validate_of_compile
    (h : compile settings sampleRate es tracks overlay duration audioSources = .ok p)
    (hcount : ∀ n < p.inputs.length, (Nat.toDigits 10 n).length ≤ maxDigits) :
    p.graph.validate p.inputs.length [videoOutput, audioOutput] = .ok () :=
  ((meets_compile_closed settings sampleRate es tracks overlay duration audioSources).of_eq_ok
    h).2 hcount

end

/-- A picture on a listed track, a sound on a track that is not listed, and overlay frames. -/
theorem compile_closed_overlaid :
    ∃ p, compile {} 48000 [.plain .video "picture" "main" "a.mp4" 0 1000,
        .plain .audio "sound" "other" "b.mp3" 500 (2000 : Rat)] [{ id := "main" }]
        (some { directory := "frames", frameCount := 60, fps := 30 }) none [] = .ok p ∧
      p.graph.Closed p.inputs.length [videoOutput, audioOutput] := by
  obtain ⟨p, hp⟩ : Succeeds (compile {} 48000 [.plain .video "picture" "main" "a.mp4" 0 1000,
    .plain .audio "sound" "other" "b.mp3" 500 (2000 : Rat)] [{ id := "main" }]
    (some { directory := "frames", frameCount := 60, fps := 30 }) none []) :=
    .of_isOk (by decide +kernel)
  exact ⟨p, hp, (compile_closed _ _ _ _ _ _ _).2 p hp⟩

end TimelineExport
