import TimelineExport.Proofs.Audio.Tempo
import TimelineExport.Proofs.Compile.Closed
import TimelineExport.Proofs.Timeline.Exportable

/-!
# Timelines that compile

Over the rationals every number can be rounded. So a timeline compiles if all its media elements
have sources, those with sound a supported speed, and the output a positive duration
(`succeeds_compile`); a fault of the graph is excluded by the closing of the graph. Validation sees
to all three, and what it sees to holds of every part of the timeline, so whatever is dropped
from an accepted timeline or drawn elsewhere, the rest compiles (`part_of_accepted_compiles`).
-/

namespace TimelineExport

/-! ### The picture -/

theorem succeeds_sourceIndex {α : Type} {sources : List String} {e : Element α}
    (h : ∃ path ∈ sources, e.assetSource = some path) : Succeeds (sourceIndex sources e) := by
  obtain ⟨path, hpath, hsource⟩ := h
  unfold sourceIndex
  rw [hsource, Option.bind_some]
  split
  · next index _ => exact ⟨index, rfl⟩
  · next hnone => exact absurd hpath (List.idxOf?_eq_none_iff.mp hnone)

theorem succeeds_boxSide (side : Nat) (scale : Rat) : Succeeds (Element.boxSide side scale) :=
  ⟨_, rfl⟩

/-- Every segment has its filters. -/
theorem succeeds_segmentFilters (settings : ExportSettings) (gapMs : Rat) (e : Element Rat) :
    Succeeds (e.segmentFilters settings gapMs) := by
  refine Succeeds.bind ?_ fun _ _ => ⟨_, rfl⟩
  exact (succeeds_boxSide _ _).bind fun _ _ => (succeeds_boxSide _ _).bind fun _ _ => ⟨_, rfl⟩

section
variable {sources : List String}

theorem succeeds_buildSegments (settings : ExportSettings) (g : Graph Rat) (previousEnd : Rat)
    {es : List (Element Rat)} (h : ∀ e ∈ es, ∃ path ∈ sources, e.assetSource = some path) :
    Succeeds (buildSegments settings sources g previousEnd es) := by
  induction es generalizing g previousEnd with
  | nil => exact ⟨_, rfl⟩
  | cons e es ih =>
    obtain ⟨he, hes⟩ := List.forall_mem_cons.mp h
    refine (succeeds_sourceIndex he).bind fun index _ =>
      (succeeds_segmentFilters settings _ e).bind fun filters _ => ?_
    exact (ih _ e.endMs hes).bind fun _ _ => ⟨_, rfl⟩

/-- The picture of a track can be built. -/
theorem succeeds_assembleTrack (settings : ExportSettings) (g : Graph Rat)
    {clips : List (Element Rat)}
    (h : ∀ e ∈ clips, ∃ path ∈ sources, e.assetSource = some path) :
    Succeeds (assembleTrack settings sources g clips) := by
  refine Succeeds.bind (succeeds_buildSegments settings g 0 fun e he => ?_) fun _ _ => ⟨_, rfl⟩
  exact h e ((sortByStart_perm clips).mem_iff.mp he)

theorem succeeds_buildLayers (settings : ExportSettings) {pictures : List (Element Rat)}
    (h : ∀ e ∈ pictures, ∃ path ∈ sources, e.assetSource = some path) (g : Graph Rat)
    (current : String) (tracks : List String) :
    Succeeds (buildLayers settings sources pictures g current tracks) := by
  induction tracks generalizing g current with
  | nil => exact ⟨_, rfl⟩
  | cons track tracks ih =>
    rw [buildLayers]
    dsimp only
    split
    · exact ih g current
    · refine Succeeds.bind (succeeds_assembleTrack settings g fun e he => ?_) fun _ _ => ih _ _
      exact h e (List.mem_of_mem_filter he)

/-- The picture of a program can be built. -/
theorem succeeds_buildVideo (settings : ExportSettings) {es : List (Element Rat)}
    (h : ∀ e ∈ es, e.kind.isMedia → ∃ path ∈ sources, e.assetSource = some path)
    (order : List String) {inputCount : Nat} (hsources : sources.length < inputCount)
    {overlayIndex : Option Nat} (hoverlay : ∀ i ∈ overlayIndex, i < inputCount) :
    Succeeds (buildVideo settings es order sources overlayIndex) := by
  have hpictures : ∀ e ∈ es.filter (·.kind.isPicture),
      ∃ path ∈ sources, e.assetSource = some path := by
    intro e he
    obtain ⟨hmem, hpicture⟩ := List.mem_filter.mp he
    exact h e hmem (ElementKind.isMedia_of_isPicture hpicture)
  refine (succeeds_buildLayers settings hpictures _ "base" order).bind fun r hr => ?_
  have hwired := wired_layOverlay ((meets_buildLayers_wired settings (Nat.le_of_lt hsources) _
    order (wired_base hsources)).of_eq_ok hr) hoverlay
  have hsingle : ∀ f ∈ [({ name := "format", positional := [.text "yuv420p"] } : Filter Rat)],
      f.IsSingle := by simp [Filter.IsSingle]
  have hfinish := succeeds_finish hwired hsingle videoOutput
  cases overlayIndex <;> exact hfinish

/-! ### The sound -/

theorem succeeds_audioClip {e : Element Rat} (h : ∃ path ∈ sources, e.assetSource = some path) :
    Succeeds (audioClip sources e) :=
  (succeeds_sourceIndex h).bind fun _ _ => ⟨_, rfl⟩

theorem succeeds_audioTracks {es : List (Element Rat)}
    (h : ∀ e ∈ es, e.kind.isMedia → ∃ path ∈ sources, e.assetSource = some path)
    (order : List String) (audioSources : List (String × Bool)) :
    Succeeds (audioTracks es order sources audioSources) := by
  refine Succeeds.bind (Succeeds.mapM fun e he => ?_) fun _ _ => ⟨_, rfl⟩
  obtain ⟨hmem, haudible⟩ := List.mem_filter.mp he
  have hsound : e.kind.hasSound := (Bool.and_eq_true_iff.mp haudible).1
  exact (succeeds_audioClip (h e hmem (ElementKind.isMedia_of_hasSound hsound))).bind
    fun _ _ => ⟨_, rfl⟩

/-- A speed that validation lets pass. -/
def IsSupported (speed : Rat) : Prop := minSpeed ≤ speed ∧ speed ≤ maxSpeed

/-- The clips of a program have the speeds of its elements. -/
theorem supported_of_audioTracks {es : List (Element Rat)} {order : List String}
    {audioSources : List (String × Bool)} {ts : List (AudioTrack Rat)}
    (h : ∀ e ∈ es, e.kind.hasSound → IsSupported e.speed)
    (hts : audioTracks es order sources audioSources = .ok ts) :
    ∀ t ∈ ts, ∀ c ∈ t.clips, IsSupported c.speed := by
  refine (meets_audioTracks (fun c => IsSupported c.speed) (fun _ => True) (fun e he => ?_)
    order).of_eq_ok hts
  obtain ⟨hmem, haudible⟩ := List.mem_filter.mp he
  exact (Meets.trivially _).bind fun _ _ _ => h e hmem (Bool.and_eq_true_iff.mp haudible).1

end

theorem succeeds_clipFilters (sampleRate : Int) {c : AudioClip Rat} (h : IsSupported c.speed) :
    Succeeds (c.filters sampleRate) := by
  refine Succeeds.bind (Succeeds.mapError (tempoStages_of_supported h.1 h.2)) fun _ _ => ?_
  refine Succeeds.bind ?_ fun _ _ => ⟨_, rfl⟩
  unfold AudioClip.delay
  split <;> exact ⟨_, rfl⟩

theorem succeeds_buildClips (sampleRate : Int) (g : Graph Rat) {clips : List (AudioClip Rat)}
    (h : ∀ c ∈ clips, IsSupported c.speed) : Succeeds (buildClips sampleRate g clips) := by
  induction clips generalizing g with
  | nil => exact ⟨_, rfl⟩
  | cons c cs ih =>
    obtain ⟨hc, hcs⟩ := List.forall_mem_cons.mp h
    have hbuild : Succeeds (c.build sampleRate g) :=
      (succeeds_clipFilters sampleRate hc).bind fun _ _ => ⟨_, rfl⟩
    exact hbuild.bind fun _ _ => (ih _ hcs).bind fun _ _ => ⟨_, rfl⟩

theorem succeeds_buildTracks (sampleRate : Int) (g : Graph Rat) {tracks : List (AudioTrack Rat)}
    (h : ∀ t ∈ tracks, ∀ c ∈ t.clips, IsSupported c.speed) :
    Succeeds (buildTracks sampleRate g tracks) := by
  induction tracks generalizing g with
  | nil => exact ⟨_, rfl⟩
  | cons t ts ih =>
    obtain ⟨ht, hts⟩ := List.forall_mem_cons.mp h
    refine (succeeds_buildClips sampleRate g ht).bind fun r _ => ?_
    dsimp only
    split
    · exact ih _ hts
    · exact (ih _ hts).bind fun _ _ => ⟨_, rfl⟩

/-- The sound of a program can be built. -/
theorem succeeds_buildAudio (sampleRate : Int) {g : Graph Rat} {inputCount : Nat}
    {names live : List String} (hwired : g.Wired inputCount names live)
    {tracks : List (AudioTrack Rat)}
    (hbounded : ∀ t ∈ tracks, ∀ c ∈ t.clips, c.IsBounded inputCount)
    (h : ∀ t ∈ tracks, ∀ c ∈ t.clips, IsSupported c.speed) (durationMs : Rat) :
    Succeeds (buildAudio sampleRate g tracks durationMs) := by
  refine (succeeds_buildTracks sampleRate g h).bind fun r hr => ?_
  have hr' := ((meets_buildTracks_wired sampleRate hbounded hwired).of_eq_ok hr).1
  obtain ⟨⟨labels, count⟩, g'⟩ := r
  dsimp only at hr' ⊢
  split
  · exact ⟨_, rfl⟩
  · exact succeeds_finish hr' (by simp [Filter.IsSingle, cutAudio]) audioOutput
  · exact ⟨_, rfl⟩

/-! ### The program -/

/-- **Timelines compile**, if all media elements have sources, those with sound a supported speed,
and the output lasts. -/
theorem succeeds_compile (settings : ExportSettings) (sampleRate : Int)
    {es : List (Element Rat)} (hsources : ∀ e ∈ es, e.kind.isMedia → e.assetSource.isSome)
    (hspeeds : ∀ e ∈ es, e.kind.hasSound → IsSupported e.speed) (tracks : List Track)
    {overlay : Option OverlaySequence} {duration : Option Rat}
    (hduration : 0 < duration.getD (defaultDuration es overlay))
    (audioSources : List (String × Bool)) :
    Succeeds (compile settings sampleRate es tracks overlay duration audioSources) := by
  have hinputs : ∀ e ∈ es, e.kind.isMedia →
      ∃ path ∈ distinctSources es, e.assetSource = some path := by
    intro e he hmedia
    obtain ⟨path, hpath⟩ := Option.isSome_iff_exists.mp (hsources e he hmedia)
    exact ⟨path, List.mem_eraseDups.mpr (List.mem_filterMap.mpr ⟨e, he, hpath⟩), hpath⟩
  have hlength := length_lt_length_programInputs settings (distinctSources es)
    (duration.getD (defaultDuration es overlay)) overlay
  have hoverlay := overlayIndex_lt_length_programInputs settings (distinctSources es)
    (duration.getD (defaultDuration es overlay)) overlay
  unfold compile
  dsimp only
  split
  · next hnone =>
    rw [Scalar.ofNat_rat, Nat.cast_zero] at hnone
    exact absurd hnone (not_le.mpr hduration)
  · refine (succeeds_buildVideo settings hinputs _ hlength hoverlay).bind fun video hvideo => ?_
    refine (succeeds_audioTracks hinputs _ audioSources).bind fun audio haudio => ?_
    have hwired := (meets_buildVideo_wired settings es _ hlength hoverlay).of_eq_ok hvideo
    have hbounded := fun t ht c hc => ((meets_audioTracks_bounded es _ _ audioSources).of_eq_ok
      haudio t ht c hc).mono (Nat.le_of_lt hlength)
    refine (succeeds_buildAudio sampleRate hwired hbounded (supported_of_audioTracks hspeeds haudio)
      _).bind fun g hg => ?_
    have houtputs := ((meets_buildAudio_wired sampleRate hbounded _ (by decide) hwired).of_eq_ok
      hg).congr (List.Perm.swap videoOutput audioOutput [])
    rw [houtputs.check]
    exact ⟨_, rfl⟩

/-- An accepted element that shows more than words has a source. -/
theorem Element.Accepted.isSome_assetSource {α : Type} [Scalar α] {tracks : List Track}
    {settings : ExportSettings} {e : Element α} (h : e.Accepted tracks settings)
    (hkind : ¬ e.kind.isText) : e.assetSource.isSome := by
  obtain ⟨path, hpath⟩ := Option.isSome_iff_exists.mp (h.hasSource hkind)
  exact Option.isSome_iff_exists.mpr ⟨path, (Option.filter_eq_some_iff.mp hpath).1⟩

/-! ### Parts of accepted timelines -/

/-- **A part of a timeline**: some of its elements, each as it came or with another source. -/
def IsPart {α : Type} (es part : List (Element α)) : Prop :=
  ∀ f ∈ part, ∃ e ∈ es, f = e ∨ ∃ path, path ≠ "" ∧ f = { e with source := some path }

theorem IsPart.of_subset {α : Type} {es part : List (Element α)} (h : ∀ e ∈ part, e ∈ es) :
    IsPart es part :=
  fun e he => ⟨e, h e he, .inl rfl⟩

theorem isPart_media {α : Type} (es : List (Element α)) :
    IsPart es (es.filter (·.kind.isMedia)) :=
  .of_subset fun _ => List.mem_of_mem_filter

/-- A part keeps the kinds and the speeds of a timeline, and its media elements have sources. -/
theorem IsPart.of_accepted {α : Type} [Scalar α] {es part : List (Element α)}
    {tracks : List Track} {settings : ExportSettings} (hpart : IsPart es part)
    (haccepted : Accepted es tracks settings) {f : Element α} (hf : f ∈ part) :
    (f.kind.isMedia → f.assetSource.isSome) ∧
      (f.kind.hasSound → minSpeed ≤ f.speed ∧ f.speed ≤ maxSpeed) := by
  obtain ⟨e, he, rfl | ⟨path, hpath, rfl⟩⟩ := hpart f hf
  · have helement := haccepted.elements f he
    exact ⟨fun hmedia => helement.isSome_assetSource (ElementKind.not_isText_of_isMedia hmedia),
      helement.speed_supported⟩
  · refine ⟨fun _ => ?_, (haccepted.elements e he).speed_supported⟩
    -- the new source is not empty, so the element does not fall back on its external one
    simp [Element.assetSource, nonEmpty, hpath]

/-- Any part of an accepted timeline compiles, if the output lasts. -/
theorem Accepted.succeeds_compile {es part : List (Element Rat)} {tracks : List Track}
    {settings : ExportSettings} (haccepted : Accepted es tracks settings)
    (hpart : IsPart es part) (settings' : ExportSettings)
    (sampleRate : Int) (tracks' : List Track) (overlay : Option OverlaySequence)
    (duration : Option Rat) (hduration : 0 < duration.getD (defaultDuration part overlay))
    (audioSources : List (String × Bool)) :
    Succeeds (compile settings' sampleRate part tracks' overlay duration audioSources) :=
  TimelineExport.succeeds_compile settings' sampleRate
    (fun _ hf => (hpart.of_accepted haccepted hf).1)
    (fun _ hf => (hpart.of_accepted haccepted hf).2) tracks' hduration audioSources

/-- **What is left of an accepted timeline compiles**, over the duration of the whole timeline:
whichever of its elements are dropped or drawn elsewhere, and whichever files stand for their
sources. -/
theorem part_of_accepted_compiles {es part : List (Element Rat)} {tracks : List Track}
    {settings : ExportSettings} (hvalid : validate es tracks settings = .ok ())
    (hpart : IsPart es part) (settings' : ExportSettings) (sampleRate : Int)
    (tracks' : List Track) (overlay : Option OverlaySequence)
    (audioSources : List (String × Bool)) :
    ∃ p, compile settings' sampleRate part tracks' overlay (some (outputDuration es))
      audioSources = .ok p := by
  have haccepted := (validate_eq_ok_iff es tracks settings).mp hvalid
  exact haccepted.succeeds_compile hpart settings' sampleRate tracks' overlay
    (some (outputDuration es)) haccepted.outputDuration_pos audioSources

/-- A video is dropped from a timeline, and a sound is compiled from a local copy. -/
theorem sound_left_of_accepted_compiles :
    let video : Element Rat := .plain .video "picture" "main" "a.mp4" 0 2000
    let sound : Element Rat := .plain .audio "sound" "main" "https://host/b.mp3" 500 1500
    ∃ p, compile {} 48000 [{ sound with source := some "cache/b.mp3" }] [{ id := "main" }] none
      (some (outputDuration [video, sound])) [] = .ok p := by
  intro video sound
  obtain ⟨_, hvalid⟩ : Succeeds (validate [video, sound] [{ id := "main" }] {}) :=
    .of_isOk (by decide +kernel)
  refine part_of_accepted_compiles hvalid ?_ {} 48000 _ none []
  exact List.forall_mem_singleton.mpr ⟨sound, by simp, .inr ⟨"cache/b.mp3", by decide, rfl⟩⟩

end TimelineExport
