import Mathlib.Algebra.Order.BigOperators.Group.List
import Mathlib.Tactic.Ring
import TimelineExport.Proofs.Compile.Usage
import TimelineExport.Proofs.Filter.Playback

/-!
# Where the clips of a track begin

A track's picture is a concatenation of segments, and each segment waits for the gap since the
planned end of the clip before. A video whose source range is short of its span ends early, and no
lead-in makes up for that: `Element.shortfallMs` is what it leaves empty, and `shownStarts` are the
moments at which the clips of a track begin (`SegmentRun.startsFrom_eq`).

The same holds of every program of an accepted timeline (`Accepted.exists_clipStarts`). Validation
looks at the clips one by one, so each may be a little short and the last one begin much too early.
All of them begin in time exactly if the last one does (`forall₂_startsWithin_iff`).

Sources are only assumed to be long enough for the ranges that are played (`IsLongEnough`); a longer
one makes no difference.
-/

namespace TimelineExport

/-! ### Segments -/

/-- A filter that changes the picture of a clip does not change its times. -/
theorem Filter.play_of_name_mem {f : Filter Rat} (h : f.name ∈ pictureFilterNames)
    (p : Playback) : f.play p = p := by
  have hnames : ∀ name ∈ pictureFilterNames, name ≠ "loop" ∧ name ≠ "trim" ∧ name ≠ "setpts" ∧
      name ≠ "tpad" := by decide
  obtain ⟨hloop, htrim, hsetpts, htpad⟩ := hnames f.name h
  rw [play, if_neg hloop, if_neg htrim, if_neg hsetpts, if_neg htpad]

theorem Filter.playAll_of_name_mem {fs : List (Filter Rat)}
    (h : ∀ f ∈ fs, f.name ∈ pictureFilterNames) (p : Playback) : playAll fs p = p := by
  induction fs with
  | nil => rfl
  | cons f fs ih =>
    obtain ⟨hf, hfs⟩ := List.forall_mem_cons.mp h
    exact (congrArg (playAll fs) (play_of_name_mem hf p)).trans (ih hfs)

namespace Element

/-- How long a clip is shown: a still picture for its whole span, a video until its source range
is over. -/
def shownMs (e : Element Rat) : Rat :=
  if e.kind = .image then e.duration
  else min ((e.sourceRange.2 - e.sourceRange.1) / e.speed) e.duration

/-- How much of its span a clip leaves empty. -/
def shortfallMs (e : Element Rat) : Rat := e.duration - e.shownMs

theorem shortfallMs_nonneg (e : Element Rat) : 0 ≤ e.shortfallMs := by
  rw [shortfallMs, shownMs, sub_nonneg]
  split
  · exact le_rfl
  · exact min_le_right _ _

/-- A source that is long enough for the range of a video. -/
def IsCovered (e : Element Rat) (length : WithTop Rat) : Prop :=
  e.kind ≠ .image → (e.sourceRange.2 : WithTop Rat) ≤ length

/-- Playing a video at its speed divides its times. -/
theorem play_speed (e : Element Rat) (p : Playback) :
    Filter.play { name := "setpts", positional := [
        if e.speed == 1 then .text "PTS-STARTPTS"
        else .formula ["(PTS-STARTPTS)/", .number e.speed]] } p =
      { p with lengthMs := p.lengthMs.map (· / e.speed) } := by
  by_cases hspeed : e.speed = 1
  · rw [hspeed]
    simp only [div_one, withTop_map_self]
    exact Filter.play_setpts_text _ p
  · rw [if_neg (by simpa [Scalar.beq_rat] using hspeed)]
    exact Filter.play_setpts_speed _ p

theorem playAll_sourceFilters {settings : ExportSettings} {e : Element Rat}
    {length : WithTop Rat} (hlength : e.IsCovered length) :
    Filter.playAll (e.sourceFilters settings) ⟨0, length⟩ =
      ⟨0, if e.kind = .image then ⊤
        else ((e.sourceRange.2 - e.sourceRange.1) / e.speed : Rat)⟩ := by
  unfold sourceFilters
  split
  · next hkind => simp [Filter.playAll, Filter.play]
  · next hkind =>
    rw [Filter.playAll_pair, Filter.play_trim_range, play_speed, min_eq_right (hlength hkind),
      WithTop.map_coe, WithTop.map_coe]

theorem playAll_leadIn {gapMs : Rat} (hgap : 0 ≤ gapMs) (p : Playback) :
    Filter.playAll (leadIn gapMs) p = ⟨p.startMs + gapMs, p.lengthMs + gapMs⟩ := by
  unfold leadIn
  split
  · exact Filter.play_tpad gapMs p
  · next hnone =>
    have hzero : gapMs = 0 := le_antisymm (not_lt.mp hnone) hgap
    rw [hzero, add_zero, WithTop.coe_zero, add_zero]
    rfl

/-- **How a segment plays its clip**: after the lead-in, for as long as the clip is shown. -/
theorem playAll_segmentFilters {settings : ExportSettings} {gapMs : Rat} {e : Element Rat}
    {length : WithTop Rat} {fs : List (Filter Rat)} (hgap : 0 ≤ gapMs)
    (hlength : e.IsCovered length) (hfs : e.segmentFilters settings gapMs = .ok fs) :
    Filter.playAll fs ⟨0, length⟩ = ⟨gapMs, (e.shownMs + gapMs : Rat)⟩ := by
  obtain ⟨shown, hshown, rfl⟩ := (e.meets_segmentFilters_split settings gapMs).of_eq_ok hfs
  have hcut : ∀ p : Playback, Filter.playAll
      [{ name := "trim", options := [("duration", .seconds e.duration)] },
       { name := "setpts", positional := [.text "PTS-STARTPTS"] }] p =
      { p with lengthMs := min p.lengthMs e.duration } := fun p => by
    rw [Filter.playAll_pair, Filter.play_trim_duration, Filter.play_setpts_text]
  have hshownMs : min (if e.kind = .image then (⊤ : WithTop Rat)
      else ((e.sourceRange.2 - e.sourceRange.1) / e.speed : Rat)) e.duration = e.shownMs := by
    rw [shownMs]
    split
    · exact min_eq_right le_top
    · exact (WithTop.coe_min _ _).symm
  rw [Filter.playAll_append, Filter.playAll_append, Filter.playAll_append,
    playAll_sourceFilters hlength, Filter.playAll_of_name_mem hshown, hcut, playAll_leadIn hgap,
    hshownMs, zero_add, WithTop.coe_add]

end Element

/-! ### Tracks -/

/-- When clips begin that follow one another, some time having been lost before the first. -/
def shownStarts : (lostMs : Rat) → List (Element Rat) → List Rat
  | _, [] => []
  | lostMs, e :: es => (e.startMs - lostMs) :: shownStarts (lostMs + e.shortfallMs) es

/-- Every source is long enough for the ranges of the clips that play it. -/
def IsLongEnough (media : String → WithTop Rat) (sources : List String)
    (es : List (Element Rat)) : Prop :=
  ∀ e ∈ es, ∀ index, sourceIndex sources e = .ok index →
    e.IsCovered (media (streamLabel index "v"))

/-- **Lead-ins do not make up for what was lost.** Each clip of a track begins as much too early
as the clips before it fell short of their spans. -/
theorem SegmentRun.startsFrom_eq {settings : ExportSettings} {sources : List String}
    {media : String → WithTop Rat} {previousEnd : Rat} {es : List (Element Rat)}
    {cs : List (Chain Rat)} (h : SegmentRun settings sources previousEnd es cs)
    (hmedia : IsLongEnough media sources es) (hfirst : ∀ e ∈ es.head?, previousEnd ≤ e.startMs)
    (hchain : es.IsChain fun e f => ¬ e.endMs > f.startMs) (lostMs : Rat) :
    startsFrom (previousEnd - lostMs : Rat) (cs.map (·.play media)) =
      (shownStarts lostMs es).map (↑) := by
  -- the lead-in is measured from the planned end of the clip before, not from the end of its stream
  induction h generalizing lostMs with
  | nil => rfl
  | @cons previousEnd e es cs index filters label hindex hfilters htail ih =>
    obtain ⟨hcovered, hmedia⟩ := List.forall_mem_cons.mp hmedia
    have hgap : 0 ≤ e.startMs - previousEnd := sub_nonneg.mpr (hfirst e rfl)
    have hplay : (⟨[streamLabel index "v"], filters, [label]⟩ : Chain Rat).play media =
        ⟨e.startMs - previousEnd, (e.shownMs + (e.startMs - previousEnd) : Rat)⟩ :=
      Element.playAll_segmentFilters hgap (hcovered index hindex) hfilters
    have hnext : ∀ f ∈ es.head?, e.endMs ≤ f.startMs := by
      intro f hf
      obtain ⟨rest, rfl⟩ : ∃ rest, es = f :: rest := List.head?_eq_some_iff.mp hf
      exact not_lt.mp (List.isChain_cons_cons.mp hchain).1
    have hstart : ((previousEnd - lostMs : Rat) : WithTop Rat) + (e.startMs - previousEnd : Rat) =
        (e.startMs - lostMs : Rat) := by
      rw [← WithTop.coe_add]
      congr 1
      ring
    have hend : ((previousEnd - lostMs : Rat) : WithTop Rat) +
        (e.shownMs + (e.startMs - previousEnd) : Rat) =
        (e.endMs - (lostMs + e.shortfallMs) : Rat) := by
      have hduration : e.duration = e.endMs - e.startMs := rfl
      rw [← WithTop.coe_add, Element.shortfallMs, hduration]
      congr 1
      ring
    rw [List.map_cons, hplay, startsFrom, shownStarts, List.map_cons]
    dsimp only
    rw [hstart, hend]
    exact congrArg _ (ih hmedia hnext hchain.tail _)

/-- Whether a clip begins within some time of its place. -/
def StartsWithin (toleranceMs : Rat) (start : WithTop Rat) (e : Element Rat) : Prop :=
  ∃ ms : Rat, start = ms ∧ |ms - e.startMs| ≤ toleranceMs

theorem startsWithin_coe_iff {toleranceMs lostMs : Rat} (hlost : 0 ≤ lostMs) (e : Element Rat) :
    StartsWithin toleranceMs (e.startMs - lostMs : Rat) e ↔ lostMs ≤ toleranceMs := by
  have habs : |e.startMs - lostMs - e.startMs| = lostMs := by
    rw [sub_sub_cancel_left, abs_neg, abs_of_nonneg hlost]
  constructor
  · rintro ⟨ms, hms, hle⟩
    rw [← WithTop.coe_inj.mp hms, habs] at hle
    exact hle
  · exact fun hle => ⟨_, rfl, habs.trans_le hle⟩

/-- All clips begin in time exactly if the last one does, and that depends on what all others
lost. -/
theorem forall₂_startsWithin_iff (toleranceMs : Rat) {lostMs : Rat} (hlost : 0 ≤ lostMs)
    (e : Element Rat) (es : List (Element Rat)) :
    List.Forall₂ (StartsWithin toleranceMs) ((shownStarts lostMs (e :: es)).map (↑)) (e :: es) ↔
      lostMs + (((e :: es).dropLast.map Element.shortfallMs).sum) ≤ toleranceMs := by
  induction es generalizing e lostMs with
  | nil =>
    rw [shownStarts, List.map_cons, List.forall₂_cons, startsWithin_coe_iff hlost]
    simp [shownStarts]
  | cons f es ih =>
    have hshort := e.shortfallMs_nonneg
    have hrest := ih (add_nonneg hlost hshort) f
    have hsum : 0 ≤ ((f :: es).dropLast.map Element.shortfallMs).sum :=
      List.sum_nonneg fun x hx => by
        obtain ⟨g, -, rfl⟩ := List.mem_map.mp hx
        exact g.shortfallMs_nonneg
    -- what is lost only grows, so the first clip is in time if the last one is
    rw [shownStarts, List.map_cons, List.forall₂_cons, startsWithin_coe_iff hlost, hrest,
      List.dropLast_cons_cons, List.map_cons, List.sum_cons, ← add_assoc]
    exact and_iff_right_of_imp fun hle => by linarith

/-! ### Streams of tracks -/

/-- Chains with one stream each are the producers of their streams. -/
theorem filterMap_producer? {α : Type} {g : Graph α} (hnodup : g.produced.Nodup)
    {cs : List (Chain α)} (hmem : cs ⊆ g.chains)
    (houtputs : ∀ c ∈ cs, ∃ label, c.outputs = [label]) :
    (cs.flatMap (·.outputs)).filterMap g.producer? = cs := by
  induction cs with
  | nil => rfl
  | cons c cs ih =>
    obtain ⟨⟨label, hlabel⟩, houtputs⟩ := List.forall_mem_cons.mp houtputs
    obtain ⟨hc, hmem⟩ := List.cons_subset.mp hmem
    have hproducer : g.producer? label = some c :=
      Graph.producer?_eq_some hnodup hc (by rw [hlabel]; exact List.mem_singleton_self label)
    rw [List.flatMap_cons, hlabel, List.singleton_append, List.filterMap_cons_some hproducer,
      ih hmem houtputs]

/-- A segment is no concatenation. -/
theorem SegmentRun.filterNames_ne {α : Type} [Scalar α] {settings : ExportSettings}
    {sources : List String} {previousEnd : α} {es : List (Element α)} {cs : List (Chain α)}
    (h : SegmentRun settings sources previousEnd es cs) :
    ∀ c ∈ cs, c.filterNames ≠ ["concat"] := by
  induction h with
  | nil => exact fun _ hc => absurd hc List.not_mem_nil
  | @cons previousEnd e es cs index filters label _ hfilters _ ih =>
    refine List.forall_mem_cons.mpr ⟨fun hnames => ?_, ih⟩
    have hconcat : "concat" ∈ filters.map (·.name) := by
      have hnames : filters.map (·.name) = ["concat"] := hnames
      rw [hnames]
      exact List.mem_singleton_self _
    obtain ⟨f, hf, hname⟩ := List.mem_map.mp hconcat
    exact (e.meets_segmentFilters settings _).of_eq_ok hfilters f hf (by simp [hname])

/-- The clips of a track's stream are its segments. -/
theorem TrackRun.clipsOf_eq {α : Type} [Scalar α] {settings : ExportSettings}
    {sources : List String} {clips : List (Element α)} {cs : List (Chain α)} {label : String}
    {g : Graph α} (h : TrackRun settings sources clips cs label) (hnodup : g.produced.Nodup)
    (hmem : cs ⊆ g.chains) :
    SegmentRun settings sources 0 (sortByStart clips) (g.clipsOf label) := by
  cases h with
  | @single c _ hsegments houtput =>
    have hproducer : g.producer? label = some c := Graph.producer?_eq_some hnodup
      (hmem List.mem_cons_self) (by rw [houtput]; exact List.mem_singleton_self label)
    rw [Graph.clipsOf, hproducer]
    dsimp only
    rw [if_neg (hsegments.filterNames_ne c List.mem_cons_self)]
    exact hsegments
  | @concat cs _ hsegments _ =>
    obtain ⟨hcs, hconcat⟩ := List.append_subset.mp hmem
    have hproducer : g.producer? label = some _ :=
      Graph.producer?_eq_some hnodup (hconcat List.mem_cons_self) List.mem_cons_self
    rw [Graph.clipsOf, hproducer]
    dsimp only
    have hnames : (⟨cs.flatMap (·.outputs), [concatFilter cs.length], [label]⟩ :
        Chain α).filterNames = ["concat"] := rfl
    rw [if_pos hnames, filterMap_producer? hnodup hcs hsegments.exists_output]
    exact hsegments

/-! ### The program -/

/-- **A stream is the picture of a track**: a layer lays it over what is below, and it plays the
segments of the track's clips. -/
structure Program.ShowsTrack {α : Type} [Scalar α] (settings : ExportSettings) (p : Program α)
    (clips : List (Element α)) (label : String) : Prop where
  layer : ∃ c ∈ p.graph.chains, ∃ below, c.inputs = [below, label] ∧ overlayFilter ∈ c.filters
  segments : SegmentRun settings p.sources 0 (sortByStart clips) (p.graph.clipsOf label)

/-- The stream of a track's chains shows the track once all chains are finished. -/
theorem Program.ShowsTrack.of_run {α : Type} [Scalar α] {settings : ExportSettings}
    {p : Program α} (hnodup : p.graph.produced.Nodup) {vs video rest : List (Chain α)}
    (hvideo : Finishes vs video) (hfinishes : Finishes (video ++ rest) p.graph.chains)
    {clips : List (Element α)} {ds : List (Chain α)} {below label layer : String}
    (hrun : TrackRun settings p.sources clips ds label) (hsub : ds ⊆ vs)
    (hlayer : ⟨[below, label], [overlayFilter], [layer]⟩ ∈ vs) :
    p.ShowsTrack settings clips label := by
  -- the streams of a track's chains are taken, so none of them is finished
  have hkept : ds ⊆ p.graph.chains := by
    intro c hc
    obtain ⟨l, hl, htaken⟩ := hrun.exists_output c hc
    refine hvideo.kept_append hfinishes (hsub hc) hl ?_
    obtain rfl | ⟨d, hd, hmem⟩ := htaken
    · exact ⟨_, hlayer, List.mem_cons_of_mem _ List.mem_cons_self⟩
    · exact ⟨d, hsub hd, hmem⟩
  obtain ⟨c, hc, hextends⟩ := hvideo.extended.exists_taker hlayer
  obtain ⟨c', hc', hextends'⟩ := hfinishes.extended.exists_taker (List.mem_append_left _ hc)
  refine ⟨⟨c', hc', below, hextends'.inputs.trans hextends.inputs, ?_⟩,
    hrun.clipsOf_eq hnodup hkept⟩
  exact hextends'.filters.subset (hextends.filters.subset List.mem_cons_self)

/-- Every track with pictures has its stream in a program. -/
theorem exists_showsTrack {α : Type} [Scalar α] {settings : ExportSettings} {sampleRate : Int}
    {es : List (Element α)} {tracks : List Track} {overlay : Option OverlaySequence}
    {duration : Option α} {audioSources : List (String × Bool)} {p : Program α}
    (h : compile settings sampleRate es tracks overlay duration audioSources = .ok p)
    {track : String} (htrack : track ∈ trackOrder tracks)
    (hne : (es.filter (·.kind.isPicture)).filter (·.trackId = track) ≠ []) :
    ∃ label, p.ShowsTrack settings
      ((es.filter (·.kind.isPicture)).filter (·.trackId = track)) label := by
  have hnodup := nodup_produced_of_compile h
  obtain ⟨-, layers, top, layer, video, sounds, audio, labels, finish, hlayers, hvideo, -, -, -,
    hfinishes⟩ := chains_of_compile h
  obtain ⟨ds, label, below, layer', hrun, hsub, hlayer⟩ := hlayers.exists_track htrack hne
  have hsub' : layers ⊆ baseChain p.sources.length :: layers ++
      overlayChains top layer p.overlayIndex := fun c hc =>
    List.mem_append_left _ (List.mem_cons_of_mem _ hc)
  rw [List.append_assoc] at hfinishes
  exact ⟨label, .of_run hnodup hvideo hfinishes hrun (fun c hc => hsub' (hsub hc)) (hsub' hlayer)⟩

/-- When the clips of a track begin. -/
theorem Program.ShowsTrack.clipStarts_eq {settings : ExportSettings} {p : Program Rat}
    {clips : List (Element Rat)} {label : String} (h : p.ShowsTrack settings clips label)
    {media : String → WithTop Rat} (hmedia : IsLongEnough media p.sources clips)
    (hstarts : ∀ e ∈ clips, 0 ≤ e.startMs) (hsuccessive : IsSuccessive clips) :
    p.graph.clipStarts media label = (shownStarts 0 (sortByStart clips)).map (↑) := by
  have hmem : ∀ e ∈ sortByStart clips, e ∈ clips := fun e he =>
    (sortByStart_perm clips).mem_iff.mp he
  have hfirst : ∀ e ∈ (sortByStart clips).head?, 0 ≤ e.startMs := fun e he =>
    hstarts e (hmem e (List.mem_of_head? he))
  have hrun := h.segments.startsFrom_eq (fun e he => hmedia e (hmem e he)) hfirst hsuccessive 0
  rw [Scalar.ofNat_rat, Nat.cast_zero, sub_zero, WithTop.coe_zero] at hrun
  exact hrun

theorem filter_media_eq_picturesOn {α : Type} (es : List (Element α)) (track : String) :
    ((es.filter (·.kind.isMedia)).filter (·.kind.isPicture)).filter (·.trackId = track) =
      picturesOn es track := by
  simp only [picturesOn, List.filter_filter]
  refine List.filter_congr fun e _ => ?_
  cases hpicture : e.kind.isPicture
  · simp
  · simp [ElementKind.isMedia_of_isPicture hpicture, beq_eq_decide]

/-- What is known of the picture of a track in a program of an accepted timeline. -/
theorem Accepted.exists_clipStarts {settings : ExportSettings} {es : List (Element Rat)}
    {tracks : List Track} (haccepted : Accepted es tracks settings) {sampleRate : Int}
    {overlay : Option OverlaySequence} {duration : Option Rat}
    {audioSources : List (String × Bool)} {p : Program Rat}
    (hp : compile settings sampleRate (es.filter (·.kind.isMedia)) tracks overlay duration
      audioSources = .ok p) (track : String) (hne : picturesOn es track ≠ []) :
    ∃ label, p.ShowsTrack settings (picturesOn es track) label ∧
      ∀ media, IsLongEnough media p.sources (picturesOn es track) →
        p.graph.clipStarts media label =
          (shownStarts 0 (sortByStart (picturesOn es track))).map (↑) := by
  obtain ⟨e, he⟩ := List.exists_mem_of_ne_nil _ hne
  obtain ⟨hpicture, htrackId⟩ := List.mem_filter.mp he
  have hmem := List.mem_of_mem_filter hpicture
  have htrack : track ∈ trackOrder tracks := by
    have hid : e.trackId = track := by simpa using htrackId
    exact hid ▸ order_of_listed (fun e he => (haccepted.elements e he).listed) e hmem
  obtain ⟨label, hshows⟩ := exists_showsTrack hp htrack
    (by rwa [filter_media_eq_picturesOn])
  rw [filter_media_eq_picturesOn] at hshows
  refine ⟨label, hshows, fun media hmedia => hshows.clipStarts_eq hmedia (fun f hf => ?_)
    (haccepted.successive track)⟩
  have hstart := (haccepted.elements f
    (List.mem_of_mem_filter (List.mem_of_mem_filter hf))).start_nonneg
  rw [Scalar.ofNat_rat, Nat.cast_zero] at hstart
  exact not_lt.mp hstart

/-- **When the clips of a track begin.** In a program of an accepted timeline, the picture of every
track begins its clips too early by what the clips before fell short of their spans. So all of
them begin within one frame of their places if and only if all but the last together fall short by
at most one frame. -/
theorem compile_starts_within_frame_iff {settings : ExportSettings} {es : List (Element Rat)}
    {tracks : List Track} (hvalid : validate es tracks settings = .ok ()) (sampleRate : Int)
    (overlay : Option OverlaySequence) (duration : Option Rat)
    (hduration : 0 < duration.getD (defaultDuration (es.filter (·.kind.isMedia)) overlay))
    (audioSources : List (String × Bool)) :
    ∃ p, compile settings sampleRate (es.filter (·.kind.isMedia)) tracks overlay duration
        audioSources = .ok p ∧
      ∀ track, picturesOn es track ≠ [] →
        ∃ label, p.ShowsTrack settings (picturesOn es track) label ∧
          ∀ media, IsLongEnough media p.sources (picturesOn es track) →
            p.graph.clipStarts media label =
                (shownStarts 0 (sortByStart (picturesOn es track))).map (↑) ∧
              (List.Forall₂ (StartsWithin settings.frameMs) (p.graph.clipStarts media label)
                  (sortByStart (picturesOn es track)) ↔
                ((sortByStart (picturesOn es track)).dropLast.map Element.shortfallMs).sum ≤
                  settings.frameMs) := by
  have haccepted := (validate_eq_ok_iff es tracks settings).mp hvalid
  obtain ⟨p, hp⟩ := haccepted.succeeds_compile (isPart_media _)
    settings sampleRate tracks overlay duration hduration audioSources
  refine ⟨p, hp, fun track hne => ?_⟩
  obtain ⟨label, hshows, hstarts⟩ := haccepted.exists_clipStarts hp track hne
  refine ⟨label, hshows, fun media hmedia => ⟨hstarts media hmedia, ?_⟩⟩
  have hsorted : sortByStart (picturesOn es track) ≠ [] := fun hnil =>
    hne (List.nil_perm.mp (hnil ▸ sortByStart_perm (picturesOn es track)))
  obtain ⟨e, rest, hcons⟩ := List.exists_cons_of_ne_nil hsorted
  rw [hstarts media hmedia, hcons, forall₂_startsWithin_iff _ le_rfl, zero_add]

/-- Endless sources are long enough. -/
theorem isLongEnough_top (sources : List String) (es : List (Element Rat)) :
    IsLongEnough (fun _ => ⊤) sources es :=
  fun _ _ _ _ _ => le_top

/-- A video and a still picture that fill their spans begin in time. -/
theorem filled_clips_start_within_frame :
    ∃ p label, compile {} 48000 [.plain .video "clip" "main" "a.mp4" 0 (1000 : Rat),
        .plain .image "still" "main" "b.png" 1500 2000] [{ id := "main" }] none none [] = .ok p ∧
      List.Forall₂ (StartsWithin (ExportSettings.frameMs {}))
        (p.graph.clipStarts (fun _ => ⊤) label)
        [.plain .video "clip" "main" "a.mp4" 0 (1000 : Rat),
          .plain .image "still" "main" "b.png" 1500 2000] := by
  have hvalid : validate [.plain .video "clip" "main" "a.mp4" 0 (1000 : Rat),
      .plain .image "still" "main" "b.png" 1500 2000] [{ id := "main" }] {} = .ok () :=
    (validate_eq_ok_iff _ _ _).mpr (.of_pairwise (List.cons_ne_nil _ _) (by decide +kernel)
      (by decide +kernel) (by decide +kernel))
  have hpictures : picturesOn [.plain .video "clip" "main" "a.mp4" 0 (1000 : Rat),
      .plain .image "still" "main" "b.png" 1500 2000] "main" =
      [.plain .video "clip" "main" "a.mp4" 0 (1000 : Rat),
        .plain .image "still" "main" "b.png" 1500 2000] := by rfl
  have hsorted : sortByStart [.plain .video "clip" "main" "a.mp4" 0 (1000 : Rat),
      .plain .image "still" "main" "b.png" 1500 2000] =
      [.plain .video "clip" "main" "a.mp4" 0 (1000 : Rat),
        .plain .image "still" "main" "b.png" 1500 2000] :=
    List.mergeSort_of_pairwise (by decide +kernel)
  obtain ⟨p, hp, htracks⟩ := compile_starts_within_frame_iff hvalid 48000 none none
    (by decide +kernel) []
  obtain ⟨label, -, hstarts⟩ := htracks "main" (by rw [hpictures]; exact List.cons_ne_nil _ _)
  obtain ⟨-, hwithin⟩ := hstarts _ (isLongEnough_top _ _)
  rw [hpictures, hsorted] at hwithin
  exact ⟨p, label, hp, hwithin.mpr (by decide +kernel)⟩

/-- A clip of a second, from a source range that is a frame short of it. -/
def shortClip (id : String) (startMs : Rat) : Element Rat :=
  { (Element.plain .video id "main" "a.mp4" startMs (startMs + 1000) : Element Rat) with
    sourceStartMs := some 0
    sourceEndMs := some 967 }

/-- The third of three short clips begins almost two frames too early, though validation accepts
each of them. -/
theorem third_shortClip_starts_too_early :
    validate [shortClip "a" 0, shortClip "b" 1000, shortClip "c" 2000] [{ id := "main" }] {} =
        .ok () ∧
      ∃ p label, compile {} 48000 [shortClip "a" 0, shortClip "b" 1000, shortClip "c" 2000]
          [{ id := "main" }] none none [] = .ok p ∧
        p.ShowsTrack {} [shortClip "a" 0, shortClip "b" 1000, shortClip "c" 2000] label ∧
        ∀ media, IsLongEnough media p.sources
            [shortClip "a" 0, shortClip "b" 1000, shortClip "c" 2000] →
          p.graph.clipStarts media label = [((0 : Rat) : WithTop Rat), (967 : Rat), (1934 : Rat)] ∧
          ¬ List.Forall₂ (StartsWithin (ExportSettings.frameMs {}))
            (p.graph.clipStarts media label)
            [shortClip "a" 0, shortClip "b" 1000, shortClip "c" 2000] := by
  have haccepted : Accepted [shortClip "a" 0, shortClip "b" 1000, shortClip "c" 2000]
      [{ id := "main" }] {} :=
    .of_pairwise (List.cons_ne_nil _ _) (by decide +kernel) (by decide +kernel)
      (by decide +kernel)
  have hpictures : picturesOn [shortClip "a" 0, shortClip "b" 1000, shortClip "c" 2000] "main" =
      [shortClip "a" 0, shortClip "b" 1000, shortClip "c" 2000] := by rfl
  have hsorted : sortByStart [shortClip "a" 0, shortClip "b" 1000, shortClip "c" 2000] =
      [shortClip "a" 0, shortClip "b" 1000, shortClip "c" 2000] :=
    List.mergeSort_of_pairwise (by decide +kernel)
  obtain ⟨p, hp⟩ := haccepted.succeeds_compile (isPart_media _)
    {} 48000 [{ id := "main" }] none none (by decide +kernel) []
  obtain ⟨label, hshows, hstarts⟩ := haccepted.exists_clipStarts hp "main"
    (by rw [hpictures]; exact List.cons_ne_nil _ _)
  rw [hpictures] at hshows hstarts
  refine ⟨(validate_eq_ok_iff _ _ _).mpr haccepted, p, label, hp, hshows, fun media hmedia => ?_⟩
  rw [hstarts media hmedia, hsorted, forall₂_startsWithin_iff _ le_rfl]
  exact ⟨by decide +kernel, by decide +kernel⟩

end TimelineExport
