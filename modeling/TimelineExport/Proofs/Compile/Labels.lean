import TimelineExport.Proofs.Audio.Growth

/-!
# Labels in the course of a graph

A graph comes about step by step: a label is asked for, or the chains are changed. A label is its
stem with a number that counts how often a label was given for the stem, so a label that is given
later has a greater number or another stem. As long as no stem ends in a digit the two can be read
back, and so no label is given twice, however the requests are mixed and whatever becomes of the
chains between them (`Graph.nodup_run`).

The stems of programs do not begin with a digit either, so that no label is taken for a reference
to an input, and no fixed name ends in a digit, so that none is given (`labels_never_repeat`). Every
program, and every sound that is added to a graph, comes about by such steps
(`meets_compile_runsTo`, `meets_buildAudio_runsTo`).
-/

namespace TimelineExport

variable {α : Type}

/-- A step in the course of a graph: a label is asked for, or the chains are replaced by others. -/
inductive GraphStep (α : Type) where
  | newLabel (stem : String)
  | change (chains : List (Chain α))

/-- The stems for which labels are asked for. -/
def GraphStep.stems (steps : List (GraphStep α)) : List String :=
  steps.filterMap fun
    | newLabel stem => some stem
    | change _ => none

namespace Graph

/-- The labels that are given in the course of steps, and the graph at the end. -/
def run : Graph α → List (GraphStep α) → List String × Graph α
  | g, [] => ([], g)
  | g, .newLabel stem :: steps =>
    let (label, g) := g.newLabel stem
    let (labels, g) := g.run steps
    (label :: labels, g)
  | g, .change chains :: steps => { g with chains }.run steps

/-- A course from one graph to another, with labels for given stems only. -/
def RunsTo (stems : List String) (g g' : Graph α) : Prop :=
  ∃ steps, (∀ stem ∈ GraphStep.stems steps, stem ∈ stems) ∧ (g.run steps).2 = g'

/-! ### Numbers of labels -/

/-- **Every label that is given** is the stem it was asked for with a number that was not given
before. -/
theorem forall₂_run (g : Graph α) (steps : List (GraphStep α)) :
    List.Forall₂ (fun stem label => ∃ n, g.givenCount stem ≤ n ∧ label = numbered stem n)
      (GraphStep.stems steps) (g.run steps).1 := by
  induction steps generalizing g with
  | nil => exact .nil
  | cons step steps ih =>
    cases step with
    | newLabel stem =>
      refine .cons ⟨g.givenCount stem, Nat.le_refl _, rfl⟩ ((ih (g.newLabel stem).2).imp ?_)
      rintro other label ⟨n, hn, rfl⟩
      exact ⟨n, Nat.le_trans (g.givenCount_le_newLabel stem other) hn, rfl⟩
    | change chains => exact ih { g with chains }

theorem exists_of_mem_run {g : Graph α} {steps : List (GraphStep α)} {label : String}
    (h : label ∈ (g.run steps).1) :
    ∃ stem ∈ GraphStep.stems steps, ∃ n, g.givenCount stem ≤ n ∧ label = numbered stem n := by
  obtain ⟨i, hi, rfl⟩ := List.mem_iff_getElem.mp h
  have hnumbered := g.forall₂_run steps
  have hstem : i < (GraphStep.stems steps).length := hnumbered.length_eq ▸ hi
  exact ⟨_, List.getElem_mem hstem, hnumbered.get hstem hi⟩

/-- **No label is given twice**, if no stem ends in a digit. -/
theorem nodup_run {steps : List (GraphStep α)}
    (h : ∀ stem ∈ GraphStep.stems steps, IsStem stem) (g : Graph α) : (g.run steps).1.Nodup := by
  induction steps generalizing g with
  | nil => exact List.nodup_nil
  | cons step steps ih =>
    cases step with
    | newLabel stem =>
      obtain ⟨hstem, hstems⟩ := List.forall_mem_cons.mp h
      refine List.nodup_cons.mpr ⟨fun hmem => ?_, ih hstems _⟩
      -- a later label for the same stem has a greater number
      have hmem : numbered stem (g.givenCount stem) ∈ ((g.newLabel stem).2.run steps).1 := hmem
      obtain ⟨other, hother, n, hn, heq⟩ := exists_of_mem_run hmem
      obtain ⟨rfl, rfl⟩ := (numbered_inj hstem (hstems other hother)).mp heq
      rw [givenCount_newLabel, if_pos rfl] at hn
      exact Nat.not_succ_le_self _ hn
    | change chains => exact ih h { g with chains }

/-! ### Courses -/

theorem run_append (g : Graph α) (steps rest : List (GraphStep α)) :
    (g.run (steps ++ rest)).2 = ((g.run steps).2.run rest).2 := by
  induction steps generalizing g with
  | nil => rfl
  | cons step steps ih =>
    cases step with
    | newLabel stem => exact ih (g.newLabel stem).2
    | change chains => exact ih { g with chains }

namespace RunsTo

variable {stems : List String} {g g' g'' : Graph α}

theorem trans (h : g.RunsTo stems g') (h' : g'.RunsTo stems g'') : g.RunsTo stems g'' := by
  obtain ⟨steps, hsteps, rfl⟩ := h
  obtain ⟨rest, hrest, rfl⟩ := h'
  refine ⟨steps ++ rest, ?_, g.run_append steps rest⟩
  rw [GraphStep.stems, List.filterMap_append]
  exact List.forall_mem_append.mpr ⟨hsteps, hrest⟩

theorem mono {stems' : List String} (h : g.RunsTo stems g') (hsub : stems ⊆ stems') :
    g.RunsTo stems' g' := by
  obtain ⟨steps, hsteps, hrun⟩ := h
  exact ⟨steps, fun stem hstem => hsub (hsteps stem hstem), hrun⟩

/-- Whatever becomes of the chains, as long as no label is asked for. -/
theorem of_given_eq (h : g'.given = g.given) : g.RunsTo stems g' := by
  obtain ⟨chains, given⟩ := g'
  subst h
  exact ⟨[.change chains], nofun, rfl⟩

/-- A graph that grew by stems. -/
theorem of_growsBy (h : g.GrowsBy stems g') : g.RunsTo stems g' := by
  induction h with
  | refl => exact .of_given_eq rfl
  | @grow g' _ stem hstem inputs filters ih =>
    refine ih.trans ⟨[.newLabel stem, .change (g'.grow stem inputs filters).2.chains], ?_, rfl⟩
    exact List.forall_mem_singleton.mpr hstem

/-- A stream that is finished and given a fixed name. -/
theorem finish {label name : String} {filters : List (Filter α)}
    (h : (g.extend label filters).relabel label name = .ok g') : g.RunsTo stems g' := by
  obtain ⟨-, rfl⟩ := relabel_eq_ok_iff.mp h
  exact .of_given_eq rfl

end RunsTo

end Graph

/-! ### The stems of programs -/

/-- The stems of the labels of the picture: segments, tracks, and layers. -/
def pictureStems : List String := ["seg", "track", "layer"]

/-- The stems of all labels that are asked for when a program is put together. -/
def programStems : List String := pictureStems ++ soundStems

theorem isLabelStem_of_mem_programStems : ∀ stem ∈ programStems, IsLabelStem stem := by decide

/-- A concatenation of segments. -/
theorem Graph.growsBy_concatenate (g : Graph α) (labels : List String) :
    g.GrowsBy pictureStems (concatenate g labels).2 := by
  unfold concatenate
  split
  · exact .refl
  · exact .grow .refl (by decide) _ _

section
variable [Scalar α]

theorem meets_buildSegments_growsBy (settings : ExportSettings) (sources : List String)
    (g : Graph α) (previousEnd : α) (es : List (Element α)) :
    Meets (buildSegments settings sources g previousEnd es) (fun r => g.GrowsBy pictureStems r.2)
      fun _ => True := by
  induction es generalizing g previousEnd with
  | nil => exact .refl
  | cons e es ih =>
    refine (Meets.trivially _).bind fun index _ _ => (Meets.trivially _).bind fun filters _ _ => ?_
    have hgrow : g.GrowsBy pictureStems (g.grow "seg" [streamLabel index "v"] filters).2 :=
      .grow .refl (by decide) _ _
    exact (ih _ e.endMs).bind fun r _ hr => hgrow.trans hr

theorem meets_assembleTrack_growsBy (settings : ExportSettings) (sources : List String)
    (g : Graph α) (clips : List (Element α)) :
    Meets (assembleTrack settings sources g clips) (fun r => g.GrowsBy pictureStems r.2)
      fun _ => True :=
  (meets_buildSegments_growsBy settings sources g 0 _).bind fun r _ hr =>
    hr.trans (r.2.growsBy_concatenate r.1)

/-- The layers of tracks are added one after another. -/
theorem meets_buildLayers_growsBy (settings : ExportSettings) (sources : List String)
    (pictures : List (Element α)) (g : Graph α) (current : String) (tracks : List String) :
    Meets (buildLayers settings sources pictures g current tracks)
      (fun r => g.GrowsBy pictureStems r.2) fun _ => True := by
  induction tracks generalizing g current with
  | nil => exact .refl
  | cons track tracks ih =>
    rw [buildLayers]
    dsimp only
    split
    · exact ih g current
    · refine (meets_assembleTrack_growsBy settings sources g _).bind fun r _ hr => ?_
      have hlayer : g.GrowsBy pictureStems (r.2.grow "layer" [current, r.1] [overlayFilter]).2 :=
        hr.grow (by decide) _ _
      exact (ih _ _).mono fun r' _ hr' => hlayer.trans hr'

/-- **The sound comes about** by steps that ask for labels of programs. -/
theorem meets_buildAudio_runsTo (sampleRate : Int) (g : Graph α) (tracks : List (AudioTrack α))
    (durationMs : α) :
    Meets (buildAudio sampleRate g tracks durationMs) (g.RunsTo programStems) fun _ => True := by
  refine (meets_buildTracks_growsBy sampleRate g tracks).bind fun r _ hr => ?_
  obtain ⟨⟨labels, count⟩, built⟩ := r
  have hbuilt : g.RunsTo programStems built :=
    (Graph.RunsTo.of_growsBy hr).mono (List.subset_append_right _ _)
  dsimp only
  split
  · exact hbuilt.trans (.of_given_eq rfl)
  · exact (Meets.trivially _).mono fun g' hg' _ => hbuilt.trans (.finish (mapError_eq_ok.mp hg'))
  · have hbed : built.RunsTo programStems
        (built.grow "abed" [] (silence sampleRate durationMs)).2 :=
      .of_growsBy (.grow .refl (by decide) _ _)
    exact (hbuilt.trans hbed).trans (.of_given_eq rfl)

/-- The picture comes about by steps that ask for labels of programs. -/
theorem meets_buildVideo_runsTo (settings : ExportSettings) (es : List (Element α))
    (order sources : List String) (overlayIndex : Option Nat) :
    Meets (buildVideo settings es order sources overlayIndex)
      (({} : Graph α).RunsTo programStems) fun _ => True := by
  refine (meets_buildLayers_growsBy settings sources _ _ _ order).bind fun r _ hr => ?_
  have hlayers : ({} : Graph α).RunsTo programStems r.2 := by
    refine .trans ?_ ((Graph.RunsTo.of_growsBy hr).mono (List.subset_append_left _ _))
    exact .of_given_eq rfl
  have hoverlay : ({} : Graph α).RunsTo programStems (layOverlay overlayIndex r).2 := by
    cases overlayIndex with
    | none => exact hlayers
    | some index => exact hlayers.trans (.of_growsBy (.grow .refl (by decide) _ _))
  cases overlayIndex <;>
    exact (Meets.trivially _).mono fun g' hg' _ => hoverlay.trans (.finish (mapError_eq_ok.mp hg'))

/-- **A program comes about** from the empty graph by steps that ask for labels of programs. -/
theorem meets_compile_runsTo (settings : ExportSettings) (sampleRate : Int)
    (es : List (Element α)) (tracks : List Track) (overlay : Option OverlaySequence)
    (duration : Option α) (audioSources : List (String × Bool)) :
    Meets (compile settings sampleRate es tracks overlay duration audioSources)
      (fun p => ({} : Graph α).RunsTo programStems p.graph) fun _ => True := by
  unfold compile
  dsimp only
  split
  · trivial
  refine (meets_buildVideo_runsTo settings es _ _ _).bind fun video _ hvideo => ?_
  refine (Meets.trivially _).bind fun audio _ _ => ?_
  refine (meets_buildAudio_runsTo sampleRate video audio _).bind fun g _ hg => ?_
  exact (Meets.trivially _).bind fun _ _ _ => hvideo.trans hg

/-- **Labels never repeat.** Whatever is asked of a graph and in whichever order, every request is
answered by its stem with a number. If no stem ends in a digit, the labels are pairwise distinct; if
the stems are those of programs, no label is a fixed name or is taken for a reference to an input.
Those are all stems for which a compiler of programs, or of their sound alone, asks for labels. -/
theorem labels_never_repeat (g : Graph α) (steps : List (GraphStep α)) :
    List.Forall₂ (fun stem label => ∃ n, label = numbered stem n) (GraphStep.stems steps)
        (g.run steps).1 ∧
      ((∀ stem ∈ GraphStep.stems steps, IsStem stem) → (g.run steps).1.Nodup) ∧
      ((∀ stem ∈ GraphStep.stems steps, stem ∈ programStems) →
        ∀ label ∈ (g.run steps).1,
          label ∉ ["base", videoOutput, audioOutput] ∧ streamInput? label = none) ∧
      (∀ settings sampleRate es tracks overlay duration audioSources p,
        compile settings sampleRate es tracks overlay duration audioSources = .ok p →
          ({} : Graph α).RunsTo programStems p.graph) ∧
      ∀ sampleRate tracks durationMs g',
        buildAudio sampleRate g tracks durationMs = .ok g' → g.RunsTo programStems g' := by
  refine ⟨?_, fun hstems => Graph.nodup_run hstems g, fun hstems label hlabel => ?_, ?_, ?_⟩
  · exact (g.forall₂_run steps).imp fun stem label ⟨n, _, heq⟩ => ⟨n, heq⟩
  · obtain ⟨stem, hstem, n, -, rfl⟩ := Graph.exists_of_mem_run hlabel
    have hnames : ∀ name ∈ ["base", videoOutput, audioOutput], IsStem name := by decide
    have hlabelStem := isLabelStem_of_mem_programStems stem (hstems stem hstem)
    exact ⟨fun hname => (hnames _ hname).ne_numbered stem n rfl,
      hlabelStem.streamInput?_numbered n⟩
  · intro settings sampleRate es tracks overlay duration audioSources p hp
    exact (meets_compile_runsTo settings sampleRate es tracks overlay duration
      audioSources).of_eq_ok hp
  · intro sampleRate tracks durationMs g' hg'
    exact (meets_buildAudio_runsTo sampleRate g tracks durationMs).of_eq_ok hg'

end

/-- Labels for segments and a track, between which the chains change, and a program that is put
together. -/
theorem labels_never_repeat_of_segments :
    let steps : List (GraphStep Rat) := [.newLabel "seg", .newLabel "seg",
      .change [⟨["0:v"], [{ name := "null" }], ["seg0"]⟩], .newLabel "track", .newLabel "seg"]
    (({} : Graph Rat).run steps).1 = ["seg0", "seg1", "track0", "seg2"] ∧
      (({} : Graph Rat).run steps).1.Nodup ∧
      (∀ label ∈ (({} : Graph Rat).run steps).1,
        label ∉ ["base", videoOutput, audioOutput] ∧ streamInput? label = none) ∧
      ∃ p, compile {} 48000 [.plain .video "picture" "main" "a.mp4" 0 1000,
          .plain .audio "sound" "other" "b.mp3" 500 (2000 : Rat)] [{ id := "main" }] none none [] =
            .ok p ∧
        ({} : Graph Rat).RunsTo programStems p.graph := by
  intro steps
  have h := labels_never_repeat ({} : Graph Rat) steps
  obtain ⟨p, hp⟩ : Succeeds (compile {} 48000 [.plain .video "picture" "main" "a.mp4" 0 1000,
    .plain .audio "sound" "other" "b.mp3" 500 (2000 : Rat)] [{ id := "main" }] none none []) :=
    .of_isOk (by decide +kernel)
  exact ⟨by decide, h.2.1 (by decide), h.2.2.1 (by decide), p, hp, h.2.2.2.1 _ _ _ _ _ _ _ p hp⟩

end TimelineExport
