import TimelineExport.Proofs.Compile.Chains
import TimelineExport.Proofs.Filter.Route

/-!
# Sound that is added to any graph

The sound of a program is added to whatever graph is there, and looks at nothing in it but the
counts of the labels that were given. So the chains that are added are those that would be added to
a graph without chains (`buildAudio_onto`), as long as `aout` and the labels that can still be given
do not occur in the graph (`Graph.HasRoom`): finishing a single clip renames its stream wherever it
occurs.
-/

namespace TimelineExport

variable {α : Type}

/-! ### Labels that can still be given -/

/-- The stems of the labels of the sound: clips, mixes of tracks, and the bed. -/
def soundStems : List String := ["ac", "amt", "abed"]

/-- A label of the sound that a graph can still give. -/
def Graph.CanGive (g : Graph α) (label : String) : Prop :=
  ∃ stem ∈ soundStems, ∃ n, g.givenCount stem ≤ n ∧ label = numbered stem n

/-- A label that can still be given is no reference to an input's stream. -/
theorem Graph.CanGive.streamInput?_eq_none {g : Graph α} {label : String} (h : g.CanGive label) :
    streamInput? label = none := by
  obtain ⟨stem, hstem, n, -, rfl⟩ := h
  have hstems : ∀ stem ∈ soundStems, IsLabelStem stem := by decide
  exact (hstems stem hstem).streamInput?_numbered n

/-- A label that does not end in a digit is not given for a stem. -/
theorem Graph.not_canGive_of_isStem {g : Graph α} {label : String} (h : IsStem label) :
    ¬ g.CanGive label := by
  rintro ⟨stem, -, n, -, heq⟩
  exact h.ne_numbered stem n heq

/-- **A graph with room for the sound**: neither `aout` occurs in it, nor a label of the sound that
it can still give. -/
def Graph.HasRoom (g : Graph α) : Prop :=
  ∀ c ∈ g.chains, ∀ label ∈ c.outputs ++ c.inputs, label ≠ audioOutput ∧ ¬ g.CanGive label

/-- A graph that grew: what it gives more than before are labels that could still be given. -/
structure Graph.Grows (g g' : Graph α) : Prop where
  given : ∀ stem, g.givenCount stem ≤ g'.givenCount stem
  produced : ∀ label ∈ g'.produced, label ∈ g.produced ∨ g.CanGive label

namespace Graph.Grows

theorem refl (g : Graph α) : g.Grows g := ⟨fun _ => Nat.le_refl _, fun _ h => .inl h⟩

theorem trans {g g' g'' : Graph α} (h : g.Grows g') (h' : g'.Grows g'') : g.Grows g'' where
  given stem := Nat.le_trans (h.given stem) (h'.given stem)
  produced label hlabel := by
    obtain hlabel | ⟨stem, hstem, n, hn, rfl⟩ := h'.produced label hlabel
    · exact h.produced label hlabel
    · exact .inr ⟨stem, hstem, n, Nat.le_trans (h.given stem) hn, rfl⟩

/-- A chain whose stream gets the next label of a stem of the sound. -/
theorem grow (g : Graph α) {stem : String} (hstem : stem ∈ soundStems) (inputs : List String)
    (filters : List (Filter α)) : g.Grows (g.grow stem inputs filters).2 where
  given other := g.givenCount_le_newLabel stem other
  produced label hlabel := by
    have hproduced : (g.grow stem inputs filters).2.produced =
        g.produced ++ [numbered stem (g.givenCount stem)] := by
      simp [Graph.grow, newLabel, Graph.produced, numbered]
    rw [hproduced, List.mem_append, List.mem_singleton] at hlabel
    exact hlabel.imp_right fun heq => ⟨stem, hstem, _, Nat.le_refl _, heq⟩

end Graph.Grows

/-- **A graph that grew by stems**: chains were added one after another, each with one stream that
got the next label of one of the stems. -/
inductive Graph.GrowsBy (stems : List String) (g : Graph α) : Graph α → Prop
  | refl : g.GrowsBy stems g
  | grow {g' : Graph α} (h : g.GrowsBy stems g') {stem : String} (hstem : stem ∈ stems)
      (inputs : List String) (filters : List (Filter α)) :
      g.GrowsBy stems (g'.grow stem inputs filters).2

namespace Graph.GrowsBy

theorem trans {stems : List String} {g g' g'' : Graph α} (h : g.GrowsBy stems g')
    (h' : g'.GrowsBy stems g'') : g.GrowsBy stems g'' := by
  induction h' with
  | refl => exact h
  | grow _ hstem inputs filters ih => exact ih.grow hstem inputs filters

/-- A graph that grew by the stems of the sound. -/
theorem grows {g g' : Graph α} (h : g.GrowsBy soundStems g') : g.Grows g' := by
  induction h with
  | refl => exact .refl g
  | grow _ hstem inputs filters ih => exact ih.trans (.grow _ hstem inputs filters)

end Graph.GrowsBy

/-- A mix of a track's clips. -/
theorem Graph.growsBy_mixTrack (g : Graph α) (labels : List String) :
    g.GrowsBy soundStems (mixTrack g labels).2 := by
  unfold mixTrack
  split
  · exact .refl
  · exact .grow .refl (by decide) _ _

section
variable [Scalar α]

theorem meets_buildClips_growsBy (sampleRate : Int) (g : Graph α) (clips : List (AudioClip α)) :
    Meets (buildClips sampleRate g clips) (fun r => g.GrowsBy soundStems r.2) fun _ => True := by
  induction clips generalizing g with
  | nil => exact .refl
  | cons c cs ih =>
    have hbuild : Meets (c.build sampleRate g) (fun r => g.GrowsBy soundStems r.2) fun _ => True :=
      (Meets.trivially _).bind fun filters _ _ => .grow .refl (by decide) _ _
    exact hbuild.bind fun r _ hr => (ih r.2).bind fun r' _ hr' => hr.trans hr'

/-- The chains of tracks are added one after another. -/
theorem meets_buildTracks_growsBy (sampleRate : Int) (g : Graph α)
    (tracks : List (AudioTrack α)) :
    Meets (buildTracks sampleRate g tracks) (fun r => g.GrowsBy soundStems r.2) fun _ => True := by
  induction tracks generalizing g with
  | nil => exact .refl
  | cons t ts ih =>
    refine (meets_buildClips_growsBy sampleRate g t.clips).bind fun r _ hr => ?_
    dsimp only
    split
    · exact (ih r.2).mono fun r' _ hr' => hr.trans hr'
    · refine (ih (mixTrack r.2 r.1).2).bind fun r' _ hr' => ?_
      exact (hr.trans (r.2.growsBy_mixTrack r.1)).trans hr'

/-- The chains of tracks give labels that could still be given. -/
theorem meets_buildTracks_grows (sampleRate : Int) (g : Graph α) (tracks : List (AudioTrack α)) :
    Meets (buildTracks sampleRate g tracks) (fun r => g.Grows r.2) fun _ => True :=
  (meets_buildTracks_growsBy sampleRate g tracks).mono fun _ _ h => h.grows

/-- The sound gives `aout` and labels that could still be given. -/
theorem meets_buildAudio_produced (sampleRate : Int) (g : Graph α) (tracks : List (AudioTrack α))
    (durationMs : α) :
    Meets (buildAudio sampleRate g tracks durationMs)
      (fun g' => ∀ label ∈ g'.produced,
        label = audioOutput ∨ label ∈ g.produced ∨ g.CanGive label) fun _ => True := by
  refine (meets_buildTracks_grows sampleRate g tracks).bind fun r _ hr => ?_
  obtain ⟨⟨labels, count⟩, built⟩ := r
  dsimp only at hr ⊢
  have hplace : ∀ {g' : Graph α} (inputs : List String) (filters : List (Filter α)),
      g.Grows g' → ∀ label ∈ (g'.place inputs filters audioOutput).produced,
        label = audioOutput ∨ label ∈ g.produced ∨ g.CanGive label := by
    intro g' inputs filters hg' label hlabel
    simp only [Graph.place, Graph.produced, List.flatMap_append, List.mem_append,
      List.flatMap_singleton, List.mem_singleton] at hlabel
    exact hlabel.symm.imp_right (hg'.produced label)
  split
  · exact hplace _ _ hr
  · refine (Meets.trivially _).mono fun g' hg' _ label hlabel => ?_
    obtain ⟨-, rfl⟩ := Graph.relabel_eq_ok_iff.mp (mapError_eq_ok.mp hg')
    rw [Graph.produced_rename, Graph.produced_extend, List.mem_map] at hlabel
    obtain ⟨l, hl, rfl⟩ := hlabel
    rw [Graph.renamed]
    split
    · exact .inl rfl
    · exact .inr (hr.produced l hl)
  · exact hplace _ _ (hr.trans (.grow built (by decide) _ _))

end

/-! ### Graphs on top of other chains -/

namespace Graph

variable {chains : List (Chain α)}

theorem grow_onto (g : Graph α) (stem : String) (inputs : List String)
    (filters : List (Filter α)) :
    (g.onto chains).grow stem inputs filters =
      ((g.grow stem inputs filters).1, (g.grow stem inputs filters).2.onto chains) := by
  simp [grow, newLabel, onto, givenCount]

theorem place_onto (g : Graph α) (inputs : List String) (filters : List (Filter α))
    (label : String) :
    (g.onto chains).place inputs filters label = (g.place inputs filters label).onto chains := by
  simp [place, onto]

/-- A stream that other chains do not know is extended where it is given. -/
theorem extend_onto (g : Graph α) {label : String}
    (hnot : ∀ c ∈ chains, label ∉ c.outputs) (filters : List (Filter α)) :
    (g.onto chains).extend label filters = (g.extend label filters).onto chains := by
  have hfirst : extendFirst label filters (chains ++ g.chains) =
      chains ++ extendFirst label filters g.chains := by
    induction chains with
    | nil => rfl
    | cons c cs ih =>
      obtain ⟨hc, hcs⟩ := List.forall_mem_cons.mp hnot
      rw [List.cons_append, extendFirst, if_neg (by simpa using hc), ih hcs, List.cons_append]
  simp [extend, onto, hfirst]

/-- A stream that other chains do not know is renamed where it is given and taken. -/
theorem rename_onto (g : Graph α) {old : String}
    (hnot : ∀ c ∈ chains, old ∉ c.outputs ++ c.inputs) (new : String) :
    (g.onto chains).rename old new = (g.rename old new).onto chains := by
  have hchains : chains.map (·.rename old new) = chains := by
    refine (List.map_congr_left fun c hc => ?_).trans (List.map_id chains)
    have houtputs : old ∉ c.outputs := fun hmem => hnot c hc (List.mem_append_left _ hmem)
    have hinputs : old ∉ c.inputs := fun hmem => hnot c hc (List.mem_append_right _ hmem)
    rw [Chain.rename, map_renamed_of_not_mem houtputs, map_renamed_of_not_mem hinputs, id]
  simp [rename, onto, hchains]

end Graph

theorem mixTrack_onto (g : Graph α) (chains : List (Chain α)) (labels : List String) :
    mixTrack (g.onto chains) labels =
      ((mixTrack g labels).1, (mixTrack g labels).2.onto chains) := by
  unfold mixTrack
  split
  · rfl
  · exact g.grow_onto _ _ _

section
variable [Scalar α] {sampleRate : Int} {chains : List (Chain α)}

theorem buildClips_onto {g : Graph α} {clips : List (AudioClip α)} {r : List String × Graph α}
    (h : buildClips sampleRate g clips = .ok r) :
    buildClips sampleRate (g.onto chains) clips = .ok (r.1, r.2.onto chains) := by
  induction clips generalizing g r with
  | nil =>
    cases h
    rfl
  | cons c cs ih =>
    obtain ⟨built, hbuilt, h⟩ := bind_eq_ok.mp h
    obtain ⟨filters, hfilters, hgrow⟩ := bind_eq_ok.mp hbuilt
    obtain ⟨rest, hrest, h⟩ := bind_eq_ok.mp h
    cases hgrow
    cases h
    refine bind_eq_ok.mpr ⟨_, bind_eq_ok.mpr ⟨filters, hfilters, rfl⟩, ?_⟩
    rw [g.grow_onto]
    exact bind_eq_ok.mpr ⟨_, ih hrest, rfl⟩

/-- The chains of tracks do not depend on those that are there. -/
theorem buildTracks_onto {g : Graph α} {tracks : List (AudioTrack α)}
    {r : (List String × Nat) × Graph α} (h : buildTracks sampleRate g tracks = .ok r) :
    buildTracks sampleRate (g.onto chains) tracks = .ok (r.1, r.2.onto chains) := by
  induction tracks generalizing g r with
  | nil =>
    cases h
    rfl
  | cons t ts ih =>
    obtain ⟨clips, hclips, h⟩ := bind_eq_ok.mp h
    refine bind_eq_ok.mpr ⟨_, buildClips_onto hclips, ?_⟩
    dsimp only at h ⊢
    split at h
    · next hempty =>
      rw [if_pos hempty]
      exact ih h
    · next hne =>
      obtain ⟨rest, hrest, h⟩ := bind_eq_ok.mp h
      cases h
      rw [if_neg hne, mixTrack_onto]
      exact bind_eq_ok.mpr ⟨_, ih hrest, rfl⟩

/-- **The sound is built on top of any chains as it is built without them**, if they know no label
that can still be given. -/
theorem buildAudio_onto {g g' : Graph α} {tracks : List (AudioTrack α)} {durationMs : α}
    (hempty : g.chains = [])
    (hroom : ∀ c ∈ chains, ∀ label ∈ c.outputs ++ c.inputs, ¬ g.CanGive label)
    (h : buildAudio sampleRate g tracks durationMs = .ok g') :
    buildAudio sampleRate (g.onto chains) tracks durationMs = .ok (g'.onto chains) := by
  obtain ⟨⟨⟨labels, count⟩, built⟩, htracks, h⟩ := bind_eq_ok.mp h
  refine bind_eq_ok.mpr ⟨_, buildTracks_onto htracks, ?_⟩
  dsimp only at h ⊢
  split at h
  · cases h
    rw [Graph.place_onto]
    rfl
  · next label _ =>
    have hrelabel := mapError_eq_ok.mp h
    obtain ⟨hlabel, rfl⟩ := Graph.relabel_eq_ok_iff.mp hrelabel
    -- the stream of the clip has a label that could still be given
    have hnot : ∀ c ∈ chains, label ∉ c.outputs ++ c.inputs := fun c hc hmem => by
      rw [Graph.produced_extend] at hlabel
      have hgrows := (meets_buildTracks_grows sampleRate g tracks).of_eq_ok htracks
      obtain hold | hgive := hgrows.produced label hlabel
      · simp [Graph.produced, hempty] at hold
      · exact hroom c hc label hmem hgive
    have hnot' : ∀ c ∈ chains, label ∉ c.outputs := fun c hc hmem =>
      hnot c hc (List.mem_append_left _ hmem)
    refine mapError_eq_ok.mpr (Graph.relabel_eq_ok_iff.mpr ⟨?_, ?_⟩)
    · rw [built.extend_onto hnot', Graph.produced_onto]
      exact List.mem_append_right _ hlabel
    · rw [built.extend_onto hnot', Graph.rename_onto _ hnot]
  · cases h
    rw [built.grow_onto, Graph.place_onto]
    rfl

end

end TimelineExport
