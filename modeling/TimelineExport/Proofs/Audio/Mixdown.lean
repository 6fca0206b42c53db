import TimelineExport.Proofs.Audio.Growth
import TimelineExport.Proofs.Audio.Length
import TimelineExport.Proofs.Compile.Total
import TimelineExport.Proofs.Compile.Usage

/-!
# The mixdown

Whatever tracks there are, and whatever graph is there already, the sound comes out as one stream
`aout` that lasts exactly as long as the output. There are three ways in which the chains are put
together (`SoundChains`): silence if there are no clips, a single clip padded and cut, and otherwise
a mix of all tracks over a bed of silence. In each of them every clip has a chain of its own, from
which one path leads to `aout`, through mixes only; and no padded stream is mixed, nor a mix padded
(`buildAudio_isMixdown`).

That paths are unique and that no chain of the graph below takes part is known of wired graphs
already. So what is left to say is what the chains are, and how long their streams last. The numbers
are rational, since not every other number can be rounded to a delay.
-/

namespace TimelineExport

variable {α : Type}

/-! ### Mixdowns -/

/-- A chain that has a filter of a name. -/
def Chain.Uses (c : Chain α) (name : String) : Prop := name ∈ c.filterNames

/-- A chain that is one mix, which keeps the loudness of its streams. -/
def Chain.IsPlainMix (c : Chain α) : Prop :=
  ∃ f, c.filters = [f] ∧ f.name = "amix" ∧ f.options.lookup "normalize" = some (.int 0)

theorem isPlainMix_mixFilter (streams outputs : List String) (count : Nat) (length : String) :
    (⟨streams, [mixFilter count length], outputs⟩ : Chain α).IsPlainMix :=
  ⟨_, rfl, rfl, rfl⟩

/-- A chain that plays a clip: it takes the clip's stream through the filters of the clip, and
perhaps through more. -/
def Chain.PlaysClip [Scalar α] (sampleRate : Int) (clip : AudioClip α) (c : Chain α) : Prop :=
  c.inputs = [clip.input] ∧ ∃ filters, clip.filters sampleRate = .ok filters ∧ filters <+: c.filters

/-- **A clip is heard** through a chain of a graph: exactly one path leads from the chain to `aout`,
and it leads through mixes only. -/
structure Graph.Hears [Scalar α] (g : Graph α) (sampleRate : Int) (clip : AudioClip α)
    (c : Chain α) : Prop where
  plays : c.PlaysClip sampleRate clip
  route : ∃ label, c.outputs = [label] ∧ ∃! path, g.IsPath label path audioOutput
  mixes : ∀ label ∈ c.outputs, ∀ path, g.IsPath label path audioOutput →
    ∀ n ∈ path, ∃ link, g.links[n]? = some link ∧ link.via.IsPlainMix

/-- **A mixdown** of clips, added to a graph. -/
structure IsMixdown (sampleRate : Int) (clips : List (AudioClip Rat)) (durationMs : Rat)
    (before after : Graph Rat) : Prop where
  /-- The chains that were there are kept, and every clip is heard through a chain of its own. -/
  clips : ∃ new heard, after.chains = before.chains ++ new ∧ heard.Sublist new ∧
    List.Forall₂ (after.Hears sampleRate) clips heard
  /-- One chain gives the sound. -/
  given_once : after.produced.count audioOutput = 1
  /-- The sound lasts as long as the output, whatever filters do to the lengths of the inputs'
  streams. -/
  lasts : ∀ (s : SoundLengths) (length : WithTop Rat),
    after.Lasts s audioOutput length ↔ length = durationMs
  /-- Padding lies neither upstream nor downstream of a mix, where it did not before. -/
  apart : ∀ c ∈ after.chains, ∀ d ∈ after.chains, c.Uses "apad" → d.Uses "amix" →
    (after.Reaches c d ∨ after.Reaches d c) → c ∈ before.chains ∧ d ∈ before.chains

/-! ### The chains of the sound -/

section
variable [Scalar α] {sampleRate : Int}

/-- **The chains of the sound**, in one of three shapes. -/
inductive SoundChains (sampleRate : Int) (tracks : List (AudioTrack α)) (durationMs : α) :
    List (Chain α) → Prop
  | silent (hclips : tracks.flatMap (·.clips) = []) : SoundChains sampleRate tracks durationMs
      [⟨[], silence sampleRate durationMs, [audioOutput]⟩]
  | single {clip : AudioClip α} {filters : List (Filter α)}
      (hclips : tracks.flatMap (·.clips) = [clip])
      (hfilters : clip.filters sampleRate = .ok filters) :
      SoundChains sampleRate tracks durationMs
        [⟨[clip.input], filters ++ [{ name := "apad" }, cutAudio durationMs], [audioOutput]⟩]
  | mixed {cs : List (Chain α)} {labels : List String} (bed : String)
      (hrun : MixRun sampleRate tracks cs labels) :
      SoundChains sampleRate tracks durationMs
        (cs ++ [⟨[], silence sampleRate durationMs, [bed]⟩,
          ⟨bed :: labels, [mixFilter (labels.length + 1) "first"], [audioOutput]⟩])

/-- Without clips there are no chains, and without streams there are no clips. -/
theorem MixRun.nil_iff {tracks : List (AudioTrack α)} {cs : List (Chain α)}
    {labels : List String} (h : MixRun sampleRate tracks cs labels) :
    (tracks.flatMap (·.clips) = [] ↔ labels = []) ∧ (labels = [] → cs = []) := by
  induction h with
  | nil => exact ⟨iff_of_true rfl rfl, fun _ => rfl⟩
  | skip hempty _ ih =>
    rw [List.flatMap_cons, hempty, List.nil_append]
    exact ih
  | single hchain _ _ _ =>
    have hne := List.length_pos_iff.mp (Nat.lt_of_lt_of_eq Nat.zero_lt_one hchain.length_eq.symm)
    simp [hne]
  | mix hchains hlength _ _ =>
    have hne := List.length_pos_iff.mp
      (Nat.lt_of_lt_of_eq (Nat.zero_lt_of_lt hlength) hchains.length_eq.symm)
    simp [hne]

/-- A single clip has a single chain, whose stream is that of its track. -/
theorem MixRun.of_clips_singleton {tracks : List (AudioTrack α)} {cs : List (Chain α)}
    {labels : List String} (h : MixRun sampleRate tracks cs labels) {clip : AudioClip α}
    (hclips : tracks.flatMap (·.clips) = [clip]) :
    ∃ c label, cs = [c] ∧ labels = [label] ∧ IsClipChain sampleRate clip c ∧
      c.outputs = [label] := by
  induction h with
  | nil => cases hclips
  | skip hempty _ ih =>
    rw [List.flatMap_cons, hempty, List.nil_append] at hclips
    exact ih hclips
  | @single t ts c ds label labels hchain houtput htail ih =>
    obtain ⟨clip', rest, hclip', hrest, htclips⟩ := List.forall₂_cons_right_iff.mp hchain
    rw [List.forall₂_nil_right_iff.mp hrest] at htclips
    rw [List.flatMap_cons, htclips, List.singleton_append, List.cons.injEq] at hclips
    obtain ⟨rfl, hnone⟩ := hclips
    have hlabels : labels = [] := htail.nil_iff.1.mp hnone
    exact ⟨c, label, by rw [htail.nil_iff.2 hlabels], by rw [hlabels], hclip', houtput⟩
  | mix hchains hlength _ _ =>
    have hle := congrArg List.length hclips
    rw [List.flatMap_cons, List.length_append, hchains.length_eq, List.length_singleton] at hle
    omega

/-- The tracks are counted by their clips. -/
theorem meets_buildTracks_count (sampleRate : Int) (g : Graph α) (tracks : List (AudioTrack α)) :
    Meets (buildTracks sampleRate g tracks)
      (fun r => r.1.2 = (tracks.flatMap (·.clips)).length) fun _ => True := by
  induction tracks generalizing g with
  | nil => exact rfl
  | cons t ts ih =>
    refine (meets_buildClips_run sampleRate g t.clips).bind fun r _ hr => ?_
    obtain ⟨labels, built⟩ := r
    obtain ⟨cs, hclips, -, hlabels⟩ := hr
    have hlength : labels.length = t.clips.length := by
      rw [hclips.length_eq, length_outputs_of_isClipChain hclips, hlabels]
    dsimp only
    split
    · next hempty =>
      rw [List.isEmpty_iff.mp hempty, List.length_nil] at hlength
      refine (ih built).mono fun r _ hr => ?_
      rw [List.flatMap_cons, List.length_append, ← hlength, Nat.zero_add, hr]
    · refine (ih _).bind fun r _ hr => ?_
      obtain ⟨⟨rest, count⟩, _⟩ := r
      change labels.length + count = _
      rw [List.flatMap_cons, List.length_append, hlength, show count = _ from hr]

/-- **The sound has one of the three shapes.** -/
theorem meets_buildAudio_chains {g : Graph α} (hempty : g.chains = [])
    {tracks : List (AudioTrack α)}
    (hinputs : ∀ clip ∈ tracks.flatMap (·.clips), (streamInput? clip.input).isSome)
    (durationMs : α) :
    Meets (buildAudio sampleRate g tracks durationMs)
      (fun g' => SoundChains sampleRate tracks durationMs g'.chains) fun _ => True := by
  refine (meets_buildTracks_run sampleRate g tracks).bind fun r heq hr => ?_
  have hcount := (meets_buildTracks_count sampleRate g tracks).of_eq_ok heq
  have hgrows := (meets_buildTracks_grows sampleRate g tracks).of_eq_ok heq
  obtain ⟨⟨labels, count⟩, built⟩ := r
  obtain ⟨cs, hrun, hchains⟩ := hr
  rw [hempty, List.nil_append] at hchains
  dsimp only at hcount hgrows hrun hchains ⊢
  split
  · change SoundChains sampleRate tracks durationMs (built.chains ++ _)
    rw [hchains, hrun.nil_iff.2 rfl, List.nil_append]
    exact .silent (hrun.nil_iff.1.mpr rfl)
  · next label _ =>
    obtain ⟨clip, hclips⟩ := List.length_eq_one_iff.mp hcount.symm
    obtain ⟨⟨inputs, filters, outputs⟩, label', rfl, hlabels, hclip, houtput⟩ :=
      hrun.of_clips_singleton hclips
    rw [List.cons.injEq] at hlabels
    obtain ⟨rfl, rfl⟩ := hlabels
    obtain rfl : inputs = [clip.input] := hclip.inputs
    obtain rfl : outputs = [label] := houtput
    -- the clip's stream has a label that could still be given, so it is not what the clip takes
    have hne : clip.input ≠ label := by
      rintro rfl
      obtain hold | hgive := hgrows.produced clip.input (by simp [Graph.produced, hchains])
      · simp [Graph.produced, hempty] at hold
      · have hsome := hinputs clip (by simp [hclips])
        rw [hgive.streamInput?_eq_none] at hsome
        cases hsome
    refine (Meets.trivially _).mono fun g' hg' _ => ?_
    obtain ⟨-, rfl⟩ := Graph.relabel_eq_ok_iff.mp (mapError_eq_ok.mp hg')
    have hfinished : ((built.extend label [{ name := "apad" }, cutAudio durationMs]).rename label
        audioOutput).chains = [⟨[clip.input], filters ++ [{ name := "apad" }, cutAudio durationMs],
          [audioOutput]⟩] := by
      simp [Graph.rename, Graph.extend, hchains, Graph.extendFirst, Chain.rename, Graph.renamed,
        hne]
    rw [hfinished]
    exact .single hclips hclip.filters
  · change SoundChains sampleRate tracks durationMs (((built.chains ++ _) ++ _))
    rw [hchains, List.append_assoc]
    exact .mixed (built.newLabel "abed").1 hrun

/-! ### What the chains do -/

/-- The filters of a clip neither pad nor mix. -/
theorem IsClipChain.mem_soundFilterNames {clip : AudioClip α} {c : Chain α}
    (h : IsClipChain sampleRate clip c) : ∀ name ∈ c.filterNames, name ∈ soundFilterNames := by
  intro name hname
  obtain ⟨f, hf, rfl⟩ := List.mem_map.mp hname
  exact (clip.meets_filterNames sampleRate).of_eq_ok h.filters f hf

/-- The chains of clips play streams of inputs, if the clips do. -/
theorem exists_clip_of_forall₂ {clips : List (AudioClip α)} {cs : List (Chain α)}
    (hinputs : ∀ clip ∈ clips, (streamInput? clip.input).isSome)
    (h : List.Forall₂ (IsClipChain sampleRate) clips cs) :
    ∀ c ∈ cs, ∃ clip, (streamInput? clip.input).isSome ∧ IsClipChain sampleRate clip c :=
  forall_of_forall₂ ((List.forall₂_and_left _ _).mpr ⟨hinputs, h⟩) fun clip _ h => ⟨clip, h⟩

/-- The chains of tracks play clips or are mixes. -/
theorem MixRun.plays_or_mixes {tracks : List (AudioTrack α)} {cs : List (Chain α)}
    {labels : List String} (h : MixRun sampleRate tracks cs labels)
    (hinputs : ∀ clip ∈ tracks.flatMap (·.clips), (streamInput? clip.input).isSome) :
    ∀ c ∈ cs, (∃ clip, (streamInput? clip.input).isSome ∧ IsClipChain sampleRate clip c) ∨
      ∃ streams count label, c = ⟨streams, [mixFilter count "longest"], [label]⟩ := by
  induction h with
  | nil => exact fun _ hc => absurd hc List.not_mem_nil
  | skip _ _ ih =>
    rw [List.flatMap_cons, List.forall_mem_append] at hinputs
    exact ih hinputs.2
  | single hchain _ _ ih =>
    rw [List.flatMap_cons, List.forall_mem_append] at hinputs
    have hclip := exists_clip_of_forall₂ hinputs.1 hchain
    exact List.forall_mem_cons.mpr ⟨.inl (hclip _ List.mem_cons_self), ih hinputs.2⟩
  | mix hchains _ _ ih =>
    rw [List.flatMap_cons, List.forall_mem_append] at hinputs
    have hclips := exists_clip_of_forall₂ hinputs.1 hchains
    refine List.forall_mem_append.mpr ⟨fun c hc => .inl (hclips c hc), ?_⟩
    exact List.forall_mem_cons.mpr ⟨.inr ⟨_, _, _, rfl⟩, ih hinputs.2⟩

namespace SoundChains

variable {tracks : List (AudioTrack α)} {durationMs : α} {new : List (Chain α)}

/-- Every chain of the sound gives one stream. -/
theorem exists_output (h : SoundChains sampleRate tracks durationMs new)
    (hinputs : ∀ clip ∈ tracks.flatMap (·.clips), (streamInput? clip.input).isSome) :
    ∀ c ∈ new, ∃ label, c.outputs = [label] := by
  cases h with
  | silent _ => simp
  | single _ _ => simp
  | mixed bed hrun =>
    refine List.forall_mem_append.mpr ⟨fun c hc => ?_, by simp⟩
    obtain ⟨clip, -, hclip⟩ | ⟨_, _, label, rfl⟩ := hrun.plays_or_mixes hinputs c hc
    · exact hclip.output
    · exact ⟨label, rfl⟩

/-- A chain of the sound that takes the stream of another chain is a mix. -/
theorem isPlainMix (h : SoundChains sampleRate tracks durationMs new)
    (hinputs : ∀ clip ∈ tracks.flatMap (·.clips), (streamInput? clip.input).isSome) :
    ∀ c ∈ new, (∃ label ∈ c.inputs, isPlain label) → c.IsPlainMix := by
  have hclip : ∀ {clip : AudioClip α}, (streamInput? clip.input).isSome →
      ¬ ∃ label ∈ [clip.input], isPlain label := by
    intro clip hinput
    simpa [isPlain] using Option.isSome_iff_ne_none.mp hinput
  cases h with
  | silent _ => simp
  | @single clip _ hclips _ =>
    refine List.forall_mem_singleton.mpr fun hplain => absurd hplain (hclip (hinputs clip ?_))
    simp [hclips]
  | mixed bed hrun =>
    refine List.forall_mem_append.mpr ⟨fun c hc hplain => ?_, ?_⟩
    · obtain ⟨clip, hinput, hc⟩ | ⟨_, _, _, rfl⟩ := hrun.plays_or_mixes hinputs c hc
      · rw [hc.inputs] at hplain
        exact absurd hplain (hclip hinput)
      · exact isPlainMix_mixFilter _ _ _ _
    · refine List.forall_mem_cons.mpr ⟨by simp, ?_⟩
      exact List.forall_mem_singleton.mpr fun _ => isPlainMix_mixFilter _ _ _ _

/-- **The sound is padded or mixed**, never both. -/
theorem not_uses_apad_or_amix (h : SoundChains sampleRate tracks durationMs new)
    (hinputs : ∀ clip ∈ tracks.flatMap (·.clips), (streamInput? clip.input).isSome) :
    (∀ c ∈ new, ¬ c.Uses "apad") ∨ ∀ c ∈ new, ¬ c.Uses "amix" := by
  have hpad : "apad" ∉ soundFilterNames := by decide
  have hmix : "amix" ∉ soundFilterNames := by decide
  cases h with
  | silent _ => exact .inl (by simp [Chain.Uses, Chain.filterNames, silence, cutAudio])
  | @single clip filters _ hfilters =>
    refine .inr (List.forall_mem_singleton.mpr fun huses => ?_)
    rw [Chain.Uses, Chain.filterNames, List.map_append, List.mem_append] at huses
    obtain huses | huses := huses
    · obtain ⟨f, hf, hname⟩ := List.mem_map.mp huses
      have hmem := (clip.meets_filterNames sampleRate).of_eq_ok hfilters f hf
      exact hmix (hname ▸ hmem)
    · simp [cutAudio] at huses
  | mixed bed hrun =>
    refine .inl (List.forall_mem_append.mpr ⟨fun c hc huses => ?_, ?_⟩)
    · obtain ⟨clip, -, hclip⟩ | ⟨_, _, _, rfl⟩ := hrun.plays_or_mixes hinputs c hc
      · exact hpad (hclip.mem_soundFilterNames "apad" huses)
      · simp [Chain.Uses, Chain.filterNames, mixFilter] at huses
    · simp [Chain.Uses, Chain.filterNames, silence, cutAudio, mixFilter]

/-- Every clip is played by a chain of its own. -/
theorem exists_plays (h : SoundChains sampleRate tracks durationMs new) {inputCount : Nat}
    (hbounded : ∀ t ∈ tracks, ∀ clip ∈ t.clips, clip.IsBounded inputCount) :
    ∃ heard, heard.Sublist new ∧
      List.Forall₂ (Chain.PlaysClip sampleRate) (tracks.flatMap (·.clips)) heard := by
  cases h with
  | silent hclips => exact ⟨[], List.nil_sublist _, hclips ▸ .nil⟩
  | single hclips hfilters =>
    refine ⟨_, List.Sublist.refl _, ?_⟩
    rw [hclips]
    exact .cons ⟨rfl, _, hfilters, List.prefix_append _ _⟩ .nil
  | @mixed cs labels bed hrun =>
    have hplays := (MixRun.filter_plays hbounded hrun).1
    refine ⟨cs.filter (·.plays inputCount "a"),
      List.filter_sublist.trans (List.sublist_append_left _ _), hplays.imp fun clip c hc => ?_⟩
    exact ⟨hc.inputs, c.filters, hc.filters, List.prefix_rfl⟩

end SoundChains

end

/-! ### How long the sound lasts -/

section
variable {sampleRate : Int} {s : SoundLengths} {g : Graph Rat}

/-- The filters of a clip make one stream of one. -/
theorem exists_soundLength_of_filters {clip : AudioClip Rat} {filters : List (Filter Rat)}
    (h : clip.filters sampleRate = .ok filters) (length : WithTop Rat) :
    ∃ length', Filter.soundLengthAll? s filters [length] = some length' := by
  have hnames : ∀ name ∈ soundFilterNames, name ≠ "anullsrc" ∧ name ≠ "amix" := by decide
  refine Filter.exists_soundLengthAll? s (fun f hf => hnames f.name ?_) length
  exact (clip.meets_filterNames sampleRate).of_eq_ok h f hf

/-- The stream of a clip has a length. -/
theorem IsClipChain.exists_lasts {clip : AudioClip Rat} {c : Chain Rat}
    (h : IsClipChain sampleRate clip c) (hinput : (streamInput? clip.input).isSome)
    (hc : c ∈ g.chains) {label : String} (hlabel : label ∈ c.outputs) (hplain : isPlain label) :
    ∃ length, g.Lasts s label length := by
  obtain ⟨length, hlength⟩ := exists_soundLength_of_filters (s := s) h.filters (s.media clip.input)
  refine ⟨length, .chain (fun l => s.media l) hc hlabel hplain (fun l hl => ?_) ?_⟩
  · rw [h.inputs, List.mem_singleton] at hl
    exact .input (hl ▸ hinput)
  · rw [h.inputs]
    exact hlength

/-- The streams of tracks have lengths. -/
theorem MixRun.exists_lasts {tracks : List (AudioTrack Rat)} {cs : List (Chain Rat)}
    {labels : List String} (h : MixRun sampleRate tracks cs labels)
    (hinputs : ∀ clip ∈ tracks.flatMap (·.clips), (streamInput? clip.input).isSome)
    (hchains : ∀ c ∈ cs, c ∈ g.chains ∧ ∀ label ∈ c.outputs, isPlain label) :
    ∀ label ∈ labels, ∃ length, g.Lasts s label length := by
  induction h with
  | nil => exact fun _ hl => absurd hl List.not_mem_nil
  | skip _ _ ih =>
    rw [List.flatMap_cons, List.forall_mem_append] at hinputs
    exact ih hinputs.2 hchains
  | single hchain houtput _ ih =>
    rw [List.flatMap_cons, List.forall_mem_append] at hinputs
    obtain ⟨⟨hc, hplain⟩, hds⟩ := List.forall_mem_cons.mp hchains
    refine List.forall_mem_cons.mpr ⟨?_, ih hinputs.2 hds⟩
    obtain ⟨clip, hinput, hclip⟩ := exists_clip_of_forall₂ hinputs.1 hchain _ List.mem_cons_self
    have hlabel := houtput ▸ List.mem_singleton_self _
    exact hclip.exists_lasts hinput hc hlabel (hplain _ hlabel)
  | @mix t ts cs ds label labels hclips hlength _ ih =>
    rw [List.flatMap_cons, List.forall_mem_append] at hinputs
    obtain ⟨hcs, hrest⟩ := List.forall_mem_append.mp hchains
    obtain ⟨⟨hmix, hplain⟩, hds⟩ := List.forall_mem_cons.mp hrest
    refine List.forall_mem_cons.mpr ⟨?_, ih hinputs.2 hds⟩
    have hstreams : ∀ l ∈ cs.flatMap (·.outputs), ∃ length, g.Lasts s l length := by
      intro l hl
      obtain ⟨c, hc, hl⟩ := List.mem_flatMap.mp hl
      obtain ⟨clip, hinput, hclip⟩ := exists_clip_of_forall₂ hinputs.1 hclips c hc
      exact hclip.exists_lasts hinput (hcs c hc).1 hl ((hcs c hc).2 l hl)
    choose! lengths hlengths using hstreams
    have hne : (cs.flatMap (·.outputs)).map lengths ≠ [] := by
      rw [ne_eq, List.map_eq_nil_iff, ← List.length_eq_zero_iff,
        ← length_outputs_of_isClipChain hclips]
      omega
    obtain ⟨length, hlength⟩ := Filter.exists_soundLengthAll?_mixLongest s cs.length hne
    exact ⟨length, .chain lengths hmix (List.mem_singleton_self label)
      (hplain label (List.mem_singleton_self label)) hlengths hlength⟩

/-- **The sound lasts as long as the output**, in each of the three shapes. -/
theorem SoundChains.lasts_iff {tracks : List (AudioTrack Rat)} {durationMs : Rat}
    {new : List (Chain Rat)} (h : SoundChains sampleRate tracks durationMs new)
    (hduration : 0 ≤ durationMs)
    (hinputs : ∀ clip ∈ tracks.flatMap (·.clips), (streamInput? clip.input).isSome)
    (hchains : ∀ c ∈ new, c ∈ g.chains ∧ ∀ label ∈ c.outputs, isPlain label)
    (honce : ∀ c ∈ new, ∀ label ∈ c.outputs, g.produced.count label = 1)
    {length : WithTop Rat} : g.Lasts s audioOutput length ↔ length = durationMs := by
  have hplain : isPlain audioOutput := by decide
  cases h with
  | silent _ =>
    obtain ⟨⟨hc, -⟩, -⟩ := List.forall_mem_cons.mp hchains
    have hout := honce _ (List.mem_singleton_self _) audioOutput (List.mem_singleton_self _)
    exact Graph.lasts_silence_iff hout hplain hc hduration
  | @single clip filters hclips hfilters =>
    obtain ⟨⟨hc, -⟩, -⟩ := List.forall_mem_cons.mp hchains
    have hout := honce _ (List.mem_singleton_self _) audioOutput (List.mem_singleton_self _)
    have hinput := hinputs clip (by simp [hclips])
    exact Graph.lasts_padded_iff hout hplain hc hduration hinput
      (exists_soundLength_of_filters hfilters)
  | @mixed cs labels bed hrun =>
    obtain ⟨hcs, hrest⟩ := List.forall_mem_append.mp hchains
    obtain ⟨⟨hbed, hbedPlain⟩, hrest⟩ := List.forall_mem_cons.mp hrest
    obtain ⟨⟨hmix, -⟩, -⟩ := List.forall_mem_cons.mp hrest
    obtain ⟨-, honce⟩ := List.forall_mem_append.mp honce
    obtain ⟨hbedOnce, honce⟩ := List.forall_mem_cons.mp honce
    have hout := honce _ (List.mem_singleton_self _) audioOutput (List.mem_singleton_self _)
    -- the bed is the first stream of the mix, and lasts as long as the output
    rw [Graph.lasts_mixFirst_iff hout hplain hmix (hrun.exists_lasts hinputs hcs)]
    exact Graph.lasts_silence_iff (hbedOnce bed (List.mem_singleton_self bed))
      (hbedPlain bed (List.mem_singleton_self bed)) hbed hduration

end

/-! ### The sound as a mixdown -/

/-- Clips that play inputs play the first so many of them. -/
theorem exists_isBounded {clips : List (AudioClip α)}
    (h : ∀ clip ∈ clips, ∃ index, clip.input = streamLabel index "a") :
    ∃ inputCount, ∀ clip ∈ clips, clip.IsBounded inputCount := by
  induction clips with
  | nil => exact ⟨0, fun _ hclip => absurd hclip List.not_mem_nil⟩
  | cons clip clips ih =>
    obtain ⟨⟨index, hindex⟩, hclips⟩ := List.forall_mem_cons.mp h
    obtain ⟨inputCount, hbounded⟩ := ih hclips
    refine ⟨max (index + 1) inputCount, List.forall_mem_cons.mpr ⟨?_, fun c hc => ?_⟩⟩
    · exact ⟨index, Nat.lt_of_lt_of_le (Nat.lt_succ_self index) (Nat.le_max_left _ _), hindex⟩
    · exact (hbounded c hc).mono (Nat.le_max_right _ _)

theorem AudioClip.IsBounded.isSome_streamInput? {inputCount : Nat} {clip : AudioClip α}
    (h : clip.IsBounded inputCount) : (streamInput? clip.input).isSome := by
  obtain ⟨index, -, hinput⟩ := h
  rw [hinput, streamInput?_streamLabel index (.inr rfl)]
  rfl

/-- Chains of the sound that are wired, on top of chains that do not know their streams, are a
mixdown. -/
theorem SoundChains.isMixdown {sampleRate : Int} {tracks : List (AudioTrack Rat)}
    {durationMs : Rat} {before g : Graph Rat} {inputCount : Nat} {names : List String}
    (h : SoundChains sampleRate tracks durationMs g.chains)
    (hbounded : ∀ t ∈ tracks, ∀ clip ∈ t.clips, clip.IsBounded inputCount)
    (hwired : g.Wired inputCount names [audioOutput]) (hapart : g.IsApartFrom before.chains)
    (hduration : 0 ≤ durationMs) :
    IsMixdown sampleRate (tracks.flatMap (·.clips)) durationMs before (g.onto before.chains) := by
  have hinputs : ∀ clip ∈ tracks.flatMap (·.clips), (streamInput? clip.input).isSome := by
    intro clip hclip
    obtain ⟨t, ht, hclip⟩ := List.mem_flatMap.mp hclip
    exact (hbounded t ht clip hclip).isSome_streamInput?
  have hgiven : ∀ c ∈ g.chains, ∀ label ∈ c.outputs, label ∈ g.produced :=
    fun c hc label hlabel => List.mem_flatMap.mpr ⟨c, hc, hlabel⟩
  have honce : ∀ label ∈ g.produced, (g.onto before.chains).produced.count label = 1 := by
    intro label hlabel
    rw [hapart.count_produced hlabel, List.count_eq_one_of_mem hwired.nodup hlabel]
  have hout : audioOutput ∈ g.produced := hwired.mem_produced_of_live (List.mem_singleton_self _)
  refine ⟨?_, honce audioOutput hout, fun s length => ?_, ?_⟩
  · obtain ⟨heard, hheard, hplays⟩ := h.exists_plays hbounded
    refine ⟨g.chains, heard, rfl, hheard, ?_⟩
    have hmem := (List.forall₂_and_left _ _).mpr
      ⟨fun c (hc : c ∈ heard) => hheard.subset hc, hplays.flip⟩
    refine hmem.flip.imp fun clip c hc => ?_
    obtain ⟨label, hlabel⟩ := h.exists_output hinputs c hc.1
    have hproduced := hgiven c hc.1 label (by rw [hlabel]; exact List.mem_singleton_self label)
    refine ⟨hc.2, ⟨label, hlabel, hwired.existsUnique_isPath (h.exists_output hinputs) hapart
      hproduced⟩, fun l hl path hpath n hn => ?_⟩
    obtain ⟨link, hlink, hvia, hplain⟩ := hapart.via_mem_of_isPath (hgiven c hc.1 l hl) hpath n hn
    exact ⟨link, hlink, h.isPlainMix hinputs link.via hvia hplain⟩
  · refine h.lasts_iff hduration hinputs (fun c hc => ⟨Graph.mem_chains_onto.mpr (.inr hc), ?_⟩)
      fun c hc label hlabel => honce label (hgiven c hc label hlabel)
    intro label hlabel
    rw [isPlain, hwired.plain label (hgiven c hc label hlabel)]
    rfl
  · intro c hc d hd hpad hmix hreach
    -- two chains that meet are both new or both old, and the new ones do not both pad and mix
    have hparts : (c ∈ before.chains ∧ d ∈ before.chains) ∨ (c ∈ g.chains ∧ d ∈ g.chains) := by
      obtain hreach | hreach := hreach
      · exact hwired.reaches_onto hapart hc hreach
      · exact (hwired.reaches_onto hapart hd hreach).imp And.symm And.symm
    refine hparts.resolve_right fun hnew => ?_
    obtain hnone | hnone := h.not_uses_apad_or_amix hinputs
    · exact hnone c hnew.1 hpad
    · exact hnone d hnew.2 hmix

/-- **The sound is a mixdown.** Sound can be added to every graph with room for it, whatever the
tracks are, and the result has one stream `aout`, which lasts as long as the output; every clip
reaches it by one path, through mixes only; and no padded stream is mixed, nor a mix padded. -/
theorem buildAudio_isMixdown (sampleRate : Int) {g : Graph Rat} (hroom : g.HasRoom)
    {tracks : List (AudioTrack Rat)}
    (hinputs : ∀ clip ∈ tracks.flatMap (·.clips), ∃ index, clip.input = streamLabel index "a")
    (hspeeds : ∀ clip ∈ tracks.flatMap (·.clips), IsSupported clip.speed) {durationMs : Rat}
    (hduration : 0 < durationMs) :
    ∃ g', buildAudio sampleRate g tracks durationMs = .ok g' ∧
      IsMixdown sampleRate (tracks.flatMap (·.clips)) durationMs g g' := by
  have hmem : ∀ t ∈ tracks, ∀ clip ∈ t.clips, clip ∈ tracks.flatMap (·.clips) :=
    fun t ht clip hclip => List.mem_flatMap.mpr ⟨t, ht, hclip⟩
  obtain ⟨inputCount, hbounded⟩ := exists_isBounded hinputs
  have hclips := fun t ht clip hclip => hbounded clip (hmem t ht clip hclip)
  -- the sound is built without the chains that are there, and then laid on top of them
  have hbare : (⟨[], g.given⟩ : Graph Rat).Wired inputCount [] [] :=
    { Graph.Wired.empty inputCount with hasLabel := fun _ h => absurd h List.not_mem_nil }
  obtain ⟨built, hbuilt⟩ := succeeds_buildAudio sampleRate hbare hclips
    (fun t ht clip hclip => hspeeds clip (hmem t ht clip hclip)) durationMs
  have hwired := (meets_buildAudio_wired sampleRate hclips durationMs List.not_mem_nil
    hbare).of_eq_ok hbuilt
  have hshape := (meets_buildAudio_chains rfl
    (fun clip hclip => (hbounded clip hclip).isSome_streamInput?) durationMs).of_eq_ok hbuilt
  have hapart : built.IsApartFrom g.chains := by
    intro c hc label hlabel hgiven
    have hnew := (meets_buildAudio_produced sampleRate _ tracks durationMs).of_eq_ok hbuilt label
      hgiven
    obtain hout | hold | hgive := hnew
    · exact (hroom c hc label hlabel).1 hout
    · exact List.not_mem_nil hold
    · exact (hroom c hc label hlabel).2 hgive
  have honto := buildAudio_onto (g := ⟨[], g.given⟩) rfl
    (fun c hc label hlabel => (hroom c hc label hlabel).2) hbuilt
  have hg : (⟨[], g.given⟩ : Graph Rat).onto g.chains = g := by simp [Graph.onto]
  rw [hg] at honto
  exact ⟨_, honto, hshape.isMixdown hclips hwired hapart hduration.le⟩

/-- A track with two clips, one without and one with a single clip are added to a picture. -/
theorem picture_with_three_clips_isMixdown :
    let picture : Graph Rat := { chains := [⟨["0:v"], [{ name := "null" }], [videoOutput]⟩] }
    let clip (id : String) (index : Nat) (startMs speed : Rat) : AudioClip Rat :=
      { elementId := id, input := streamLabel index "a", sourceStartMs := 0
        sourceEndMs := 1000 * speed, startMs := startMs, durationMs := 1000, speed := speed
        volume := 1, fadeInMs := 0, fadeOutMs := 250 }
    let tracks : List (AudioTrack Rat) := [⟨"music", [clip "a" 0 0 1, clip "b" 0 1500 4]⟩,
      ⟨"words", []⟩, ⟨"noise", [clip "c" 1 500 (1 / 2)]⟩]
    ∃ g, buildAudio 48000 picture tracks 4500 = .ok g ∧
      IsMixdown 48000 (tracks.flatMap (·.clips)) 4500 picture g := by
  intro picture clip tracks
  have hclips : ∀ c ∈ tracks.flatMap (·.clips),
      (∃ index, c.input = streamLabel index "a") ∧ IsSupported c.speed := by
    intro c hc
    simp only [tracks, List.flatMap_cons, List.flatMap_nil, List.append_nil, List.cons_append,
      List.nil_append, List.mem_cons, List.not_mem_nil, or_false] at hc
    rcases hc with rfl | rfl | rfl
    · exact ⟨⟨0, rfl⟩, by decide +kernel, by decide +kernel⟩
    · exact ⟨⟨0, rfl⟩, by decide +kernel, by decide +kernel⟩
    · exact ⟨⟨1, rfl⟩, by decide +kernel, by decide +kernel⟩
  have hroom : picture.HasRoom := by
    intro c hc label hlabel
    obtain rfl := List.mem_singleton.mp hc
    obtain rfl | rfl := List.mem_pair.mp hlabel
    · exact ⟨by decide, Graph.not_canGive_of_isStem (by decide)⟩
    · exact ⟨by decide, Graph.not_canGive_of_isStem (by decide)⟩
  exact buildAudio_isMixdown 48000 hroom (fun c hc => (hclips c hc).1)
    (fun c hc => (hclips c hc).2) (by norm_num)

end TimelineExport
