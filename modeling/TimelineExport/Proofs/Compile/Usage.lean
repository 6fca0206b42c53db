import TimelineExport.Proofs.Compile.Chains
import TimelineExport.Proofs.Compile.Total

/-!
# How often a program uses its elements

The pictures of a timeline and its sounds are grouped by track, and the groups are walked in the
order of a list of tracks. Such a walk meets each member as often as its key is listed
(`walk_cons_perm`). Validation sees to it that the track of every element is listed, but not that
it is listed once. So a program has one segment for each picture and one chain for each sound
(`UsesOnce`) exactly if no track that carries one of them is listed twice (`usesOnce_iff`).
-/

namespace TimelineExport

variable {α : Type}

/-! ### Walks -/

section
variable {β κ : Type} [DecidableEq κ] {key : β → κ} {order : List κ}

/-- The members of a list by their keys, in an order of the keys. -/
def walk (key : β → κ) (order : List κ) (xs : List β) : List β :=
  order.flatMap fun k => xs.filter (key · = k)

@[simp]
theorem walk_nil (key : β → κ) (order : List κ) : walk key order [] = [] :=
  List.flatMap_eq_nil_iff.mpr fun _ _ => rfl

/-- A walk meets a member as often as its key is listed. -/
theorem walk_cons_perm (key : β → κ) (order : List κ) (x : β) (xs : List β) :
    (walk key order (x :: xs)).Perm
      (List.replicate (order.count (key x)) x ++ walk key order xs) := by
  induction order with
  | nil => exact .nil
  | cons k order ih =>
    have hwalk : (walk key (k :: order) (x :: xs)).Perm ((x :: xs).filter (key · = k) ++
        (List.replicate (order.count (key x)) x ++ walk key order xs)) := ih.append_left _
    refine hwalk.trans ?_
    -- a key of the order that is the member's own meets it once more
    by_cases hkey : key x = k
    · rw [List.filter_cons_of_pos (by simpa using hkey), List.count_cons, if_pos (by simp [hkey]),
        List.replicate_succ]
      exact (List.perm_append_comm_assoc _ _ _).cons x
    · rw [List.filter_cons_of_neg (by simpa using hkey), List.count_cons,
        if_neg (by simpa using fun h => hkey h.symm)]
      exact List.perm_append_comm_assoc _ _ _

theorem length_walk_cons (key : β → κ) (order : List κ) (x : β) (xs : List β) :
    (walk key order (x :: xs)).length = order.count (key x) + (walk key order xs).length := by
  rw [(walk_cons_perm key order x xs).length_eq, List.length_append, List.length_replicate]

/-- A walk in an order that lists every key once meets every member once. -/
theorem walk_perm {xs : List β} (h : ∀ x ∈ xs, order.count (key x) = 1) :
    (walk key order xs).Perm xs := by
  induction xs with
  | nil => rw [walk_nil]
  | cons x xs ih =>
    obtain ⟨hx, hxs⟩ := List.forall_mem_cons.mp h
    have hcons := walk_cons_perm key order x xs
    rw [hx, List.replicate_one, List.singleton_append] at hcons
    exact hcons.trans ((ih hxs).cons x)

theorem length_le_length_walk {xs : List β} (h : ∀ x ∈ xs, 1 ≤ order.count (key x)) :
    xs.length ≤ (walk key order xs).length := by
  induction xs with
  | nil => exact Nat.zero_le _
  | cons x xs ih =>
    obtain ⟨hx, hxs⟩ := List.forall_mem_cons.mp h
    rw [length_walk_cons, List.length_cons]
    have hle := ih hxs
    omega

/-- A walk that meets no more members than there are has an order that lists every key once. -/
theorem count_eq_one_of_length_walk {xs : List β} (h : ∀ x ∈ xs, 1 ≤ order.count (key x))
    (hlength : (walk key order xs).length = xs.length) :
    ∀ x ∈ xs, order.count (key x) = 1 := by
  induction xs with
  | nil => exact fun _ hx => absurd hx List.not_mem_nil
  | cons x xs ih =>
    obtain ⟨hx, hxs⟩ := List.forall_mem_cons.mp h
    -- the walk of the rest is no shorter than the rest, so the first key has room for one only
    have hle := length_le_length_walk hxs
    rw [length_walk_cons, List.length_cons] at hlength
    exact List.forall_mem_cons.mpr ⟨by omega, ih hxs (by omega)⟩

/-- What is related to a walk is related to the members, each once, exactly if the order lists
their keys once. -/
theorem exists_perm_forall₂_iff {γ : Type} {R : β → γ → Prop} {xs ys : List β} {cs : List γ}
    (hlisted : ∀ x ∈ xs, key x ∈ order) (hys : ys.Perm (walk key order xs))
    (hcs : List.Forall₂ R ys cs) :
    (∃ zs : List β, zs.Perm xs ∧ List.Forall₂ R zs cs) ↔
      ∀ x ∈ xs, order.count (key x) = 1 := by
  constructor
  · rintro ⟨zs, hperm, hzs⟩
    have hlength : (walk key order xs).length = xs.length := by
      rw [← hys.length_eq, hcs.length_eq, ← hzs.length_eq, hperm.length_eq]
    exact count_eq_one_of_length_walk (fun x hx => List.one_le_count_iff.mpr (hlisted x hx)) hlength
  · exact fun h => ⟨ys, hys.trans (walk_perm h), hcs⟩

end

/-! ### Chains that play an input -/

/-- Whether a chain works on one stream, that of a kind of one of the first inputs. -/
def Chain.plays (count : Nat) (kind : String) (c : Chain α) : Bool :=
  (List.range count).any fun index => c.inputs == [streamLabel index kind]

theorem Chain.plays_eq_true_iff {count : Nat} {kind : String} {c : Chain α} :
    c.plays count kind = true ↔ ∃ index < count, c.inputs = [streamLabel index kind] := by
  simp [plays]

theorem Chain.plays_eq_false {count : Nat} {kind : String} {c : Chain α}
    (h : ∀ index < count, c.inputs ≠ [streamLabel index kind]) : c.plays count kind = false :=
  Bool.eq_false_iff.mpr fun hplays => by
    obtain ⟨index, hindex, hinputs⟩ := plays_eq_true_iff.mp hplays
    exact h index hindex hinputs

/-- A chain that joins streams, or takes none, plays no input. -/
theorem Chain.plays_eq_false_of_length {count : Nat} {kind : String} {c : Chain α}
    (h : c.inputs.length ≠ 1) : c.plays count kind = false :=
  plays_eq_false fun index _ hinputs => h (by rw [hinputs, List.length_singleton])

/-- A chain that joins streams does not count among those that play an input. -/
theorem filter_plays_join {c : Chain α} (h : c.inputs.length ≠ 1) (count : Nat) (kind : String)
    (cs ds : List (Chain α)) :
    (cs ++ c :: ds).filter (·.plays count kind) =
      cs.filter (·.plays count kind) ++ ds.filter (·.plays count kind) := by
  rw [List.filter_append, List.filter_cons_of_neg]
  rw [Chain.plays_eq_false_of_length h]
  exact Bool.false_ne_true

/-- Finishing a chain does not change what it plays. -/
theorem Extended.filter_plays {cs ds : List (Chain α)} (h : Extended cs ds) (count : Nat)
    (kind : String) :
    Extended (cs.filter (·.plays count kind)) (ds.filter (·.plays count kind)) :=
  List.rel_filter (fun c d hcd => by simp [Chain.plays, hcd.inputs]) h

theorem streamLabel_inj {index index' : Nat} {kind : String} (hkind : kind = "v" ∨ kind = "a")
    (h : streamLabel index kind = streamLabel index' kind) : index = index' := by
  have hinput := streamInput?_streamLabel index hkind
  rw [h, streamInput?_streamLabel index' hkind] at hinput
  exact (Option.some.inj hinput).symm

/-- The picture and the sound of inputs are different streams. -/
theorem streamLabel_picture_ne_sound (index index' : Nat) :
    streamLabel index "v" ≠ streamLabel index' "a" := by
  intro h
  have hlast := congrArg (fun label : String => label.toList.getLast?) h
  simp [streamLabel] at hlast

/-- The segments of a program. -/
def Program.segments (p : Program α) : List (Chain α) :=
  p.graph.chains.filter (·.plays p.sources.length "v")

/-- The chains of a program's clips with sound. -/
def Program.clipChains (p : Program α) : List (Chain α) :=
  p.graph.chains.filter (·.plays p.sources.length "a")

/-- The background is no picture of an element, and no sound. -/
theorem plays_baseChain {index : Nat} {kind : String} (hkind : kind = "v" ∨ kind = "a") :
    (baseChain index : Chain α).plays index kind = false := by
  refine Chain.plays_eq_false fun index' hindex' hinputs => ?_
  have heq := List.singleton_inj.mp hinputs
  obtain rfl | rfl := hkind
  · exact hindex'.ne' (streamLabel_inj (.inl rfl) heq)
  · exact streamLabel_picture_ne_sound _ _ heq

theorem filter_plays_overlayChains (count : Nat) (kind below layer : String)
    (overlayIndex : Option Nat) :
    (overlayChains below layer overlayIndex : List (Chain α)).filter (·.plays count kind) = [] := by
  refine List.filter_eq_nil_iff.mpr fun c hc => ?_
  obtain ⟨index, -, rfl⟩ := Option.map_eq_some_iff.mp (Option.mem_toList.mp hc)
  rw [Bool.not_eq_true]
  exact Chain.plays_eq_false_of_length (by simp)

theorem SoundEnd.filter_plays {sampleRate : Int} {durationMs : α} {labels : List String}
    {cs : List (Chain α)} (h : SoundEnd sampleRate durationMs labels cs) (count : Nat)
    (kind : String) : cs.filter (·.plays count kind) = [] := by
  refine List.filter_eq_nil_iff.mpr fun c hc => ?_
  rw [Bool.not_eq_true]
  refine Chain.plays_eq_false_of_length ?_
  cases h with
  | silent => simp_all
  | single label => simp_all
  | mixed bed hne =>
    rcases List.mem_pair.mp hc with rfl | rfl
    · simp
    · simpa using hne

/-! ### The chains of elements -/

section
variable [Scalar α]

/-- A chain that is a segment of an element: it plays the element's source through the filters of
a segment, with some lead-in. -/
def IsSegmentOf (settings : ExportSettings) (sources : List String) (e : Element α)
    (c : Chain α) : Prop :=
  ∃ index gapMs filters, sourceIndex sources e = .ok index ∧
    c.inputs = [streamLabel index "v"] ∧ e.segmentFilters settings gapMs = .ok filters ∧
    filters <+: c.filters

/-- A chain that is the sound of an element. -/
def IsSoundOf (sampleRate : Int) (sources : List String) (e : Element α) (c : Chain α) : Prop :=
  ∃ clip filters, audioClip sources e = .ok clip ∧ c.inputs = [clip.input] ∧
    clip.filters sampleRate = .ok filters ∧ filters <+: c.filters

theorem IsSegmentOf.extends {settings : ExportSettings} {sources : List String} {e : Element α}
    {c d : Chain α} (h : IsSegmentOf settings sources e c) (hcd : c.Extends d) :
    IsSegmentOf settings sources e d := by
  obtain ⟨index, gapMs, filters, hindex, hinputs, hfilters, hprefix⟩ := h
  exact ⟨index, gapMs, filters, hindex, hcd.inputs.trans hinputs, hfilters,
    hprefix.trans hcd.filters⟩

theorem IsSoundOf.extends {sampleRate : Int} {sources : List String} {e : Element α}
    {c d : Chain α} (h : IsSoundOf sampleRate sources e c) (hcd : c.Extends d) :
    IsSoundOf sampleRate sources e d := by
  obtain ⟨clip, filters, hclip, hinputs, hfilters, hprefix⟩ := h
  exact ⟨clip, filters, hclip, hcd.inputs.trans hinputs, hfilters, hprefix.trans hcd.filters⟩

variable {settings : ExportSettings} {sampleRate : Int} {sources : List String}

theorem IsSegmentOf.plays {e : Element α} {c : Chain α} (h : IsSegmentOf settings sources e c) :
    c.plays sources.length "v" = true := by
  obtain ⟨index, -, -, hindex, hinputs, -⟩ := h
  exact Chain.plays_eq_true_iff.mpr
    ⟨index, (meets_sourceIndex sources e).of_eq_ok hindex, hinputs⟩

theorem IsSegmentOf.not_plays_sound {e : Element α} {c : Chain α}
    (h : IsSegmentOf settings sources e c) (count : Nat) : c.plays count "a" = false := by
  obtain ⟨index, -, -, -, hinputs, -⟩ := h
  refine Chain.plays_eq_false fun index' _ hinputs' => ?_
  exact streamLabel_picture_ne_sound _ _ (List.singleton_inj.mp (hinputs.symm.trans hinputs'))

theorem SegmentRun.isSegmentOf {previousEnd : α} {es : List (Element α)} {cs : List (Chain α)}
    (h : SegmentRun settings sources previousEnd es cs) :
    List.Forall₂ (IsSegmentOf settings sources) es cs := by
  induction h with
  | nil => exact .nil
  | cons hindex hfilters _ ih =>
    exact .cons ⟨_, _, _, hindex, rfl, hfilters, List.prefix_rfl⟩ ih

/-- Of the chains of a track, the segments play a picture and none plays a sound. -/
theorem filter_plays_segments {es : List (Element α)} {cs : List (Chain α)}
    (h : List.Forall₂ (IsSegmentOf settings sources) es cs) :
    cs.filter (·.plays sources.length "v") = cs ∧ cs.filter (·.plays sources.length "a") = [] := by
  constructor
  · exact List.filter_eq_self.mpr (forall_of_forall₂ h fun _ _ h => h.plays)
  · refine List.filter_eq_nil_iff.mpr (forall_of_forall₂ h fun _ _ h => ?_)
    rw [h.not_plays_sound]
    exact Bool.false_ne_true

theorem TrackRun.filter_plays {clips : List (Element α)} {cs : List (Chain α)} {label : String}
    (h : TrackRun settings sources clips cs label) :
    List.Forall₂ (IsSegmentOf settings sources) (sortByStart clips)
        (cs.filter (·.plays sources.length "v")) ∧
      cs.filter (·.plays sources.length "a") = [] := by
  cases h with
  | single hsegments _ =>
    obtain ⟨hpictures, hsounds⟩ := filter_plays_segments hsegments.isSegmentOf
    rw [hpictures]
    exact ⟨hsegments.isSegmentOf, hsounds⟩
  | concat hsegments hlength =>
    obtain ⟨hpictures, hsounds⟩ := filter_plays_segments hsegments.isSegmentOf
    rw [hsegments.length_outputs] at hlength
    rw [filter_plays_join hlength, filter_plays_join hlength, hpictures, hsounds, List.filter_nil,
      List.filter_nil, List.append_nil]
    exact ⟨hsegments.isSegmentOf, rfl⟩

/-- The pictures of a program in the order in which it shows them: by track, and on a track by
their starts. -/
def shownPictures (pictures : List (Element α)) (order : List String) : List (Element α) :=
  order.flatMap fun track => sortByStart (pictures.filter (·.trackId = track))

theorem shownPictures_perm (pictures : List (Element α)) (order : List String) :
    (shownPictures pictures order).Perm (walk (·.trackId) order pictures) :=
  List.Perm.flatMap_left order fun _ _ => sortByStart_perm _

/-- Of the chains of all tracks, those that play a picture are the segments of the pictures, and
none plays a sound. -/
theorem LayerRun.filter_plays {pictures : List (Element α)} {below top : String}
    {tracks : List String} {cs : List (Chain α)}
    (h : LayerRun settings sources pictures below tracks cs top) :
    List.Forall₂ (IsSegmentOf settings sources) (shownPictures pictures tracks)
        (cs.filter (·.plays sources.length "v")) ∧
      cs.filter (·.plays sources.length "a") = [] := by
  induction h with
  | nil => exact ⟨.nil, rfl⟩
  | skip hempty _ ih =>
    rw [shownPictures, List.flatMap_cons, hempty, sortByStart, List.mergeSort_nil]
    exact ih
  | @cons below label layer top track tracks cs ds _ htrack _ ih =>
    have hlayer : ([below, label] : List String).length ≠ 1 := by simp
    obtain ⟨hpictures, hsounds⟩ := htrack.filter_plays
    rw [filter_plays_join hlayer, filter_plays_join hlayer, hsounds, ih.2]
    exact ⟨List.rel_append hpictures ih.1, rfl⟩

/-- Of the chains of clips with sound, each plays a sound and none a picture. -/
theorem filter_plays_clips {clips : List (AudioClip α)} {cs : List (Chain α)} {count : Nat}
    (hbounded : ∀ clip ∈ clips, clip.IsBounded count)
    (h : List.Forall₂ (IsClipChain sampleRate) clips cs) :
    cs.filter (·.plays count "a") = cs ∧ cs.filter (·.plays count "v") = [] := by
  have hinputs : ∀ c ∈ cs, ∃ index < count, c.inputs = [streamLabel index "a"] := by
    induction h with
    | nil => exact fun _ hc => absurd hc List.not_mem_nil
    | cons hc _ ih =>
      obtain ⟨⟨index, hindex, hinput⟩, hrest⟩ := List.forall_mem_cons.mp hbounded
      exact List.forall_mem_cons.mpr ⟨⟨index, hindex, by rw [hc.inputs, hinput]⟩, ih hrest⟩
  constructor
  · exact List.filter_eq_self.mpr fun c hc => Chain.plays_eq_true_iff.mpr (hinputs c hc)
  · refine List.filter_eq_nil_iff.mpr fun c hc => ?_
    obtain ⟨index, -, hlabel⟩ := hinputs c hc
    rw [Bool.not_eq_true]
    refine Chain.plays_eq_false fun index' _ hlabel' => ?_
    exact streamLabel_picture_ne_sound _ _ (List.singleton_inj.mp (hlabel'.symm.trans hlabel))

/-- Of the chains of the sound, those that play a sound are the clips', and none plays a
picture. -/
theorem MixRun.filter_plays {tracks : List (AudioTrack α)} {cs : List (Chain α)}
    {labels : List String} {count : Nat}
    (hbounded : ∀ t ∈ tracks, ∀ clip ∈ t.clips, clip.IsBounded count)
    (h : MixRun sampleRate tracks cs labels) :
    List.Forall₂ (IsClipChain sampleRate) (tracks.flatMap (·.clips))
        (cs.filter (·.plays count "a")) ∧
      cs.filter (·.plays count "v") = [] := by
  induction h with
  | nil => exact ⟨.nil, rfl⟩
  | skip hempty _ ih =>
    rw [List.flatMap_cons, hempty, List.nil_append]
    exact ih fun u hu => hbounded u (List.mem_cons_of_mem _ hu)
  | @single t ts c ds label labels hclips _ _ ih =>
    obtain ⟨hsounds, hpictures⟩ := filter_plays_clips (hbounded t List.mem_cons_self) hclips
    obtain ⟨ihsounds, ihpictures⟩ := ih fun u hu => hbounded u (List.mem_cons_of_mem _ hu)
    have hcons : c :: ds = [c] ++ ds := rfl
    rw [hcons, List.filter_append, List.filter_append, hsounds, hpictures, ihpictures]
    exact ⟨List.rel_append hclips ihsounds, rfl⟩
  | @mix t ts cs ds label labels hclips hlength _ ih =>
    obtain ⟨hsounds, hpictures⟩ := filter_plays_clips (hbounded t List.mem_cons_self) hclips
    obtain ⟨ihsounds, ihpictures⟩ := ih fun u hu => hbounded u (List.mem_cons_of_mem _ hu)
    have hmix : (cs.flatMap (·.outputs)).length ≠ 1 := by
      rw [← length_outputs_of_isClipChain hclips]
      omega
    rw [filter_plays_join hmix, filter_plays_join hmix, hsounds, hpictures, ihpictures]
    exact ⟨List.rel_append hclips ihsounds, rfl⟩

/-! ### Tracks with sound -/

/-- The clips of the listed tracks with sound, in the order of the list. -/
theorem flatMap_clips_of_order {α : Type} (clips : List (String × AudioClip α))
    (order : List String) :
    (order.filterMap fun id => ((groupBy (·.1) clips).map fun p =>
        (⟨p.1, p.2.map (·.2)⟩ : AudioTrack α)).find? (·.id = id)).flatMap (·.clips) =
      (walk (·.1) order clips).map (·.2) := by
  induction order with
  | nil => rfl
  | cons id order ih =>
    have hwalk : (walk (·.1) (id :: order) clips).map (·.2) =
        (clips.filter (·.1 = id)).map (·.2) ++ (walk (·.1) order clips).map (·.2) := by
      rw [walk, List.flatMap_cons, List.map_append]
      rfl
    rw [hwalk, ← ih, List.filterMap_cons]
    split
    · next hnone =>
      have hnil : clips.filter (·.1 = id) = [] := by
        refine List.filter_eq_nil_iff.mpr fun p hp hid => ?_
        have hgroup : (p.1, clips.filter fun x => x.1 == p.1) ∈ groupBy (·.1) clips :=
          mem_groupBy_iff.mpr ⟨⟨p, hp, rfl⟩, rfl⟩
        exact List.find?_eq_none.mp hnone _ (List.mem_map_of_mem hgroup) hid
      rw [hnil, List.map_nil, List.nil_append]
    · next t hsome =>
      obtain ⟨⟨k, group⟩, hgroup, rfl⟩ := List.mem_map.mp (List.mem_of_find?_eq_some hsome)
      have hid : k = id := by simpa using List.find?_some hsome
      have hgroup' : group = clips.filter fun x => x.1 == k := (mem_groupBy_iff.mp hgroup).2
      rw [List.flatMap_cons, hgroup', hid]
      simp only [beq_eq_decide]

/-- The clips of the tracks with sound that an order does not list. -/
theorem flatMap_clips_of_unlisted {α : Type} (clips : List (String × AudioClip α))
    (order : List String) :
    ((((groupBy (·.1) clips).map fun p => (⟨p.1, p.2.map (·.2)⟩ : AudioTrack α)).filter
        fun t => !order.contains t.id).flatMap (·.clips)) =
      (walk (·.1) (((clips.map (·.1)).eraseDups).filter fun id => !order.contains id) clips).map
        (·.2) := by
  simp only [groupBy, walk, List.map_map, List.filter_map, List.flatMap_map, List.map_flatMap,
    Function.comp_def, beq_eq_decide]

/-- The tracks of sounds that an order does not list, in the order of the sounds. -/
def unlistedTracks (sounds : List (Element α)) (order : List String) : List String :=
  ((sounds.map (·.trackId)).eraseDups).filter fun id => !order.contains id

/-- Sounds in the order in which a program plays them: by track, those of unlisted tracks last. -/
def heardSounds (sounds : List (Element α)) (order : List String) : List (Element α) :=
  walk (·.trackId) (order ++ unlistedTracks sounds order) sounds

omit [Scalar α] in
/-- If all tracks are listed, sounds are played as a walk meets them. -/
theorem heardSounds_of_listed {sounds : List (Element α)} {order : List String}
    (hlisted : ∀ e ∈ sounds, e.trackId ∈ order) :
    heardSounds sounds order = walk (·.trackId) order sounds := by
  have hnone : unlistedTracks sounds order = [] := by
    refine List.filter_eq_nil_iff.mpr fun id hid => ?_
    obtain ⟨e, he, rfl⟩ := List.mem_map.mp (List.mem_eraseDups.mp hid)
    simpa using hlisted e he
  rw [heardSounds, hnone, List.append_nil]

/-- **The clips of the tracks with sound** are those of the elements that are heard, in the order in
which a program plays them. -/
theorem forall₂_clips_of_audioTracks {es : List (Element α)} {order : List String}
    {audioSources : List (String × Bool)} {ts : List (AudioTrack α)}
    (h : audioTracks es order sources audioSources = .ok ts) :
    List.Forall₂ (fun e clip => audioClip sources e = .ok clip)
      (heardSounds (es.filter (isAudible audioSources)) order) (ts.flatMap (·.clips)) := by
  obtain ⟨clips, hclips, h⟩ := bind_eq_ok.mp h
  cases h
  have hpairs : List.Forall₂ (fun e p => p.1 = e.trackId ∧ audioClip sources e = .ok p.2)
      (es.filter (isAudible audioSources)) clips := by
    have hpair : ∀ e ∈ es.filter (isAudible audioSources),
        Meets (do return (e.trackId, ← audioClip sources e))
          (fun p => p.1 = e.trackId ∧ audioClip sources e = .ok p.2) fun _ => True :=
      fun e _ => (Meets.trivially _).bind fun clip hclip _ => ⟨rfl, hclip⟩
    exact (Meets.mapM hpair).of_eq_ok hclips
  have htracks : clips.map (·.1) = (es.filter (isAudible audioSources)).map (·.trackId) := by
    refine List.forall₂_eq_eq_eq ▸ List.forall₂_map_left_iff.mpr
      (List.forall₂_map_right_iff.mpr (hpairs.flip.imp fun _ _ hep => hep.1))
  have hwalk (order : List String) :
      List.Forall₂ (fun e p => p.1 = e.trackId ∧ audioClip sources e = .ok p.2)
        (walk (·.trackId) order (es.filter (isAudible audioSources)))
        (walk (·.1) order clips) := by
    refine List.rel_flatMap (List.forall₂_eq_eq_eq ▸ rfl : List.Forall₂ Eq order order)
      fun id _ hid => ?_
    subst hid
    exact List.rel_filter (fun e p hep => by simp [hep.1]) hpairs
  rw [List.flatMap_append, flatMap_clips_of_order, flatMap_clips_of_unlisted, htracks,
    ← List.map_append, List.forall₂_map_right_iff, heardSounds, walk, List.flatMap_append]
  exact (List.rel_append (hwalk _) (hwalk _)).imp fun _ _ hep => hep.2

/-! ### The program -/

/-- **A program uses its elements once**: its segments are those of the pictures, each of them
once, and its chains with sound are those of the elements that are heard, each of them once. -/
structure UsesOnce (settings : ExportSettings) (sampleRate : Int) (es : List (Element α))
    (audioSources : List (String × Bool)) (p : Program α) : Prop where
  pictures : ∃ xs : List (Element α), xs.Perm (es.filter (·.kind.isPicture)) ∧
    List.Forall₂ (IsSegmentOf settings p.sources) xs p.segments
  sounds : ∃ xs : List (Element α), xs.Perm (es.filter (isAudible audioSources)) ∧
    List.Forall₂ (IsSoundOf sampleRate p.sources) xs p.clipChains

/-- **The segments of a program** are those of the pictures that it shows, and its chains with sound
those of the elements that are heard. -/
theorem players_of_compile {es : List (Element α)} {tracks : List Track}
    {overlay : Option OverlaySequence} {duration : Option α}
    {audioSources : List (String × Bool)} {p : Program α}
    (h : compile settings sampleRate es tracks overlay duration audioSources = .ok p) :
    List.Forall₂ (IsSegmentOf settings p.sources)
        (shownPictures (es.filter (·.kind.isPicture)) (trackOrder tracks)) p.segments ∧
      List.Forall₂ (IsSoundOf sampleRate p.sources)
        (heardSounds (es.filter (isAudible audioSources)) (trackOrder tracks)) p.clipChains := by
  obtain ⟨-, layers, top, layer, video, sounds, audio, labels, finish, hlayers, hvideo, haudio,
    hsounds, hfinish, hfinishes⟩ := chains_of_compile h
  -- finishing keeps inputs, so what plays an input can be counted before anything was finished
  have hchains : Extended (baseChain p.sources.length :: layers ++
      overlayChains top layer p.overlayIndex ++ sounds ++ finish) p.graph.chains := by
    refine Extended.trans ?_ hfinishes.extended
    exact List.rel_append (List.rel_append hvideo.extended (Extended.refl _)) (Extended.refl _)
  have hbounded := (meets_audioTracks_bounded es _ _ audioSources).of_eq_ok haudio
  obtain ⟨hlayers, hlayers'⟩ := hlayers.filter_plays
  obtain ⟨hsounds, hsounds'⟩ := hsounds.filter_plays hbounded
  constructor
  · have hextended := hchains.filter_plays p.sources.length "v"
    simp only [List.filter_append, hfinish.filter_plays, filter_plays_overlayChains, hsounds',
      List.append_nil, List.cons_append, List.filter_cons, plays_baseChain (.inl rfl),
      Bool.false_eq_true, if_false] at hextended
    exact forall₂_comp (fun _ _ _ => IsSegmentOf.extends) hlayers hextended
  · have hextended := hchains.filter_plays p.sources.length "a"
    simp only [List.filter_append, hfinish.filter_plays, filter_plays_overlayChains, hlayers',
      List.append_nil, List.nil_append, List.cons_append, List.filter_cons,
      plays_baseChain (.inr rfl), Bool.false_eq_true, if_false] at hextended
    have hclips := forall₂_comp (T := IsSoundOf sampleRate p.sources)
      (fun e clip c hclip hc => ⟨clip, c.filters, hclip, hc.inputs, hc.filters, List.prefix_rfl⟩)
      (forall₂_clips_of_audioTracks haudio) hsounds
    exact forall₂_comp (fun _ _ _ => IsSoundOf.extends) hclips hextended

/-- If all tracks of elements are listed, the segments of a program are those of the pictures, and
its chains with sound those of the elements that are heard, as a walk of the tracks meets them. -/
theorem segments_of_compile {es : List (Element α)} {tracks : List Track}
    {overlay : Option OverlaySequence} {duration : Option α}
    {audioSources : List (String × Bool)} {p : Program α}
    (hlisted : ∀ e ∈ es, e.trackId ∈ trackOrder tracks)
    (h : compile settings sampleRate es tracks overlay duration audioSources = .ok p) :
    List.Forall₂ (IsSegmentOf settings p.sources)
        (shownPictures (es.filter (·.kind.isPicture)) (trackOrder tracks)) p.segments ∧
      List.Forall₂ (IsSoundOf sampleRate p.sources)
        (walk (·.trackId) (trackOrder tracks) (es.filter (isAudible audioSources)))
        p.clipChains := by
  rw [← heardSounds_of_listed fun e he => hlisted e (List.mem_of_mem_filter he)]
  exact players_of_compile h

/-- The order of the tracks lists an id as often as the tracks have it. -/
theorem count_trackOrder (tracks : List Track) (id : String) :
    (trackOrder tracks).count id = (tracks.map (·.id)).count id :=
  ((List.mergeSort_perm _ _).map _).count_eq id

theorem order_of_listed {α : Type} {es : List (Element α)} {tracks : List Track}
    (hlisted : ∀ e ∈ es, ∃ t ∈ tracks, t.id = e.trackId) :
    ∀ e ∈ es, e.trackId ∈ trackOrder tracks := by
  intro e he
  obtain ⟨t, ht, hid⟩ := hlisted e he
  rw [← List.one_le_count_iff, count_trackOrder, List.one_le_count_iff, ← hid]
  exact List.mem_map_of_mem ht

/-- A program of elements on listed tracks uses each of them once exactly if their tracks are
listed once. -/
theorem usesOnce_iff {es : List (Element α)} {tracks : List Track}
    {overlay : Option OverlaySequence} {duration : Option α}
    {audioSources : List (String × Bool)} {p : Program α}
    (hlisted : ∀ e ∈ es, ∃ t ∈ tracks, t.id = e.trackId)
    (h : compile settings sampleRate es tracks overlay duration audioSources = .ok p) :
    UsesOnce settings sampleRate es audioSources p ↔
      ∀ e ∈ es, e.kind.isPicture ∨ isAudible audioSources e →
        (tracks.map (·.id)).count e.trackId = 1 := by
  have horder := order_of_listed hlisted
  obtain ⟨hsegments, hsounds⟩ := segments_of_compile horder h
  have hpictures := exists_perm_forall₂_iff
    (fun e he => horder e (List.mem_of_mem_filter he)) (shownPictures_perm _ _) hsegments
  have hheard := exists_perm_forall₂_iff
    (fun e he => horder e (List.mem_of_mem_filter he)) (List.Perm.refl _) hsounds
  have huses : UsesOnce settings sampleRate es audioSources p ↔
      (∀ e ∈ es.filter (·.kind.isPicture), (trackOrder tracks).count e.trackId = 1) ∧
        ∀ e ∈ es.filter (isAudible audioSources), (trackOrder tracks).count e.trackId = 1 := by
    rw [← hpictures, ← hheard]
    exact ⟨fun h => ⟨h.pictures, h.sounds⟩, fun h => ⟨h.1, h.2⟩⟩
  simp only [huses, count_trackOrder, List.mem_filter, and_imp]
  constructor
  · rintro ⟨hpicture, hsound⟩ e he (hkind | haudible)
    · exact hpicture e he hkind
    · exact hsound e he haudible
  · exact fun h => ⟨fun e he hkind => h e he (.inl hkind),
      fun e he haudible => h e he (.inr haudible)⟩

end

/-- **Programs use every element once exactly if its track is listed once.** The video, audio and
image elements of an accepted timeline have, in a program, one segment for each picture and one
chain for each sound if and only if no track that carries one of them is listed twice; and over
the rationals they have a program, if the output lasts. -/
theorem compile_usesOnce_iff (settings : ExportSettings) (sampleRate : Int) (tracks : List Track)
    (overlay : Option OverlaySequence) (audioSources : List (String × Bool)) :
    (∀ (α : Type) [Scalar α] (es : List (Element α)) (duration : Option α) (p : Program α),
      validate es tracks settings = .ok () →
      compile settings sampleRate (es.filter (·.kind.isMedia)) tracks overlay duration
        audioSources = .ok p →
      (UsesOnce settings sampleRate (es.filter (·.kind.isMedia)) audioSources p ↔
        ∀ e ∈ es, e.kind.isPicture ∨ isAudible audioSources e →
          (tracks.map (·.id)).count e.trackId = 1)) ∧
    ∀ (es : List (Element Rat)) (duration : Option Rat),
      validate es tracks settings = .ok () →
      0 < duration.getD (defaultDuration (es.filter (·.kind.isMedia)) overlay) →
      ∃ p, compile settings sampleRate (es.filter (·.kind.isMedia)) tracks overlay duration
        audioSources = .ok p := by
  constructor
  · intro α _ es duration p hvalid hp
    have haccepted := (validate_eq_ok_iff es tracks settings).mp hvalid
    rw [usesOnce_iff (fun e he => (haccepted.elements e (List.mem_of_mem_filter he)).listed) hp]
    constructor
    · intro h e he hused
      have hmedia : e.kind.isMedia := hused.elim ElementKind.isMedia_of_isPicture fun haudible =>
        ElementKind.isMedia_of_hasSound (Bool.and_eq_true_iff.mp haudible).1
      exact h e (List.mem_filter.mpr ⟨he, hmedia⟩) hused
    · exact fun h e he => h e (List.mem_of_mem_filter he)
  · intro es duration hvalid hduration
    have haccepted := (validate_eq_ok_iff es tracks settings).mp hvalid
    exact haccepted.succeeds_compile (isPart_media _) settings
      sampleRate tracks overlay duration hduration audioSources

/-- A clip, a sound and a caption on tracks that are listed once. -/
theorem usesOnce_of_listed_once :
    ∃ p, compile {} 48000 [.plain .video "clip" "main" "a.mp4" 0 1000,
        .plain .audio "song" "music" "b.mp3" 500 (3000 : Rat)]
        [{ id := "main" }, { id := "music" }] none none [] = .ok p ∧
      UsesOnce {} 48000 [.plain .video "clip" "main" "a.mp4" 0 1000,
        .plain .audio "song" "music" "b.mp3" 500 (3000 : Rat)] [] p := by
  obtain ⟨_, hvalid⟩ : Succeeds (validate [.plain .video "clip" "main" "a.mp4" 0 1000,
      .plain .audio "song" "music" "b.mp3" 500 (3000 : Rat),
      .plain .caption "words" "main" "" 0 1000] [{ id := "main" }, { id := "music" }] {}) :=
    .of_isOk (by decide +kernel)
  have huses := compile_usesOnce_iff {} 48000 [{ id := "main" }, { id := "music" }] none []
  obtain ⟨p, hp⟩ := huses.2 _ none hvalid (by decide +kernel)
  exact ⟨p, hp, (huses.1 Rat _ none p hvalid hp).mpr (by decide)⟩

/-- A track that is listed twice shows its clip twice and plays it twice, though validation accepts
the timeline. -/
theorem not_usesOnce_of_listed_twice :
    ∃ p, validate [.plain .video "clip" "main" "a.mp4" 0 (1000 : Rat)]
        [{ id := "main" }, { id := "main" }] {} = .ok () ∧
      compile {} 48000 [.plain .video "clip" "main" "a.mp4" 0 (1000 : Rat)]
        [{ id := "main" }, { id := "main" }] none none [] = .ok p ∧
      p.segments.length = 2 ∧ p.clipChains.length = 2 ∧
      ¬ UsesOnce {} 48000 [.plain .video "clip" "main" "a.mp4" 0 (1000 : Rat)] [] p := by
  obtain ⟨_, hvalid⟩ : Succeeds (validate [.plain .video "clip" "main" "a.mp4" 0 (1000 : Rat)]
      [{ id := "main" }, { id := "main" }] {}) := .of_isOk (by decide +kernel)
  have haccepted := (validate_eq_ok_iff _ _ _).mp hvalid
  obtain ⟨p, hp⟩ := haccepted.succeeds_compile (.of_subset fun _ he => he) {} 48000
    [{ id := "main" }, { id := "main" }] none none (by decide +kernel) []
  have hlisted := fun e he => (haccepted.elements e he).listed
  have hwalk : (walk (·.trackId) (trackOrder [{ id := "main" }, { id := "main" }])
      [Element.plain .video "clip" "main" "a.mp4" 0 (1000 : Rat)]).length = 2 := by
    rw [length_walk_cons, count_trackOrder, walk_nil]
    decide
  obtain ⟨hsegments, hsounds⟩ := segments_of_compile (order_of_listed hlisted) hp
  refine ⟨p, hvalid, hp, ?_, ?_, ?_⟩
  · rw [← hsegments.length_eq, (shownPictures_perm _ _).length_eq]
    exact hwalk
  · rw [← hsounds.length_eq]
    exact hwalk
  · rw [usesOnce_iff hlisted hp]
    decide

end TimelineExport
