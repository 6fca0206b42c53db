import TimelineExport.Proofs.Compile.Usage
import TimelineExport.Proofs.Engine.Command

/-!
# The inputs of a program

A filter program refers to its inputs by number, and an index that is off by one shows the wrong
footage without any error. The numbers are used in three places: the segments play the pictures of
the sources, the chains with sound their sounds, and the command lists the inputs. `InputsAgree`
says that all of them agree, and `compile_inputs_agree` that they do in every program.

The sources come first, each once (`IsFirstAppearances`), then the background, which the first chain
takes, and then the overlay frames, which the chain of the finished picture lays on top. That this
chain is the one of the overlay frames is followed through the finishing steps, since those rename
its stream.
-/

namespace TimelineExport

/-! ### First appearances -/

/-- The members of a list, each once, in the order in which they first appear. -/
structure IsFirstAppearances {β : Type} [DecidableEq β] (xs ys : List β) : Prop where
  mem_iff : ∀ x, x ∈ ys ↔ x ∈ xs
  ordered : ys.Pairwise fun x y => xs.idxOf x < xs.idxOf y

section
variable {β : Type} [DecidableEq β]

/-- Members that pass a test keep their order. -/
theorem idxOf_lt_idxOf_of_filter {p : β → Bool} {x y : β} (hx : p x = true) (hy : p y = true)
    {xs : List β} (h : (xs.filter p).idxOf x < (xs.filter p).idxOf y) :
    xs.idxOf x < xs.idxOf y := by
  induction xs with
  | nil => exact h
  | cons z zs ih =>
    by_cases hzx : z = x
    · subst hzx
      have hne : z ≠ y := by
        rintro rfl
        exact Nat.lt_irrefl _ h
      rw [List.idxOf_cons_self, List.idxOf_cons_ne _ hne]
      exact Nat.succ_pos _
    · by_cases hzy : z = y
      · subst hzy
        rw [List.filter_cons_of_pos hy, List.idxOf_cons_self] at h
        exact absurd h (Nat.not_lt_zero _)
      · rw [List.idxOf_cons_ne _ hzx, List.idxOf_cons_ne _ hzy]
        refine Nat.succ_lt_succ (ih ?_)
        cases hz : p z with
        | false => rwa [List.filter_cons_of_neg (by simp [hz])] at h
        | true =>
          rw [List.filter_cons_of_pos hz, List.idxOf_cons_ne _ hzx, List.idxOf_cons_ne _ hzy] at h
          exact Nat.lt_of_succ_lt_succ h

/-- Erasing what came before keeps the members in the order in which they first appear. -/
theorem pairwise_idxOf_eraseDups (xs : List β) :
    xs.eraseDups.Pairwise fun x y => xs.idxOf x < xs.idxOf y := by
  match xs with
  | [] => exact .nil
  | x :: xs =>
    have hrest := pairwise_idxOf_eraseDups (xs.filter fun y => !y == x)
    have hpass : ∀ y ∈ (xs.filter fun y => !y == x).eraseDups, (!y == x) = true :=
      fun y hy => (List.mem_filter.mp (List.mem_eraseDups.mp hy)).2
    have hne : ∀ y ∈ (xs.filter fun y => !y == x).eraseDups, x ≠ y := by
      intro y hy heq
      simpa [heq] using hpass y hy
    rw [List.eraseDups_cons]
    refine List.pairwise_cons.mpr ⟨fun y hy => ?_, hrest.imp_of_mem fun {y z} hy hz hlt => ?_⟩
    · rw [List.idxOf_cons_self, List.idxOf_cons_ne _ (hne y hy)]
      exact Nat.succ_pos _
    · rw [List.idxOf_cons_ne _ (hne y hy), List.idxOf_cons_ne _ (hne z hz)]
      exact Nat.succ_lt_succ
        (idxOf_lt_idxOf_of_filter (p := fun y => !y == x) (hpass y hy) (hpass z hz) hlt)
termination_by xs.length
decreasing_by exact Nat.lt_succ_of_le (List.length_filter_le _ _)

theorem isFirstAppearances_eraseDups (xs : List β) : IsFirstAppearances xs xs.eraseDups :=
  ⟨fun _ => List.mem_eraseDups, pairwise_idxOf_eraseDups xs⟩

end

/-! ### The chain of the finished picture -/

variable {α : Type}

/-- The chain of the overlay frames, finished: it lays them over what lies below, and perhaps has
more filters. -/
def Chain.LaysOnTop (index : Nat) (c : Chain α) : Prop :=
  ∃ below, c.inputs = [below, streamLabel index "v"] ∧ [overlayFilter] <+: c.filters

section
variable [Scalar α]

/-- If there are overlay frames, their chain gives the picture. -/
theorem meets_buildVideo_top (settings : ExportSettings) (es : List (Element α))
    (order : List String) {sources : List String} {inputCount : Nat}
    (hsources : sources.length < inputCount) {index : Nat} (hindex : index < inputCount) :
    Meets (buildVideo settings es order sources (some index))
      (fun g => ∃ c ∈ g.chains, c.outputs = [videoOutput] ∧ c.LaysOnTop index)
      fun _ => True := by
  have hoverlay : ∀ i ∈ some index, i < inputCount := by
    rintro _ ⟨⟩
    exact hindex
  refine (meets_buildVideo_steps settings es order hsources hoverlay).mono fun g _ hg => ?_
  obtain ⟨r, cs, -, -, hwired, hfinish⟩ := hg
  have hmem : ⟨[r.1, streamLabel index "v"], [overlayFilter], [(layOverlay (some index) r).1]⟩ ∈
      (layOverlay (some index) r).2.chains :=
    List.mem_append_right _ List.mem_cons_self
  exact ⟨_, hwired.extended_mem_of_relabel (by simp [Filter.IsSingle]) hfinish hmem rfl,
    rfl, r.1, rfl, List.prefix_append _ _⟩

end

/-! ### The program -/

/-- A chain plays the stream of a kind of an element's own source. -/
def Program.PlaysOwn (p : Program α) (kind : String) (e : Element α) (c : Chain α) : Prop :=
  ∃ index path, e.assetSource = some path ∧ p.inputs[index]? = some (.file path) ∧
    c.inputs = [streamLabel index kind]

/-- **The inputs of a program agree** with the elements that it was compiled from, and with its
chains. -/
structure InputsAgree [Scalar α] (settings : ExportSettings) (sampleRate : Int)
    (es : List (Element α)) (tracks : List Track) (overlay : Option OverlaySequence)
    (audioSources : List (String × Bool)) (p : Program α) : Prop where
  /-- The sources of the program are those of the elements. -/
  sources : IsFirstAppearances (es.filterMap (·.assetSource)) p.sources
  /-- The inputs are the sources, one background, and the overlay frames if there are any. -/
  inputs : ∃ background, p.inputs = p.sources.map .file ++
    .generated background :: (overlay.map fun o => .pictures o.path o.fps).toList
  /-- Each picture that is shown has its segment, which plays the element's own source. -/
  segments : List.Forall₂
    (fun e c => IsSegmentOf settings p.sources e c ∧ p.PlaysOwn "v" e c)
    (shownPictures (es.filter (·.kind.isPicture)) (trackOrder tracks)) p.segments
  /-- Each sound that is heard has its chain, which plays the element's own source. -/
  sounds : List.Forall₂
    (fun e c => IsSoundOf sampleRate p.sources e c ∧ p.PlaysOwn "a" e c)
    (heardSounds (es.filter (isAudible audioSources)) (trackOrder tracks)) p.clipChains
  /-- The first chain takes the background. -/
  base : ∃ background c rest, p.inputs[p.backgroundIndex]? = some (.generated background) ∧
    p.graph.chains = c :: rest ∧ (baseChain p.backgroundIndex).Extends c
  /-- The chain of the finished picture lays the overlay frames on top. -/
  top : ∀ o ∈ overlay, ∃ index c, p.inputs[index]? = some (.pictures o.path o.fps) ∧
    p.graph.producer? videoOutput = some c ∧ c.LaysOnTop index

theorem getElem?_of_sourceIndex {sources : List String} {e : Element α} {index : Nat}
    (h : sourceIndex sources e = .ok index) :
    ∃ path, e.assetSource = some path ∧ sources[index]? = some path := by
  unfold sourceIndex at h
  split at h
  · next i hi =>
    cases h
    obtain ⟨path, hpath, hindex⟩ := Option.bind_eq_some_iff.mp hi
    obtain ⟨hlt, hget, -⟩ := List.idxOf?_eq_some_iff.mp hindex
    exact ⟨path, hpath, List.getElem?_eq_some_iff.mpr ⟨hlt, by simpa using hget⟩⟩
  · cases h

/-- What refers to the index of an element's source plays that source. -/
theorem Program.playsOwn {p : Program α} {others : List (Input α)}
    (hinputs : p.inputs = p.sources.map .file ++ others) {e : Element α} {index : Nat}
    (hindex : sourceIndex p.sources e = .ok index) {kind : String} {c : Chain α}
    (hc : c.inputs = [streamLabel index kind]) : p.PlaysOwn kind e c := by
  obtain ⟨path, hpath, hget⟩ := getElem?_of_sourceIndex hindex
  refine ⟨index, path, hpath, ?_, hc⟩
  obtain ⟨hlt, -⟩ := List.getElem?_eq_some_iff.mp hget
  rw [hinputs, List.getElem?_append_left (by simpa using hlt), List.getElem?_map, hget]
  rfl

section
variable [Scalar α] {settings : ExportSettings} {sampleRate : Int} {es : List (Element α)}
  {tracks : List Track} {overlay : Option OverlaySequence} {duration : Option α}
  {audioSources : List (String × Bool)} {p : Program α}

theorem IsSegmentOf.playsOwn {others : List (Input α)}
    (hinputs : p.inputs = p.sources.map .file ++ others) {e : Element α} {c : Chain α}
    (h : IsSegmentOf settings p.sources e c) : p.PlaysOwn "v" e c := by
  obtain ⟨index, -, -, hindex, hc, -⟩ := h
  exact Program.playsOwn hinputs hindex hc

theorem IsSoundOf.playsOwn {others : List (Input α)}
    (hinputs : p.inputs = p.sources.map .file ++ others) {e : Element α} {c : Chain α}
    (h : IsSoundOf sampleRate p.sources e c) : p.PlaysOwn "a" e c := by
  obtain ⟨clip, -, hclip, hc, -⟩ := h
  obtain ⟨index, hindex, hclip⟩ := bind_eq_ok.mp hclip
  cases hclip
  exact Program.playsOwn hinputs hindex hc

/-- The first chain of a program is that of the background, finished. -/
theorem exists_baseChain_of_compile
    (h : compile settings sampleRate es tracks overlay duration audioSources = .ok p) :
    ∃ c rest, p.graph.chains = c :: rest ∧ (baseChain p.sources.length).Extends c := by
  obtain ⟨-, layers, top, layer, video, sounds, -, -, finish, -, hvideo, -, -, -, hfinishes⟩ :=
    chains_of_compile h
  obtain ⟨c, cs, hc, -, rfl⟩ := List.forall₂_cons_left_iff.mp hvideo.extended
  obtain ⟨d, ds, hd, -, hchains⟩ := List.forall₂_cons_left_iff.mp hfinishes.extended
  exact ⟨d, ds, hchains, hc.trans hd⟩

/-- If there are overlay frames, the chain of the finished picture lays them on top. -/
theorem exists_producer?_of_compile
    (h : compile settings sampleRate es tracks overlay duration audioSources = .ok p)
    {index : Nat} (hindex : p.overlayIndex = some index) :
    ∃ c, p.graph.producer? videoOutput = some c ∧ c.LaysOnTop index := by
  obtain ⟨hlength, hoverlay⟩ := index_lt_of_compile h
  obtain ⟨video, audio, hvideo, haudio, hg, -⟩ := steps_of_compile h
  obtain ⟨hwired, hbounded⟩ := wired_of_compile h hvideo haudio
  rw [hindex] at hvideo hoverlay
  obtain ⟨c, hc, houtputs, htop⟩ :=
    (meets_buildVideo_top settings es _ hlength (hoverlay index rfl)).of_eq_ok hvideo
  have hkept := (meets_buildAudio_keeps sampleRate hwired hbounded _).of_eq_ok hg c hc houtputs
  have hnodup := nodup_produced_of_compile h
  exact ⟨c, Graph.producer?_eq_some hnodup hkept (houtputs ▸ List.mem_singleton_self _), htop⟩

/-- **The inputs of every program agree** with its elements and its chains. -/
theorem inputsAgree_of_compile
    (h : compile settings sampleRate es tracks overlay duration audioSources = .ok p) :
    InputsAgree settings sampleRate es tracks overlay audioSources p := by
  obtain ⟨-, -, -, -, -, hsources, hinputs, hbackground, hoverlay⟩ := steps_of_compile h
  obtain ⟨background, hinputs⟩ : ∃ background, p.inputs = p.sources.map .file ++
      .generated background :: (overlay.map fun o => .pictures o.path o.fps).toList :=
    ⟨_, by rw [hinputs, programInputs, List.append_assoc, List.singleton_append]⟩
  obtain ⟨hsegments, hsounds⟩ := players_of_compile h
  exact {
    sources := hsources ▸ isFirstAppearances_eraseDups _
    inputs := ⟨background, hinputs⟩
    segments := hsegments.imp fun e c hc => ⟨hc, hc.playsOwn hinputs⟩
    sounds := hsounds.imp fun e c hc => ⟨hc, hc.playsOwn hinputs⟩
    base := by
      obtain ⟨c, rest, hchains, hextends⟩ := exists_baseChain_of_compile h
      rw [hbackground]
      refine ⟨background, c, rest, ?_, hchains, hextends⟩
      rw [hinputs, List.getElem?_append_right (by simp)]
      simp
    top := by
      rintro o ⟨⟩
      obtain ⟨c, hproducer, htop⟩ := exists_producer?_of_compile h hoverlay
      refine ⟨_, c, ?_, hproducer, htop⟩
      rw [hinputs, List.getElem?_append_right (by simp)]
      simp }

end

/-- **The inputs of a program agree with its elements, its chains and its command.** Whatever
timeline compiles, its files are the distinct sources of the elements, each chain of an element
refers to the element's own source, and the command lists all inputs in their order. -/
theorem compile_inputs_agree {settings : ExportSettings} {sampleRate : Int}
    {es : List (Element Float)} {tracks : List Track} {overlay : Option OverlaySequence}
    {duration : Option Float} {audioSources : List (String × Bool)} {p : Program Float}
    (h : compile settings sampleRate es tracks overlay duration audioSources = .ok p) :
    InputsAgree settings sampleRate es tracks overlay audioSources p ∧
      ∀ service settings' output,
        inputPaths (engineCommand service settings' p output).tail = p.inputs.map Input.path :=
  ⟨inputsAgree_of_compile h, fun service settings' output =>
    inputPaths_engineCommand service settings' p output⟩

/-- A film, a song, and the sound of the film once more. -/
def filmWithSound : List (Element Float) :=
  [.plain .video "film" "main" "film.mp4" 0 1000, .plain .audio "song" "music" "song.mp3" 0 2000,
    .plain .audio "echo" "main" "film.mp4" 1000 2000]

/-- The film is one input for both of its clips, and the song on a track that is not listed is
another. -/
theorem filmWithSound_inputs_agree :
    ∃ p, compile {} 48000 filmWithSound [{ id := "main" }]
        (some { directory := "frames", frameCount := 60, fps := 30 }) none [] = .ok p ∧
      InputsAgree {} 48000 filmWithSound [{ id := "main" }]
        (some { directory := "frames", frameCount := 60, fps := 30 }) [] p ∧
      inputPaths (engineCommand {} {} p "out.mp4").tail =
        ["film.mp4", "song.mp3", "color=c=black:s=1920x1080:r=30:d=2",
          "frames/frame_%06d.png"] := by
  have hpaths : (compile {} 48000 filmWithSound [{ id := "main" }]
      (some { directory := "frames", frameCount := 60, fps := 30 }) none []).toOption.map
        (fun p => p.inputs.map Input.path) =
      some ["film.mp4", "song.mp3", "color=c=black:s=1920x1080:r=30:d=2",
        "frames/frame_%06d.png"] := by
    decide +kernel
  obtain ⟨p, hp⟩ : Succeeds (compile {} 48000 filmWithSound [{ id := "main" }]
      (some { directory := "frames", frameCount := 60, fps := 30 }) none []) :=
    .of_isOk (by decide +kernel)
  obtain ⟨hagree, hcommand⟩ := compile_inputs_agree hp
  rw [hp] at hpaths
  exact ⟨p, hp, hagree, (hcommand {} {} "out.mp4").trans (Option.some.inj hpaths)⟩

end TimelineExport
