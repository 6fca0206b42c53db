import TimelineExport.Compile.Program
import TimelineExport.Proofs.Filter.Wiring
import TimelineExport.Proofs.Outcome

/-!
# The filters of clips

The chain of a clip, seen or heard, has one stream to work on, so none of its filters joins
streams; and where such a chain cannot be built, this is no fault of the graph. Between the
filters that play the source and the ones that cut the result to its length, a segment has only
filters of a few names, which change the picture and not the time (`meets_segmentFilters_split`).
-/

namespace TimelineExport

variable {α : Type}

/-- A fault that is no fault of the graph. -/
def CompileFault.NotGraph (fault : CompileFault α) : Prop := ∀ f, fault ≠ .graph f

/-- The names of the filters that change the picture of a clip and not its time. -/
def pictureFilterNames : List String :=
  ["fps", "scale", "crop", "pad", "setsar", "format", "colorchannelmixer", "fade", "zoompan", "geq"]

theorem isSingle_of_name_mem {f : Filter α} (h : f.name ∈ pictureFilterNames) : f.IsSingle := by
  have hnames : ∀ name ∈ pictureFilterNames, name ∉ ["concat", "amix", "overlay"] := by decide
  exact hnames f.name h

/-! ### Pictures -/

theorem Window.name_of_fade? {direction : String} {start : Arg α} {w : Window α} {f : Filter α}
    (h : w.fade? direction start = some f) : f.name ∈ pictureFilterNames := by
  unfold fade? at h
  split at h <;> cases h <;> simp [pictureFilterNames]

theorem name_of_mem_slideFilters {settings : ExportSettings} {entry exit : Option (Window α)} :
    ∀ f ∈ slideFilters settings entry exit, f.name ∈ pictureFilterNames := by
  unfold slideFilters
  split
  · simp
  · simp [pictureFilterNames]

theorem name_of_mem_maskFilters {entry exit : Option (Window α)} :
    ∀ f ∈ maskFilters entry exit, f.name ∈ pictureFilterNames := by
  unfold maskFilters
  dsimp only
  split
  · simp
  · simp [pictureFilterNames]

section
variable [Scalar α]

theorem name_of_zoomFilter? {settings : ExportSettings} {entry exit : Option (Window α)}
    {f : Filter α} (h : zoomFilter? settings entry exit = some f) :
    f.name ∈ pictureFilterNames := by
  unfold zoomFilter? at h
  split at h
  · cases h
  · cases h
    simp [pictureFilterNames]

namespace Element

theorem name_of_mem_transitionFilters (settings : ExportSettings) (e : Element α) :
    ∀ f ∈ e.transitionFilters settings, f.name ∈ pictureFilterNames := by
  intro f hf
  simp only [transitionFilters, List.mem_append, Option.mem_toList, Option.bind_eq_some_iff] at hf
  rcases hf with ((((⟨w, -, h⟩ | ⟨w, -, h⟩) | h) | h) | h)
  · exact Window.name_of_fade? h
  · exact Window.name_of_fade? h
  · exact name_of_zoomFilter? h
  · exact name_of_mem_slideFilters f h
  · exact name_of_mem_maskFilters f h

theorem name_of_mem_opacityFilters (e : Element α) :
    ∀ f ∈ e.opacityFilters, f.name ∈ pictureFilterNames := by
  unfold opacityFilters
  split <;> simp [pictureFilterNames]

theorem isSingle_of_mem_sourceFilters (settings : ExportSettings) (e : Element α) :
    ∀ f ∈ e.sourceFilters settings, f.IsSingle := by
  unfold sourceFilters
  split <;> simp [Filter.IsSingle]

theorem isSingle_of_mem_leadIn (gapMs : α) : ∀ f ∈ leadIn gapMs, f.IsSingle := by
  unfold leadIn
  split <;> simp [Filter.IsSingle]

theorem meets_boxSide (side : Nat) (scale : α) :
    Meets (boxSide side scale) (fun _ => True) CompileFault.NotGraph := by
  unfold boxSide
  split
  · trivial
  · exact fun f => nofun

theorem meets_fitFilters (settings : ExportSettings) (e : Element α) :
    Meets (e.fitFilters settings) (fun fs => ∀ f ∈ fs, f.name ∈ pictureFilterNames)
      CompileFault.NotGraph := by
  refine (meets_boxSide _ _).bind fun width _ _ => (meets_boxSide _ _).bind fun height _ _ => ?_
  intro f hf
  simp only [List.mem_append, List.mem_cons, List.not_mem_nil, or_false] at hf
  rcases hf with (rfl | hf) | rfl | rfl
  · simp [pictureFilterNames]
  · split at hf
    · obtain rfl := List.mem_singleton.mp hf
      simp [pictureFilterNames]
    · exact absurd hf List.not_mem_nil
  · simp [pictureFilterNames]
  · simp [pictureFilterNames]

/-- **The filters of a segment**: those that play the source, some that change the picture, the
cut to the clip's length, and the lead-in. -/
theorem meets_segmentFilters_split (settings : ExportSettings) (gapMs : α) (e : Element α) :
    Meets (e.segmentFilters settings gapMs)
      (fun fs => ∃ shown : List (Filter α), (∀ f ∈ shown, f.name ∈ pictureFilterNames) ∧
        fs = e.sourceFilters settings ++ shown ++
          [{ name := "trim", options := [("duration", .seconds e.duration)] },
           { name := "setpts", positional := [.text "PTS-STARTPTS"] }] ++ leadIn gapMs)
      CompileFault.NotGraph := by
  refine (e.meets_fitFilters settings).bind fun fit _ hfit => ?_
  refine ⟨[{ name := "fps", positional := [.int settings.fps] }] ++ fit ++
    [{ name := "format", positional := [.text "yuva420p"] }] ++ e.opacityFilters ++
    e.transitionFilters settings, ?_, by simp only [List.append_assoc]⟩
  intro f hf
  simp only [List.mem_append, List.mem_singleton] at hf
  rcases hf with (((rfl | hf) | rfl) | hf) | hf
  · simp [pictureFilterNames]
  · exact hfit f hf
  · simp [pictureFilterNames]
  · exact e.name_of_mem_opacityFilters f hf
  · exact e.name_of_mem_transitionFilters settings f hf

/-- The filters of a segment join no streams. -/
theorem meets_segmentFilters (settings : ExportSettings) (gapMs : α) (e : Element α) :
    Meets (e.segmentFilters settings gapMs) (fun fs => ∀ f ∈ fs, f.IsSingle)
      CompileFault.NotGraph := by
  refine (e.meets_segmentFilters_split settings gapMs).mono fun fs _ hfs => ?_
  obtain ⟨shown, hshown, rfl⟩ := hfs
  intro f hf
  simp only [List.mem_append, List.mem_cons, List.not_mem_nil, or_false] at hf
  rcases hf with ((hf | hf) | rfl | rfl) | hf
  · exact e.isSingle_of_mem_sourceFilters settings f hf
  · exact isSingle_of_name_mem (hshown f hf)
  · simp [Filter.IsSingle]
  · simp [Filter.IsSingle]
  · exact isSingle_of_mem_leadIn gapMs f hf

end Element

/-! ### Sounds -/

/-- The names of the filters of a clip with sound. -/
def soundFilterNames : List String :=
  ["aformat", "atrim", "asetpts", "atempo", "volume", "afade", "adelay"]

namespace AudioClip

theorem name_of_mem_fades (c : AudioClip α) : ∀ f ∈ c.fades, f.name ∈ soundFilterNames := by
  intro f hf
  obtain hf | hf := List.mem_append.mp hf <;> split at hf
  · obtain rfl := List.mem_singleton.mp hf
    simp [soundFilterNames, fade]
  · exact absurd hf List.not_mem_nil
  · obtain rfl := List.mem_singleton.mp hf
    simp [soundFilterNames, fade]
  · exact absurd hf List.not_mem_nil

theorem meets_delay (sampleRate : Int) (c : AudioClip α) :
    Meets (c.delay sampleRate) (fun fs => ∀ f ∈ fs, f.name ∈ soundFilterNames)
      CompileFault.NotGraph := by
  unfold delay
  split
  · split
    · simp [Meets, soundFilterNames]
    · exact fun f => nofun
  · simp [Meets]

/-- The filters of a clip with sound have one of a few names. -/
theorem meets_filterNames (sampleRate : Int) (c : AudioClip α) :
    Meets (c.filters sampleRate) (fun fs => ∀ f ∈ fs, f.name ∈ soundFilterNames)
      CompileFault.NotGraph := by
  refine ((Meets.trivially _).mapError fun fault _ f => nofun).bind fun stages _ _ =>
    (c.meets_delay sampleRate).bind fun delay _ hdelay => ?_
  intro f hf
  simp only [List.mem_append, List.mem_cons, List.not_mem_nil, or_false, List.mem_map] at hf
  rcases hf with (((((rfl | rfl | rfl) | ⟨stage, -, rfl⟩) | rfl) | hf) | hf) | hf
  · simp [soundFilterNames]
  · simp [soundFilterNames]
  · simp [soundFilterNames]
  · simp [soundFilterNames]
  · simp [soundFilterNames, cutAudio]
  · split at hf
    · exact absurd hf List.not_mem_nil
    · obtain rfl := List.mem_singleton.mp hf
      simp [soundFilterNames]
  · exact c.name_of_mem_fades f hf
  · exact hdelay f hf

/-- The filters of a clip with sound join no streams. -/
theorem meets_filters (sampleRate : Int) (c : AudioClip α) :
    Meets (c.filters sampleRate) (fun fs => ∀ f ∈ fs, f.IsSingle) CompileFault.NotGraph := by
  have hnames : ∀ name ∈ soundFilterNames, name ∉ ["concat", "amix", "overlay"] := by decide
  exact (c.meets_filterNames sampleRate).mono fun fs _ hfs f hf => hnames f.name (hfs f hf)

end AudioClip

end

end TimelineExport
