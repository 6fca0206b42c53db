import Mathlib.Order.WithBot
import TimelineExport.Audio.Mixer
import TimelineExport.Proofs.Filter.Playback
import TimelineExport.Proofs.Filter.Route

/-!
# How long a sound is

`Filter.soundLength?` says of each filter how long its stream is, given the lengths of the streams
that it takes: generated silence and a padded stream never end, a cut lets at most its duration
pass, and a mix is as long as the first or as the longest of its streams. What the other filters do
to a finite length (they keep it, scale it or delay it) is left open and a parameter of what
follows. A stream without an end has the length `⊤`; a filter that gets too few or too many streams
has none.

`Graph.Lasts` carries this over to the streams of a graph. It is a relation, because nothing says
of a graph in general that its streams are given once, or in an order.
-/

namespace TimelineExport

/-- What filters do to finite lengths, in milliseconds, and the lengths of the inputs' streams. -/
structure SoundLengths where
  reshape : Filter Rat → Rat → Rat
  media : String → Rat

namespace Filter

/-- A word among the options of a filter. -/
def wordOf? (f : Filter Rat) (key : String) : Option String :=
  match f.options.lookup key with
  | some (.formula [.text word]) => some word
  | _ => none

/-- How long the stream of a filter is that takes one stream. -/
def alteredLength (s : SoundLengths) (f : Filter Rat) (length : WithTop Rat) : WithTop Rat :=
  if f.name = "apad" then ⊤
  else
    match if f.name = "atrim" then f.timeOf? "duration" else none with
    | some ms => min length ((max ms 0 : Rat) : WithTop Rat)
    | none => length.map (s.reshape f)

/-- **How long the stream of a filter is**, given the lengths of the streams that it takes. -/
def soundLength? (s : SoundLengths) (f : Filter Rat) (lengths : List (WithTop Rat)) :
    Option (WithTop Rat) :=
  if f.name = "anullsrc" then
    if lengths.isEmpty then some ⊤ else none
  else if f.name = "amix" then
    match f.wordOf? "duration" with
    | some "first" => lengths.head?
    | some "longest" => lengths.max?
    | _ => none
  else
    match lengths with
    | [length] => some (f.alteredLength s length)
    | _ => none

/-- How long the stream is that filters give one after another. -/
def soundLengthAll? (s : SoundLengths) : List (Filter Rat) → List (WithTop Rat) →
    Option (WithTop Rat)
  | [], [length] => some length
  | [], _ => none
  | f :: fs, lengths => (f.soundLength? s lengths).bind fun length => soundLengthAll? s fs [length]

variable (s : SoundLengths)

theorem soundLengthAll?_append (fs gs : List (Filter Rat)) (length : WithTop Rat) :
    soundLengthAll? s (fs ++ gs) [length] =
      (soundLengthAll? s fs [length]).bind fun length => soundLengthAll? s gs [length] := by
  induction fs generalizing length with
  | nil => rfl
  | cons f fs ih =>
    rw [List.cons_append, soundLengthAll?, soundLengthAll?, Option.bind_assoc]
    exact congrArg _ (funext ih)

/-- A cut lets at most its duration pass. -/
theorem soundLength?_cutAudio {ms : Rat} (hms : 0 ≤ ms) (length : WithTop Rat) :
    (cutAudio ms).soundLength? s [length] = some (min length ms) := by
  simp [soundLength?, alteredLength, cutAudio, timeOf?, Arg.seconds, hms]

/-- Silence has its length. -/
theorem soundLengthAll?_silence (sampleRate : Int) {ms : Rat} (hms : 0 ≤ ms) :
    soundLengthAll? s (silence sampleRate ms) [] = some (ms : WithTop Rat) := by
  rw [silence, soundLengthAll?]
  simp [soundLength?, soundLengthAll?, alteredLength, cutAudio, timeOf?, Arg.seconds, hms]

/-- A stream that was padded and cut has the length of the cut. -/
theorem soundLengthAll?_padded {ms : Rat} (hms : 0 ≤ ms) (length : WithTop Rat) :
    soundLengthAll? s [{ name := "apad" }, cutAudio ms] [length] = some (ms : WithTop Rat) := by
  have hpad : ({ name := "apad" } : Filter Rat).soundLength? s [length] = some ⊤ := by
    simp [soundLength?, alteredLength]
  rw [soundLengthAll?, hpad, Option.bind_some, soundLengthAll?, soundLength?_cutAudio s hms,
    top_inf_eq]
  rfl

theorem wordOf?_mixFilter (count : Nat) (length : String) :
    (mixFilter count length).wordOf? "duration" = some length := by
  simp [mixFilter, wordOf?, Arg.text, List.lookup_cons]

/-- A mix that is as long as its first stream. -/
theorem soundLengthAll?_mixFirst (count : Nat) (length : WithTop Rat)
    (lengths : List (WithTop Rat)) :
    soundLengthAll? s [mixFilter count "first"] (length :: lengths) = some length := by
  have hname : (mixFilter count "first" : Filter Rat).name = "amix" := rfl
  simp [soundLengthAll?, soundLength?, hname, wordOf?_mixFilter]

/-- A mix of streams that is as long as the longest of them. -/
theorem exists_soundLengthAll?_mixLongest (count : Nat) {lengths : List (WithTop Rat)}
    (hne : lengths ≠ []) :
    ∃ length, soundLengthAll? s [mixFilter count "longest"] lengths = some length := by
  have hname : (mixFilter count "longest" : Filter Rat).name = "amix" := rfl
  obtain ⟨length, hlength⟩ := Option.ne_none_iff_exists'.mp (mt List.max?_eq_none_iff.mp hne)
  refine ⟨length, ?_⟩
  simp [soundLengthAll?, soundLength?, hname, wordOf?_mixFilter, hlength]

/-- Filters that take one stream each give one. -/
theorem exists_soundLengthAll? {fs : List (Filter Rat)}
    (h : ∀ f ∈ fs, f.name ≠ "anullsrc" ∧ f.name ≠ "amix") (length : WithTop Rat) :
    ∃ length', soundLengthAll? s fs [length] = some length' := by
  induction fs generalizing length with
  | nil => exact ⟨length, rfl⟩
  | cons f fs ih =>
    obtain ⟨⟨hsource, hmix⟩, hfs⟩ := List.forall_mem_cons.mp h
    obtain ⟨length', hlength'⟩ := ih hfs (f.alteredLength s length)
    refine ⟨length', ?_⟩
    rw [soundLengthAll?, soundLength?, if_neg hsource, if_neg hmix]
    exact hlength'

end Filter

/-- **A stream of a graph has a length**: that of an input's stream is given, and another one has
the length that the filters of a chain make of what the chain takes. -/
inductive Graph.Lasts (s : SoundLengths) (g : Graph Rat) : String → WithTop Rat → Prop
  | input {label : String} (h : (streamInput? label).isSome) : Lasts s g label (s.media label)
  | chain {label : String} {length : WithTop Rat} {c : Chain Rat} (lengths : String → WithTop Rat)
      (hc : c ∈ g.chains) (hlabel : label ∈ c.outputs) (hplain : isPlain label)
      (hinputs : ∀ l ∈ c.inputs, Lasts s g l (lengths l))
      (hlength : Filter.soundLengthAll? s c.filters (c.inputs.map lengths) = some length) :
      Lasts s g label length

/-- The length of a stream that one chain gives depends on that chain alone. -/
theorem Graph.lasts_iff_of_produced_once {s : SoundLengths} {g : Graph Rat} {label : String}
    (honce : g.produced.count label = 1) (hplain : isPlain label) {c : Chain Rat}
    (hc : c ∈ g.chains) (hlabel : label ∈ c.outputs) {length : WithTop Rat} :
    g.Lasts s label length ↔ ∃ lengths : String → WithTop Rat,
      (∀ l ∈ c.inputs, g.Lasts s l (lengths l)) ∧
        Filter.soundLengthAll? s c.filters (c.inputs.map lengths) = some length := by
  constructor
  · intro h
    cases h with
    | input hinput =>
      rw [isPlain, Option.isNone_iff_eq_none] at hplain
      rw [hplain] at hinput
      cases hinput
    | @chain _ _ d lengths hd hlabel' _ hinputs hlength =>
      obtain rfl := eq_of_count_flatMap_eq_one honce hd hc hlabel' hlabel
      exact ⟨lengths, hinputs, hlength⟩
  · rintro ⟨lengths, hinputs, hlength⟩
    exact .chain lengths hc hlabel hplain hinputs hlength

section
variable {s : SoundLengths} {g : Graph Rat} {label : String} {ms : Rat} {length : WithTop Rat}

/-- A stream of silence has its length. -/
theorem Graph.lasts_silence_iff {sampleRate : Int} (honce : g.produced.count label = 1)
    (hplain : isPlain label) (hc : ⟨[], silence sampleRate ms, [label]⟩ ∈ g.chains)
    (hms : 0 ≤ ms) : g.Lasts s label length ↔ length = ms := by
  have hsilence := Filter.soundLengthAll?_silence s sampleRate hms
  rw [lasts_iff_of_produced_once honce hplain hc (List.mem_singleton_self label)]
  constructor
  · rintro ⟨lengths, -, hlength⟩
    exact Option.some_inj.mp (hlength.symm.trans hsilence)
  · rintro rfl
    exact ⟨fun _ => 0, fun _ hl => absurd hl List.not_mem_nil, hsilence⟩

/-- The stream of an input that is padded and cut has the length of the cut, whatever other filters
do to it before. -/
theorem Graph.lasts_padded_iff {input : String} {filters : List (Filter Rat)}
    (honce : g.produced.count label = 1) (hplain : isPlain label)
    (hc : ⟨[input], filters ++ [{ name := "apad" }, cutAudio ms], [label]⟩ ∈ g.chains)
    (hms : 0 ≤ ms) (hinput : (streamInput? input).isSome)
    (hfilters : ∀ length, ∃ length', Filter.soundLengthAll? s filters [length] = some length') :
    g.Lasts s label length ↔ length = ms := by
  have hpadded : ∀ lengths : String → WithTop Rat,
      Filter.soundLengthAll? s (filters ++ [{ name := "apad" }, cutAudio ms])
        ([input].map lengths) = some (ms : WithTop Rat) := by
    intro lengths
    obtain ⟨length', hlength'⟩ := hfilters (lengths input)
    rw [List.map_singleton, Filter.soundLengthAll?_append, hlength', Option.bind_some,
      Filter.soundLengthAll?_padded s hms]
  rw [lasts_iff_of_produced_once honce hplain hc (List.mem_singleton_self label)]
  constructor
  · rintro ⟨lengths, -, hlength⟩
    exact Option.some_inj.mp (hlength.symm.trans (hpadded lengths))
  · rintro rfl
    exact ⟨fun l => s.media l, List.forall_mem_singleton.mpr (.input hinput), hpadded _⟩

/-- A mix over a first stream has the length of that stream, if all of its streams have one. -/
theorem Graph.lasts_mixFirst_iff {first : String} {rest : List String} {count : Nat}
    (honce : g.produced.count label = 1) (hplain : isPlain label)
    (hc : ⟨first :: rest, [mixFilter count "first"], [label]⟩ ∈ g.chains)
    (hrest : ∀ l ∈ rest, ∃ length, g.Lasts s l length) :
    g.Lasts s label length ↔ g.Lasts s first length := by
  rw [lasts_iff_of_produced_once honce hplain hc (List.mem_singleton_self label)]
  constructor
  · rintro ⟨lengths, hlasts, hlength⟩
    rw [List.map_cons, Filter.soundLengthAll?_mixFirst, Option.some_inj] at hlength
    exact hlength ▸ hlasts first List.mem_cons_self
  · intro hfirst
    choose! lengths hlengths using hrest
    -- the first stream may be among the others, so its length is fixed wherever it is taken
    refine ⟨fun l => if l = first then length else lengths l, ?_, ?_⟩
    · refine List.forall_mem_cons.mpr ⟨by simpa using hfirst, fun l hl => ?_⟩
      dsimp only
      split
      · next heq => exact heq ▸ hfirst
      · exact hlengths l hl
    · rw [List.map_cons, Filter.soundLengthAll?_mixFirst, if_pos rfl]

end

end TimelineExport
