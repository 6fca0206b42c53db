import Mathlib.Data.List.Infix
import TimelineExport.Media.Probe
import TimelineExport.Proofs.Outcome

/-!
# Which probes are answered

Whoever probes a file is prepared for a description and for the fault `ProbeFault.failed`.
`IsAnswered` says that nothing else comes. A run of the program can print anything, and neither
reader is prepared for everything: each walks down the description as if it had the usual shape, and
turns only some of what it finds otherwise into the fault that is expected.

A run gives a description unless it printed an integer with too many digits
(`isAnswered_description_iff`). The shapes on which the readers get through are `GivesDuration` and
`GivesStreams`, and they are exactly those (`isAnswered_readDuration_iff`,
`isAnswered_readMedia_iff`).
-/

namespace TimelineExport
namespace ProbeRun

variable {α β : Type}

/-! ### Answers -/

/-- **An answered probe**: a result, or the one fault that callers are prepared for. -/
def IsAnswered (x : Except ProbeFault α) : Prop :=
  ∀ fault, x = .error fault → ∃ message, fault = .failed message

theorem isAnswered_ok (a : α) : IsAnswered (.ok a : Except ProbeFault α) := nofun

theorem isAnswered_failed (message : String) :
    IsAnswered (.error (.failed message) : Except ProbeFault α) := by
  rintro fault ⟨⟩
  exact ⟨message, rfl⟩

/-- One step after another is answered if the first is, and the second for whatever the first
gives. -/
theorem isAnswered_bind_iff {x : Except ProbeFault α} {f : α → Except ProbeFault β} :
    IsAnswered (x >>= f) ↔ IsAnswered x ∧ ∀ a, x = .ok a → IsAnswered (f a) := by
  cases x with
  | ok a =>
    change IsAnswered (f a) ↔ _
    simp [isAnswered_ok]
  | error fault =>
    change (∀ fault', (Except.error fault : Except ProbeFault β) = .error fault' → _) ↔ _
    simp [IsAnswered]

theorem isAnswered_map_iff {f : α → β} {x : Except ProbeFault α} :
    IsAnswered (f <$> x) ↔ IsAnswered x := by
  cases x with
  | ok a => exact iff_of_true (isAnswered_ok _) (isAnswered_ok _)
  | error fault =>
    change (∀ fault', (Except.error fault : Except ProbeFault β) = .error fault' → _) ↔ _
    simp [IsAnswered]

/-- Whether a value is an object. -/
def IsObject (v : Json) : Prop := ∃ members, v = .object members

/-- A run is answered with a description unless an integer that it printed has too many digits: a
program that does not run, that refuses the file or that prints no JSON has failed. -/
theorem isAnswered_description_iff (run : ProbeRun) :
    IsAnswered run.description ↔
      ∀ output diagnostics, run = .exited 0 output diagnostics →
        ∀ fault, Json.read output = .error fault → fault.isOverlong = false := by
  cases run with
  | notStarted reason => exact iff_of_true (isAnswered_failed _) nofun
  | timedOut => exact iff_of_true (isAnswered_failed _) nofun
  | exited code output diagnostics =>
    unfold description
    dsimp only
    split
    · next hcode =>
      refine iff_of_true (isAnswered_failed _) ?_
      rintro _ _ ⟨⟩
      exact absurd rfl hcode
    · next hcode =>
      obtain rfl : code = 0 := not_not.mp hcode
      have hrun : (∀ text words, ProbeRun.exited 0 output diagnostics = .exited 0 text words →
          ∀ fault, Json.read text = .error fault → fault.isOverlong = false) ↔
          ∀ fault, Json.read output = .error fault → fault.isOverlong = false := by
        simp
      rw [hrun]
      cases Json.read output with
      | ok v => exact iff_of_true (isAnswered_ok v) nofun
      | error fault =>
        rw [Except.mapError]
        split
        · next hlong => simp [IsAnswered, hlong]
        · next hshort => simp [IsAnswered, hshort]

/-! ### The duration -/

/-- Whether a text is a part of another, as the definition says. -/
theorem isPart_iff {part cs : List Char} : isPart part cs = true ↔ part <:+: cs := by
  induction cs with
  | nil => simp [isPart]
  | cons c cs ih => simp [isPart, ih, List.infix_cons_iff]

/-- **Seconds**: a number, unless it is an integer that is too large, or a text that spells one. -/
def IsSeconds : Json → Prop
  | .text s => (Numeral.readFloat? s).isSome
  | .int n => (Float.ofInt n).isInf = false
  | .float _ | .bool _ => True
  | _ => False

/-- Seconds, or a text that spells none. -/
def IsSecondsOrText (v : Json) : Prop := IsSeconds v ∨ ∃ s, v = .text s

/-- **The part about the format** says how long the file is, or it does not: a duration that it has
is one as `P` says. A list or a text says nothing as long as the word does not occur in it. -/
def HasDuration (P : Json → Prop) : Json → Prop
  | .object members => ∀ v, Json.find? members "duration" = some v → P v
  | .array items => .text "duration" ∉ items
  | .text s => ¬ "duration".toList <:+: s.toList
  | _ => False

/-- **A description in which the duration is found**, or found to be missing. -/
def GivesDuration (P : Json → Prop) : Json → Prop
  | .object members => HasDuration P ((Json.find? members "format").getD (.object []))
  | _ => False

theorem isAnswered_milliseconds_iff {v : Json} : IsAnswered (milliseconds v) ↔ IsSeconds v := by
  cases v with
  | text s =>
    unfold milliseconds IsSeconds
    dsimp only
    cases Numeral.readFloat? s <;> simp [IsAnswered]
  | int n =>
    unfold milliseconds IsSeconds
    dsimp only
    cases (Float.ofInt n).isInf <;> simp [IsAnswered]
  | _ => simp [milliseconds, IsSeconds, IsAnswered]

/-- The duration in an object that describes the format. -/
theorem formatDuration_object {ms fs : List (String × Json)}
    (h : (Json.find? ms "format").getD (.object []) = .object fs) :
    formatDuration (.object ms) =
      match Json.find? fs "duration" with
      | none => .ok none
      | some v => some <$> milliseconds v := by
  have hpart : formatDuration (.object ms) =
      if fs.any (·.1 = "duration") then
        some <$> milliseconds ((Json.find? fs "duration").getD .null)
      else .ok none := by
    simp only [formatDuration, h, pure_bind]
    rfl
  have hany : fs.any (·.1 = "duration") = (Json.find? fs "duration").isSome := by
    rw [Bool.eq_iff_iff]
    simp [Json.find?]
  rw [hpart, hany]
  cases Json.find? fs "duration" <;> rfl

theorem mentions_array (items : List Json) (name : String) :
    ∃ found, mentions (.array items) name = .ok found ∧ (found = true ↔ .text name ∈ items) := by
  refine ⟨_, rfl, ?_⟩
  rw [List.any_eq_true]
  constructor
  · rintro ⟨v, hv, hname⟩
    split at hname
    · obtain rfl := of_decide_eq_true hname
      exact hv
    · cases hname
  · intro hmem
    exact ⟨_, hmem, decide_eq_true rfl⟩

theorem mentions_text (s name : String) :
    ∃ found, mentions (.text s) name = .ok found ∧ (found = true ↔ name.toList <:+: s.toList) :=
  ⟨_, rfl, isPart_iff⟩

/-- A list or a text in the place of the object that describes the format. -/
theorem formatDuration_not_object {ms : List (String × Json)} {part : Json} {found : Bool}
    (hpart : (Json.find? ms "format").getD (.object []) = part) (hobject : ¬ IsObject part)
    (hfound : mentions part "duration" = .ok found) :
    ∃ m, formatDuration (.object ms) = if found then .error (.wrongType m) else .ok none := by
  cases part with
  | object fs => exact absurd ⟨fs, rfl⟩ hobject
  | array items =>
    simp only [formatDuration, hpart, pure_bind, hfound]
    cases found with
    | false => exact ⟨"", rfl⟩
    | true => exact ⟨_, rfl⟩
  | text s =>
    simp only [formatDuration, hpart, pure_bind, hfound]
    cases found with
    | false => exact ⟨"", rfl⟩
    | true => exact ⟨_, rfl⟩
  | _ => cases hfound

/-- What is found for the duration: nothing, a shape in which nothing can be looked for, or the
value that is given for it. -/
theorem formatDuration_spec (P : Json → Prop) (description : Json) :
    (formatDuration description = .ok none ∧ GivesDuration P description) ∨
    ((∃ m, formatDuration description = .error (.noMembers m) ∨
        formatDuration description = .error (.wrongType m)) ∧ ¬ GivesDuration P description) ∨
    ∃ v, formatDuration description = some <$> milliseconds v ∧
      (GivesDuration P description ↔ P v) := by
  cases description with
  | object ms =>
    rw [GivesDuration]
    generalize hpart : (Json.find? ms "format").getD (.object []) = part
    -- A list or a text has no members, but the word may occur in it.
    have hword {found : Bool} (hobject : ¬ IsObject part)
        (hmentions : mentions part "duration" = .ok found)
        (hshape : HasDuration P part ↔ ¬ found = true) :
        (formatDuration (.object ms) = .ok none ∧ HasDuration P part) ∨
        ((∃ m, formatDuration (.object ms) = .error (.noMembers m) ∨
          formatDuration (.object ms) = .error (.wrongType m)) ∧ ¬ HasDuration P part) := by
      obtain ⟨m, hvalue⟩ := formatDuration_not_object hpart hobject hmentions
      rw [hvalue, hshape]
      cases found with
      | false => exact .inl ⟨rfl, nofun⟩
      | true => exact .inr ⟨⟨m, .inr rfl⟩, not_not.mpr rfl⟩
    cases part with
    | object fs =>
      rw [formatDuration_object hpart]
      cases hv : Json.find? fs "duration" with
      | none => exact .inl ⟨rfl, by simp [HasDuration, hv]⟩
      | some v => exact .inr (.inr ⟨v, rfl, by simp [HasDuration, hv]⟩)
    | array items =>
      obtain ⟨found, hmentions, hmem⟩ := mentions_array items "duration"
      exact or_assoc.mp (.inl (hword (by simp [IsObject]) hmentions (not_congr hmem).symm))
    | text s =>
      obtain ⟨found, hmentions, hmem⟩ := mentions_text s "duration"
      exact or_assoc.mp (.inl (hword (by simp [IsObject]) hmentions (not_congr hmem).symm))
    | _ =>
      have hvalue : ∃ m, formatDuration (.object ms) = .error (.wrongType m) := by
        simp only [formatDuration, hpart, pure_bind]
        exact ⟨_, rfl⟩
      obtain ⟨m, hm⟩ := hvalue
      exact .inr (.inl ⟨⟨m, .inr hm⟩, id⟩)
  | _ => exact .inr (.inl ⟨⟨_, .inl rfl⟩, id⟩)

theorem isAnswered_formatDuration_iff (description : Json) :
    IsAnswered (formatDuration description) ↔ GivesDuration IsSeconds description := by
  obtain ⟨hvalue, hshape⟩ | ⟨⟨m, hvalue | hvalue⟩, hshape⟩ | ⟨v, hvalue, hshape⟩ :=
    formatDuration_spec IsSeconds description
  · exact iff_of_true (hvalue ▸ isAnswered_ok none) hshape
  · exact iff_of_false (by simp [hvalue, IsAnswered]) hshape
  · exact iff_of_false (by simp [hvalue, IsAnswered]) hshape
  · rw [hvalue, isAnswered_map_iff, isAnswered_milliseconds_iff, hshape]

/-- The result for the duration, without a text that spells no number. -/
def withoutText (x : Except ProbeFault (Option Float)) : Except ProbeFault (Option Float) :=
  match x with
  | .error (.notNumber _) => .ok none
  | result => result

theorem withoutText_milliseconds (v : Json) :
    Succeeds (withoutText (some <$> milliseconds v)) ∧ IsSecondsOrText v ∨
      (∃ fault, withoutText (some <$> milliseconds v) = .error fault ∧ ∀ m, fault ≠ .failed m) ∧
        ¬ IsSecondsOrText v := by
  cases v with
  | text s =>
    refine .inl ⟨?_, .inr ⟨s, rfl⟩⟩
    unfold milliseconds
    dsimp only
    cases Numeral.readFloat? s <;> exact ⟨_, rfl⟩
  | int n =>
    unfold IsSecondsOrText milliseconds IsSeconds
    dsimp only
    cases (Float.ofInt n).isInf with
    | false => exact .inl ⟨⟨_, rfl⟩, .inl rfl⟩
    | true => exact .inr ⟨⟨.tooLarge, rfl, nofun⟩, by simp⟩
  | float x => exact .inl ⟨⟨_, rfl⟩, .inl trivial⟩
  | bool b => exact .inl ⟨⟨_, rfl⟩, .inl trivial⟩
  | _ => exact .inr ⟨⟨.wrongType _, rfl, nofun⟩, by simp [IsSecondsOrText, IsSeconds]⟩

/-- Where a text that spells no number is left out, the duration is found or nothing is prepared for
what is found instead. -/
theorem withoutText_formatDuration (description : Json) :
    Succeeds (withoutText (formatDuration description)) ∧
        GivesDuration IsSecondsOrText description ∨
      (∃ fault, withoutText (formatDuration description) = .error fault ∧ ∀ m, fault ≠ .failed m) ∧
        ¬ GivesDuration IsSecondsOrText description := by
  obtain ⟨hvalue, hshape⟩ | ⟨⟨m, hvalue | hvalue⟩, hshape⟩ | ⟨v, hvalue, hshape⟩ :=
    formatDuration_spec IsSecondsOrText description
  · exact .inl ⟨hvalue ▸ ⟨_, rfl⟩, hshape⟩
  · exact .inr ⟨⟨.noMembers m, by rw [hvalue]; rfl, nofun⟩, hshape⟩
  · exact .inr ⟨⟨.wrongType m, by rw [hvalue]; rfl, nofun⟩, hshape⟩
  · rw [hvalue, hshape]
    exact withoutText_milliseconds v

/-! ### The streams -/

/-- **Streams that are looked through**: objects in a list, or none at all. -/
def GivesStreams (description : Json) : Prop :=
  match description.member? "streams" with
  | none | some (.object []) => True
  | some (.array items) => ∀ stream ∈ items, IsObject stream
  | some (.text s) => s = ""
  | _ => False

/-- An object is looked through as a stream, whatever it has. -/
theorem addStream_object (info : MediaInfo) (members : List (String × Json)) :
    Succeeds (addStream info (.object members)) := by
  unfold addStream
  refine Succeeds.bind ⟨_, rfl⟩ fun kind _ => ?_
  split
  · split
    · exact ⟨_, rfl⟩
    · exact ⟨_, rfl⟩
  · split
    · exact ⟨_, rfl⟩
    · exact ⟨_, rfl⟩
  · exact ⟨_, rfl⟩

theorem isAnswered_addStream_iff (info : MediaInfo) (stream : Json) :
    IsAnswered (addStream info stream) ↔ IsObject stream := by
  cases stream with
  | object members =>
    obtain ⟨later, hlater⟩ := addStream_object info members
    rw [hlater]
    exact iff_of_true (isAnswered_ok later) ⟨members, rfl⟩
  | _ =>
    refine iff_of_false ?_ (by simp [IsObject])
    change ¬ IsAnswered (.error (.noMembers _))
    simp [IsAnswered]

/-- Streams are looked through one by one, up to the first that is no object. -/
theorem isAnswered_foldlM_addStream_iff (streams : List Json) (info : MediaInfo) :
    IsAnswered (streams.foldlM addStream info) ↔ ∀ stream ∈ streams, IsObject stream := by
  induction streams generalizing info with
  | nil => simp [isAnswered_ok, pure, Except.pure]
  | cons stream streams ih =>
    rw [List.foldlM_cons, isAnswered_bind_iff, isAnswered_addStream_iff, List.forall_mem_cons]
    refine and_congr_right ?_
    rintro ⟨members, rfl⟩
    obtain ⟨later, hlater⟩ := addStream_object info members
    rw [hlater]
    simp [ih]

theorem isAnswered_streams_iff (description : Json) (info : MediaInfo) :
    IsAnswered (streams description >>= fun found => found.foldlM addStream info) ↔
      GivesStreams description := by
  rw [isAnswered_bind_iff]
  simp only [isAnswered_foldlM_addStream_iff]
  unfold streams GivesStreams
  generalize description.member? "streams" = part
  rcases part with _ | v
  · simp [isAnswered_ok]
  · cases v with
    | array items => simp [isAnswered_ok]
    | object members =>
      cases members with
      | nil => simp [isAnswered_ok]
      | cons m ms => simp [isAnswered_ok, IsObject]
    | text s =>
      have hchars : (∀ stream ∈ s.toList.map fun c => Json.text (String.singleton c),
          IsObject stream) ↔ s = "" := by
        rw [← String.toList_eq_nil_iff]
        cases s.toList <;> simp [IsObject]
      simpa [isAnswered_ok] using hchars
    | _ => simp [IsAnswered]

/-! ### The readers -/

/-- A run that is answered, and prints a description of some shape if it prints any. -/
def Prints (run : ProbeRun) (shape : Json → Prop) : Prop :=
  IsAnswered run.description ∧ ∀ v, run.description = .ok v → shape v

theorem isAnswered_readDuration_iff (path : String) (run : ProbeRun) :
    IsAnswered (run.readDuration path) ↔ run.Prints (GivesDuration IsSeconds) := by
  rw [readDuration, isAnswered_bind_iff]
  refine and_congr_right fun _ => forall₂_congr fun v _ => ?_
  rw [isAnswered_bind_iff, isAnswered_formatDuration_iff]
  refine and_iff_left fun found _ => ?_
  cases found with
  | none => exact isAnswered_failed _
  | some x => exact isAnswered_ok x

theorem readMedia_eq (path : String) (run : ProbeRun) :
    run.readMedia path = run.description >>= fun v =>
      withoutText (formatDuration v) >>= fun durationMs =>
        (streams v >>= fun found => found.foldlM addStream { durationMs }) >>= fun info =>
          if info.hasVideo || info.hasAudio then pure info
          else throw (.failed ("No audio or video stream found in: " ++ path)) := by
  rw [readMedia]
  congr 1
  funext v
  simp only [bind_assoc]
  rcases formatDuration v with fault | durationMs
  · cases fault <;> rfl
  · rfl

/-- The streams are looked at in spite of a text that spells no number, but of nothing else that is
wrong with the duration. -/
theorem isAnswered_readMedia_iff (path : String) (run : ProbeRun) :
    IsAnswered (run.readMedia path) ↔
      run.Prints fun v => GivesDuration IsSecondsOrText v ∧ GivesStreams v := by
  have hlast (info : MediaInfo) : IsAnswered (if info.hasVideo || info.hasAudio then pure info
      else throw (.failed ("No audio or video stream found in: " ++ path))) := by
    split
    · exact isAnswered_ok info
    · exact isAnswered_failed _
  rw [readMedia_eq, isAnswered_bind_iff]
  refine and_congr_right fun _ => forall₂_congr fun v _ => ?_
  change _ ↔ GivesDuration IsSecondsOrText v ∧ GivesStreams v
  obtain ⟨⟨durationMs, hvalue⟩, hshape⟩ | ⟨⟨fault, hvalue, hfault⟩, hshape⟩ :=
    withoutText_formatDuration v
  · rw [hvalue, and_iff_right hshape]
    refine Iff.trans ?_ (isAnswered_streams_iff v { durationMs })
    change IsAnswered ((streams v >>= fun found => found.foldlM addStream { durationMs }) >>= _) ↔ _
    rw [isAnswered_bind_iff]
    exact and_iff_left fun info _ => hlast info
  · rw [hvalue]
    refine iff_of_false (fun hanswer => ?_) fun h => hshape h.1
    obtain ⟨m, hm⟩ := hanswer fault rfl
    exact hfault m hm

end ProbeRun
end TimelineExport
