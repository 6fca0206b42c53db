import Mathlib.Data.List.Chain
import TimelineExport.Proofs.Outcome
import TimelineExport.Timeline.Validation

/-!
# Accepted timelines

`Accepted` says what it takes for a timeline to be exported, without an order of checks and
without faults; `validate_eq_ok_iff` is its equivalence with the checks. The conditions are stated
in the comparisons of the scalars, so they hold over floating point as well, where a comparison
with an undefined number is false.
-/

namespace TimelineExport

variable {α : Type} [Scalar α]

/-! ### Kinds -/

namespace ElementKind

variable {k : ElementKind}

theorem isMedia_of_isPicture : k.isPicture → k.isMedia := by
  cases k <;> decide

theorem isMedia_of_hasSound : k.hasSound → k.isMedia := by
  cases k <;> decide

theorem not_isText_of_isMedia : k.isMedia → ¬ k.isText := by
  cases k <;> decide

end ElementKind

/-! ### Elements -/

/-- **An accepted element**, on one of the tracks. -/
structure Element.Accepted (tracks : List Track) (settings : ExportSettings) (e : Element α) :
    Prop where
  listed : ∃ t ∈ tracks, t.id = e.trackId
  start_nonneg : ¬ e.startMs < 0
  end_after_start : ¬ e.endMs ≤ e.startMs
  sourceStart_nonneg : e.kind.isTimed → ∀ first ∈ e.sourceStartMs, ¬ first < 0
  sourceRange_nonempty : e.kind.isTimed → ¬ e.sourceRange.2 ≤ e.sourceRange.1
  speed_supported : e.kind.isTimed → minSpeed ≤ e.speed ∧ e.speed ≤ maxSpeed
  /-- A source range with both ends given fills the span, up to the tolerance. -/
  sourceRange_fills : e.kind.isTimed → ∀ first ∈ e.sourceStartMs, ∀ last ∈ e.sourceEndMs,
    ¬ Scalar.magnitude (last - first - e.duration * e.speed) > e.rangeTolerance settings
  hasSource : ¬ e.kind.isText → (nonEmpty e.assetSource).isSome

namespace Element

theorem checkTrack_eq_ok_iff {α : Type} (e : Element α) (tracks : List Track) :
    e.checkTrack tracks = .ok () ↔ ∃ t ∈ tracks, t.id = e.trackId := by
  unfold checkTrack
  split
  · next h => simpa using h
  · next h => simpa using h

variable (e : Element α)

theorem checkTiming_eq_ok_iff :
    e.checkTiming = .ok () ↔ ¬ e.startMs < 0 ∧ ¬ e.endMs ≤ e.startMs ∧
      (e.kind.isTimed → (∀ first ∈ e.sourceStartMs, ¬ first < 0) ∧
        ¬ e.sourceRange.2 ≤ e.sourceRange.1) := by
  unfold checkTiming
  dsimp only
  rw [ite_throw_bind_eq_ok, ite_throw_bind_eq_ok]
  refine and_congr_right fun _ => and_congr_right fun _ => ?_
  split
  · next h =>
    rw [ite_throw_bind_eq_ok, ite_throw_eq_ok, imp_iff_right h]
    refine and_congr ?_ (and_iff_left rfl)
    cases e.sourceStartMs <;> simp
  · next h => exact iff_of_true rfl fun htimed => absurd htimed h

theorem checkSpeed_eq_ok_iff (settings : ExportSettings) :
    e.checkSpeed settings = .ok () ↔
      (e.kind.isTimed → (minSpeed ≤ e.speed ∧ e.speed ≤ maxSpeed) ∧
        ∀ first ∈ e.sourceStartMs, ∀ last ∈ e.sourceEndMs,
          ¬ Scalar.magnitude (last - first - e.duration * e.speed) > e.rangeTolerance settings) := by
  unfold checkSpeed
  dsimp only
  split
  · next h =>
    rw [ite_throw_bind_eq_ok, imp_iff_right h, not_not]
    refine and_congr_right fun _ => ?_
    split
    · next first last hfirst hlast =>
      rw [ite_throw_eq_ok, hfirst, hlast]
      simp only [Option.mem_some_iff, forall_eq']
      exact and_iff_left rfl
    · next hnot =>
      refine iff_of_true rfl fun first hfirst last hlast => ?_
      exact absurd hlast (hnot first last hfirst)
  · next h => exact iff_of_true rfl fun htimed => absurd htimed h

theorem checkSource_eq_ok_iff {α : Type} (e : Element α) :
    e.checkSource = .ok () ↔ (¬ e.kind.isText → (nonEmpty e.assetSource).isSome) := by
  unfold checkSource
  split
  · next h => simp [h]
  · next h =>
    split
    · next hsource => simp [hsource]
    · next hsource => simpa [h] using hsource

/-- The checks of an element accept it exactly if it is accepted. -/
theorem check_eq_ok_iff (tracks : List Track) (settings : ExportSettings) :
    e.check tracks settings = .ok () ↔ e.Accepted tracks settings := by
  have hcheck : e.check tracks settings = .ok () ↔ e.checkTrack tracks = .ok () ∧
      e.checkTiming = .ok () ∧ e.checkSpeed settings = .ok () ∧ e.checkSource = .ok () := by
    rw [check, unit_bind_eq_ok, unit_bind_eq_ok, unit_bind_eq_ok]
  rw [hcheck, checkTrack_eq_ok_iff, checkTiming_eq_ok_iff, checkSpeed_eq_ok_iff,
    checkSource_eq_ok_iff]
  constructor
  · rintro ⟨htrack, ⟨hstart, hend, hrange⟩, hspeed, hsource⟩
    exact ⟨htrack, hstart, hend, fun h => (hrange h).1, fun h => (hrange h).2,
      fun h => (hspeed h).1, fun h => (hspeed h).2, hsource⟩
  · intro h
    exact ⟨h.listed, ⟨h.start_nonneg, h.end_after_start,
      fun ht => ⟨h.sourceStart_nonneg ht, h.sourceRange_nonempty ht⟩⟩,
      fun ht => ⟨h.speed_supported ht, h.sourceRange_fills ht⟩, h.hasSource⟩

end Element

/-- A clip as it is placed without an edit: at its own speed and volume, opaque, and without
transitions. -/
def Element.plain (kind : ElementKind) (id track path : String) (startMs endMs : α) : Element α :=
  { id, kind, trackId := track, startMs, endMs, speed := 1, volume := 1, opacity := 1,
    source := some path, properties := { scale := 1 } }

/-! ### Timelines -/

theorem sortByStart_perm (es : List (Element α)) : (sortByStart es).Perm es :=
  List.mergeSort_perm _ _

/-- The output ends with one of the elements. -/
theorem exists_mem_outputDuration_eq {es : List (Element α)} (h : es ≠ []) :
    ∃ e ∈ es, outputDuration es = e.endMs := by
  have hfold : ∀ (es : List (Element α)) (first : Element α), ∃ e ∈ first :: es,
      es.foldl (fun latest e => Scalar.greatest latest e.endMs) first.endMs = e.endMs := by
    intro es
    induction es with
    | nil => exact fun first => ⟨first, List.mem_singleton_self first, rfl⟩
    | cons e es ih =>
      intro first
      obtain hlatest | hlatest : Scalar.greatest first.endMs e.endMs = first.endMs ∨
          Scalar.greatest first.endMs e.endMs = e.endMs := by
        unfold Scalar.greatest
        split <;> simp
      · obtain ⟨f, hf, heq⟩ := ih first
        exact ⟨f, by simp only [List.mem_cons] at hf ⊢; tauto, by rwa [List.foldl_cons, hlatest]⟩
      · obtain ⟨f, hf, heq⟩ := ih e
        exact ⟨f, List.mem_cons_of_mem first hf, by rwa [List.foldl_cons, hlatest]⟩
  cases es with
  | nil => exact absurd rfl h
  | cons first es => exact hfold es first

/-- The clips of one track, in the order of their starts, end before their successors start. -/
def IsSuccessive (clips : List (Element α)) : Prop :=
  (sortByStart clips).IsChain fun e f => ¬ e.endMs > f.startMs

theorem checkSuccessors_eq_ok_iff (track : String) (es : List (Element α)) :
    checkSuccessors track es = .ok () ↔ es.IsChain fun e f => ¬ e.endMs > f.startMs := by
  induction es with
  | nil => exact iff_of_true rfl .nil
  | cons e es ih =>
    cases es with
    | nil => exact iff_of_true rfl (.singleton e)
    | cons f rest =>
      rw [checkSuccessors, List.isChain_cons_cons, ← ih]
      split
      · next h => simp [h]
      · next h => simp [h]

/-- Groups are found by their keys. -/
theorem mem_groupBy_iff {β κ : Type} [BEq κ] [LawfulBEq κ] {key : β → κ} {xs : List β}
    {p : κ × List β} :
    p ∈ groupBy key xs ↔ (∃ x ∈ xs, key x = p.1) ∧ p.2 = xs.filter fun x => key x == p.1 := by
  obtain ⟨k, ys⟩ := p
  simp only [groupBy, List.mem_map, List.mem_eraseDups, Prod.mk.injEq]
  constructor
  · rintro ⟨k', hk', rfl, rfl⟩
    exact ⟨hk', rfl⟩
  · rintro ⟨hk, rfl⟩
    exact ⟨k, hk, rfl, rfl⟩

/-- A check of each member accepts a list exactly if it accepts every member. -/
theorem forM_eq_ok_iff {ε β : Type} {check : β → Except ε Unit} {xs : List β} :
    xs.forM check = .ok () ↔ ∀ x ∈ xs, check x = .ok () := by
  induction xs with
  | nil => exact iff_of_true rfl fun _ h => absurd h List.not_mem_nil
  | cons x xs ih =>
    have hcons : (x :: xs).forM check = .ok () ↔ check x = .ok () ∧ xs.forM check = .ok () := by
      change (check x >>= fun _ => xs.forM check) = .ok () ↔ _
      exact unit_bind_eq_ok
    rw [hcons, ih, List.forall_mem_cons]

/-- The pictures on a track. -/
def picturesOn {α : Type} (es : List (Element α)) (track : String) : List (Element α) :=
  (es.filter (·.kind.isPicture)).filter (·.trackId == track)

theorem checkOverlaps_eq_ok_iff (es : List (Element α)) :
    checkOverlaps es = .ok () ↔ ∀ track, IsSuccessive (picturesOn es track) := by
  rw [checkOverlaps, forM_eq_ok_iff]
  constructor
  · intro h track
    by_cases hmem : ∃ e ∈ es.filter (·.kind.isPicture), e.trackId = track
    · have hgroup := h (track, picturesOn es track) (mem_groupBy_iff.mpr ⟨hmem, rfl⟩)
      exact (checkSuccessors_eq_ok_iff track _).mp hgroup
    · -- a track without pictures has no group, and nothing on it can overlap
      have hnil : picturesOn es track = [] := by
        rw [picturesOn, List.filter_eq_nil_iff]
        intro e he htrack
        exact hmem ⟨e, he, by simpa using htrack⟩
      rw [IsSuccessive, hnil, sortByStart, List.mergeSort_nil]
      exact .nil
  · rintro h ⟨track, clips⟩ hgroup
    have hclips : clips = picturesOn es track := (mem_groupBy_iff.mp hgroup).2
    subst hclips
    exact (checkSuccessors_eq_ok_iff track _).mpr (h track)

/-- **An accepted timeline.** -/
structure Accepted (es : List (Element α)) (tracks : List Track) (settings : ExportSettings) :
    Prop where
  nonempty : es ≠ []
  elements : ∀ e ∈ es, e.Accepted tracks settings
  successive : ∀ track, IsSuccessive (picturesOn es track)

/-- A timeline that is listed in the order of its starts is accepted if its elements are, and each
ends before all later ones start. -/
theorem Accepted.of_pairwise {es : List (Element α)} {tracks : List Track}
    {settings : ExportSettings} (hne : es ≠ [])
    (hes : ∀ e ∈ es, (e.check tracks settings).isOk = true)
    (hstarts : es.Pairwise fun e f => ¬ f.startMs < e.startMs)
    (hends : es.Pairwise fun e f => ¬ e.endMs > f.startMs) : Accepted es tracks settings := by
  refine ⟨hne, fun e he => ?_, fun track => ?_⟩
  · obtain ⟨_, hcheck⟩ := Succeeds.of_isOk (hes e he)
    exact (e.check_eq_ok_iff tracks settings).mp hcheck
  · have hsorted : sortByStart (picturesOn es track) = picturesOn es track := by
      refine List.mergeSort_of_pairwise (((hstarts.filter _).filter _).imp fun h => ?_)
      simpa using h
    rw [IsSuccessive, hsorted]
    exact ((hends.filter _).filter _).isChain

/-- **Validation accepts exactly the accepted timelines.** -/
theorem validate_eq_ok_iff (es : List (Element α)) (tracks : List Track)
    (settings : ExportSettings) :
    validate es tracks settings = .ok () ↔ Accepted es tracks settings := by
  have hvalidate : validate es tracks settings = .ok () ↔ es ≠ [] ∧
      es.forM (·.check tracks settings) = .ok () ∧ checkOverlaps es = .ok () := by
    unfold validate
    dsimp only
    rw [ite_throw_bind_eq_ok, unit_bind_eq_ok, List.isEmpty_iff]
  rw [hvalidate, forM_eq_ok_iff, checkOverlaps_eq_ok_iff]
  constructor
  · rintro ⟨hne, hes, hoverlaps⟩
    exact ⟨hne, fun e he => (e.check_eq_ok_iff tracks settings).mp (hes e he), hoverlaps⟩
  · intro h
    exact ⟨h.nonempty, fun e he => (e.check_eq_ok_iff tracks settings).mpr (h.elements e he),
      h.successive⟩

end TimelineExport
