import TimelineExport.Proofs.Number.Rational
import TimelineExport.Proofs.Timeline.Accepted

/-!
# Exportable timelines

On rational times `IsExportable` says what it takes for a timeline to be exported, in the usual
comparisons and without an order of its elements: any two pictures of one track are apart in time.
Validation sorts the pictures of each track by their starts and looks at neighbours only. That is
enough (`isSuccessive_iff_pairwise`), so it accepts exactly the exportable timelines
(`validate_eq_ok_iff_isExportable`).
-/

namespace TimelineExport

/-- One of two elements ends no later than the other starts. -/
def AreApart (e f : Element Rat) : Prop := e.endMs ≤ f.startMs ∨ f.endMs ≤ e.startMs

theorem AreApart.symm {e f : Element Rat} (h : AreApart e f) : AreApart f e := Or.symm h

/-! ### Pictures of one track -/

theorem sortByStart_pairwise (clips : List (Element Rat)) :
    (sortByStart clips).Pairwise fun e f => e.startMs ≤ f.startMs := by
  have hsorted : (sortByStart clips).Pairwise fun e f => (!decide (f.startMs < e.startMs)) = true :=
    List.pairwise_mergeSort
      (fun a b c hab hbc => by
        simp only [Bool.not_eq_true', decide_eq_false_iff_not, not_lt] at hab hbc ⊢
        exact hab.trans hbc)
      (fun a b => by
        simp only [Bool.or_eq_true, Bool.not_eq_true', decide_eq_false_iff_not, not_lt]
        exact le_total _ _)
      clips
  exact hsorted.imp fun h => by simpa using h

/-- Clips in the order of their starts that end before their successors start end before all later
ones start. -/
theorem pairwise_ends_of_isChain {clips : List (Element Rat)}
    (hsorted : clips.Pairwise fun e f => e.startMs ≤ f.startMs)
    (hchain : clips.IsChain fun e f => ¬ e.endMs > f.startMs) :
    clips.Pairwise fun e f => e.endMs ≤ f.startMs := by
  induction clips with
  | nil => exact .nil
  | cons e clips ih =>
    obtain ⟨-, hsorted⟩ := List.pairwise_cons.mp hsorted
    refine List.pairwise_cons.mpr ⟨fun g hg => ?_, ih hsorted hchain.tail⟩
    cases clips with
    | nil => cases hg
    | cons f clips =>
      have hnext : e.endMs ≤ f.startMs := not_lt.mp (List.isChain_cons_cons.mp hchain).1
      obtain rfl | hg := List.mem_cons.mp hg
      · exact hnext
      · exact hnext.trans ((List.pairwise_cons.mp hsorted).1 g hg)

/-- **Looking at neighbours is enough**: the clips of a track follow one another exactly if any two
of them are apart. -/
theorem isSuccessive_iff_pairwise {clips : List (Element Rat)}
    (hspan : ∀ e ∈ clips, e.startMs < e.endMs) :
    IsSuccessive clips ↔ clips.Pairwise AreApart := by
  have hsorted := sortByStart_pairwise clips
  rw [← (sortByStart_perm clips).pairwise_iff AreApart.symm]
  constructor
  · intro h
    exact (pairwise_ends_of_isChain hsorted h).imp .inl
  · intro h
    refine (List.Pairwise.imp_of_mem (fun {e f} _ hf hef => ?_) (hsorted.and h)).isChain
    obtain ⟨hstart, hends | hends⟩ := hef
    · exact not_lt.mpr hends
    · -- a later clip that ends before an earlier one starts would have no span
      have hspan := hspan f ((sortByStart_perm clips).mem_iff.mp hf)
      exact absurd (hends.trans hstart) (not_le.mpr hspan)

/-! ### Elements -/

/-- **An exportable element**, on one of the tracks. -/
structure Element.IsExportable (tracks : List Track) (settings : ExportSettings)
    (e : Element Rat) : Prop where
  listed : ∃ t ∈ tracks, t.id = e.trackId
  start_nonneg : 0 ≤ e.startMs
  start_lt_end : e.startMs < e.endMs
  sourceStart_nonneg : e.kind.isTimed → ∀ first ∈ e.sourceStartMs, 0 ≤ first
  sourceRange_nonempty : e.kind.isTimed → e.sourceRange.1 < e.sourceRange.2
  speed_supported : e.kind.isTimed → 1 / 16 ≤ e.speed ∧ e.speed ≤ 16
  /-- A source range with both ends given fills the span, up to the source time of one frame or
  up to a millisecond. -/
  sourceRange_fills : e.kind.isTimed → ∀ first ∈ e.sourceStartMs, ∀ last ∈ e.sourceEndMs,
    |last - first - e.duration * e.speed| ≤ max 1 (settings.frameMs * e.speed)
  hasSource : ¬ e.kind.isText → ∃ path, e.assetSource = some path ∧ path ≠ ""

theorem nonEmpty_isSome_iff {s : Option String} :
    (nonEmpty s).isSome ↔ ∃ path, s = some path ∧ path ≠ "" := by
  cases s with
  | none => simp [nonEmpty]
  | some path => simp [nonEmpty, Option.isSome_filter]

/-- On rational times an element is accepted exactly if it is exportable. -/
theorem Element.accepted_iff_isExportable {tracks : List Track} {settings : ExportSettings}
    {e : Element Rat} : e.Accepted tracks settings ↔ e.IsExportable tracks settings := by
  constructor
  · intro h
    have hstart := h.start_nonneg
    have hfirst := h.sourceStart_nonneg
    have hspeed := h.speed_supported
    have hfills := h.sourceRange_fills
    simp only [Scalar.zero_rat, not_lt, minSpeed_rat, maxSpeed_rat, Scalar.magnitude_rat,
      rangeTolerance_rat, gt_iff_lt] at hstart hfirst hspeed hfills
    exact ⟨h.listed, hstart, not_le.mp h.end_after_start, hfirst,
      fun ht => not_le.mp (h.sourceRange_nonempty ht), hspeed, hfills,
      fun ht => nonEmpty_isSome_iff.mp (h.hasSource ht)⟩
  · intro h
    refine ⟨h.listed, ?_, not_le.mpr h.start_lt_end, ?_,
      fun ht => not_le.mpr (h.sourceRange_nonempty ht), ?_, ?_,
      fun ht => nonEmpty_isSome_iff.mpr (h.hasSource ht)⟩
    · rw [Scalar.zero_rat, not_lt]
      exact h.start_nonneg
    · simp only [Scalar.zero_rat, not_lt]
      exact h.sourceStart_nonneg
    · rw [minSpeed_rat, maxSpeed_rat]
      exact h.speed_supported
    · simp only [Scalar.magnitude_rat, rangeTolerance_rat, gt_iff_lt, not_lt]
      exact h.sourceRange_fills

/-! ### Timelines -/

/-- **An exportable timeline.** -/
structure IsExportable (es : List (Element Rat)) (tracks : List Track)
    (settings : ExportSettings) : Prop where
  nonempty : es ≠ []
  elements : ∀ e ∈ es, e.IsExportable tracks settings
  /-- Any two pictures of one track are apart in time. -/
  apart : ∀ i j : Nat, i ≠ j → ∀ e ∈ es[i]?, ∀ f ∈ es[j]?, e.kind.isPicture → f.kind.isPicture →
    e.trackId = f.trackId → AreApart e f

/-- A symmetric relation holds of all pairs of a list, in their order, exactly if it holds of what
is at any two places. -/
theorem pairwise_iff_forall_ne {β : Type} {R : β → β → Prop} (hsymm : ∀ {x y}, R x y → R y x)
    {xs : List β} :
    xs.Pairwise R ↔ ∀ i j : Nat, i ≠ j → ∀ x ∈ xs[i]?, ∀ y ∈ xs[j]?, R x y := by
  rw [List.pairwise_iff_getElem]
  constructor
  · intro h i j hne x hx y hy
    obtain ⟨hi, rfl⟩ := List.getElem?_eq_some_iff.mp hx
    obtain ⟨hj, rfl⟩ := List.getElem?_eq_some_iff.mp hy
    obtain hlt | hlt := Nat.lt_or_gt_of_ne hne
    · exact h i j hi hj hlt
    · exact hsymm (h j i hj hi hlt)
  · intro h i j hi hj hlt
    exact h i j hlt.ne _ (List.getElem?_eq_getElem hi) _ (List.getElem?_eq_getElem hj)

/-- The pictures of each track are apart exactly if any two pictures of one track are. -/
theorem pairwise_picturesOn_iff {es : List (Element Rat)} :
    (∀ track, (picturesOn es track).Pairwise AreApart) ↔
      ∀ i j : Nat, i ≠ j → ∀ e ∈ es[i]?, ∀ f ∈ es[j]?, e.kind.isPicture → f.kind.isPicture →
        e.trackId = f.trackId → AreApart e f := by
  rw [← pairwise_iff_forall_ne (R := fun e f : Element Rat => e.kind.isPicture →
    f.kind.isPicture → e.trackId = f.trackId → AreApart e f)
    fun h hf he htrack => (h he hf htrack.symm).symm]
  simp only [picturesOn, List.pairwise_filter, beq_iff_eq]
  constructor
  · intro h
    refine List.pairwise_iff_forall_sublist.mpr fun {e f} hsublist he hf htrack => ?_
    exact List.pairwise_iff_forall_sublist.mp (h e.trackId) hsublist he hf rfl htrack.symm
  · intro h track
    refine h.imp fun {e f} hef he hf (htrack : e.trackId = track)
      (htrack' : f.trackId = track) => ?_
    exact hef he hf (htrack.trans htrack'.symm)

theorem accepted_iff_isExportable {es : List (Element Rat)} {tracks : List Track}
    {settings : ExportSettings} : Accepted es tracks settings ↔ IsExportable es tracks settings := by
  have hsuccessive : (∀ e ∈ es, e.IsExportable tracks settings) →
      ((∀ track, IsSuccessive (picturesOn es track)) ↔
        ∀ track, (picturesOn es track).Pairwise AreApart) := fun hes =>
    forall_congr' fun track => isSuccessive_iff_pairwise fun e he =>
      (hes e (List.mem_of_mem_filter (List.mem_of_mem_filter he))).start_lt_end
  constructor
  · intro h
    have hes : ∀ e ∈ es, e.IsExportable tracks settings := fun e he =>
      Element.accepted_iff_isExportable.mp (h.elements e he)
    exact ⟨h.nonempty, hes, pairwise_picturesOn_iff.mp ((hsuccessive hes).mp h.successive)⟩
  · intro h
    exact ⟨h.nonempty, fun e he => Element.accepted_iff_isExportable.mpr (h.elements e he),
      (hsuccessive h.elements).mpr (pairwise_picturesOn_iff.mpr h.apart)⟩

/-- The output of an accepted timeline lasts. -/
theorem Accepted.outputDuration_pos {es : List (Element Rat)} {tracks : List Track}
    {settings : ExportSettings} (h : Accepted es tracks settings) : 0 < outputDuration es := by
  obtain ⟨e, he, hduration⟩ := exists_mem_outputDuration_eq h.nonempty
  have hspan := Element.accepted_iff_isExportable.mp (h.elements e he)
  rw [hduration]
  exact hspan.start_nonneg.trans_lt hspan.start_lt_end

/-- **Validation accepts exactly the exportable timelines**, in whatever order their elements
are. -/
theorem validate_eq_ok_iff_isExportable (es : List (Element Rat)) (tracks : List Track)
    (settings : ExportSettings) :
    validate es tracks settings = .ok () ↔ IsExportable es tracks settings := by
  rw [validate_eq_ok_iff, accepted_iff_isExportable]

end TimelineExport
