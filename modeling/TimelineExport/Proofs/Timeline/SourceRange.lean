import TimelineExport.Proofs.Number.Rational
import TimelineExport.Proofs.Timeline.Exportable

/-!
# Source ranges of accepted timelines

A source range that fills the span of its element (`Element.FillsSpan`) keeps the clips behind it in
place. Validation compares a range with the span only if both ends are given, and what is played is
the range with its defaults. The default of the end fills the span by itself, so the range of an
accepted element fills its span unless its end alone is given; then it may be of any length
(`validate_endOnly`). So the ends that are given decide whether validation vouches for a range
(`accepted_ranges_fill_iff`).
-/

namespace TimelineExport

/-- Whether the range of the source that is consumed takes the span of an element at its speed, up
to the source time of one frame or up to a millisecond. -/
def Element.FillsSpan (settings : ExportSettings) (e : Element Rat) : Prop :=
  |e.sourceRange.2 - e.sourceRange.1 - e.duration * e.speed| ≤ max 1 (settings.frameMs * e.speed)

namespace Element

variable {e : Element Rat}

/-- The default of the end fills the span. -/
theorem fillsSpan_of_sourceEndMs_eq_none (settings : ExportSettings) (h : e.sourceEndMs = none) :
    e.FillsSpan settings := by
  have hrange : e.sourceRange.2 = e.sourceRange.1 + e.duration * e.speed := by
    unfold sourceRange
    rw [h]
    rfl
  rw [FillsSpan, hrange, add_sub_cancel_left, sub_self, abs_zero]
  exact zero_le_one.trans (le_max_left _ _)

/-- **The range of an accepted element** fills its span, unless its end alone is given. -/
theorem Accepted.fillsSpan {tracks : List Track} {settings : ExportSettings}
    (h : e.Accepted tracks settings) (htimed : e.kind.isTimed)
    (hends : e.sourceEndMs.isSome → e.sourceStartMs.isSome) : e.FillsSpan settings := by
  cases hlast : e.sourceEndMs with
  | none => exact fillsSpan_of_sourceEndMs_eq_none settings hlast
  | some last =>
    obtain ⟨first, hfirst⟩ := Option.isSome_iff_exists.mp (hends (Option.isSome_of_eq_some hlast))
    have hfills := h.sourceRange_fills htimed first hfirst last hlast
    have hrange : e.sourceRange = (first, last) := by
      unfold sourceRange
      rw [hfirst, hlast]
      rfl
    rw [Scalar.magnitude_rat, rangeTolerance_rat, gt_iff_lt, not_lt] at hfills
    rwa [FillsSpan, hrange]

end Element

/-! ### Ranges of which the end alone is given -/

/-- A video of a second that gives the end of its range alone. -/
def endOnly (lastMs : Rat) : Element Rat :=
  { (Element.plain .video "clip" "main" "a.mp4" 0 1000 : Element Rat) with
    sourceEndMs := some lastMs }

theorem sourceRange_endOnly (lastMs : Rat) : (endOnly lastMs).sourceRange = (0, lastMs) :=
  Prod.ext Scalar.zero_rat rfl

theorem speed_endOnly (lastMs : Rat) : (endOnly lastMs).speed = 1 :=
  (Scalar.ofNat_rat 1).trans Nat.cast_one

/-- Validation takes any end that is not the start of the file. -/
theorem validate_endOnly {lastMs : Rat} (h : 0 < lastMs) :
    validate [endOnly lastMs] [{ id := "main" }] {} = .ok () := by
  have hclip : (endOnly lastMs).IsExportable [{ id := "main" }] {} := by
    refine ⟨⟨_, List.mem_singleton_self _, rfl⟩, le_rfl, by norm_num [endOnly, Element.plain],
      fun _ => nofun, fun _ => ?_, fun _ => ?_, fun _ => nofun, fun _ => ⟨"a.mp4", rfl, by decide⟩⟩
    · rw [sourceRange_endOnly]
      exact h
    · rw [speed_endOnly]
      norm_num
  refine (validate_eq_ok_iff _ _ _).mpr (accepted_iff_isExportable.mpr
    ⟨List.cons_ne_nil _ _, List.forall_mem_singleton.mpr hclip, fun i j hne e he f hf => ?_⟩)
  have hi := List.getElem?_singleton.symm.trans he
  have hj := List.getElem?_singleton.symm.trans hf
  split at hi
  · split at hj
    · omega
    · cases hj
  · cases hi

theorem fillsSpan_endOnly_iff {lastMs : Rat} :
    (endOnly lastMs).FillsSpan {} ↔ |lastMs - 1000| ≤ 100 / 3 := by
  have htolerance : max 1 ((ExportSettings.frameMs {} : Rat) * 1) = 100 / 3 := by
    decide +kernel
  have hduration : (endOnly lastMs).duration = 1000 := by
    norm_num [Element.duration, endOnly, Element.plain]
  rw [Element.FillsSpan, sourceRange_endOnly, speed_endOnly, htolerance, hduration, sub_zero,
    mul_one]

/-- **Validation vouches for the ranges** of the elements that give certain ends of theirs, exactly
if these are not the end alone. -/
theorem accepted_ranges_fill_iff (givesStart givesEnd : Bool) :
    (∀ (es : List (Element Rat)) (tracks : List Track) (settings : ExportSettings),
        validate es tracks settings = .ok () → ∀ e ∈ es, e.kind.isTimed →
          e.sourceStartMs.isSome = givesStart → e.sourceEndMs.isSome = givesEnd →
            e.FillsSpan settings) ↔
      (givesEnd = true → givesStart = true) := by
  constructor
  · rintro h rfl
    by_contra hstart
    rw [Bool.not_eq_true] at hstart
    subst hstart
    have hfills := h [endOnly 500] _ {} (validate_endOnly (by norm_num)) _
      (List.mem_singleton_self _) rfl rfl rfl
    rw [fillsSpan_endOnly_iff] at hfills
    norm_num at hfills
  · intro hends es tracks settings hvalid e he htimed hstart hend
    have haccepted := (validate_eq_ok_iff es tracks settings).mp hvalid
    refine (haccepted.elements e he).fillsSpan htimed fun hsome => ?_
    rw [hstart]
    exact hends (hend ▸ hsome)

/-- Half a second of source is taken for a video of a second. -/
theorem half_range_accepted :
    validate [endOnly 500] [{ id := "main" }] {} = .ok () ∧ (endOnly 500).kind.isTimed ∧
      ¬ (endOnly 500).FillsSpan {} := by
  refine ⟨validate_endOnly (by norm_num), rfl, ?_⟩
  rw [fillsSpan_endOnly_iff]
  norm_num

end TimelineExport
