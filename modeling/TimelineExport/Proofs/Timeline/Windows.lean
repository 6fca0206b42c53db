import Mathlib.Algebra.Order.Field.Basic
import Mathlib.Order.CompletePartialOrder
import Mathlib.Order.Interval.Set.Basic
import TimelineExport.Overlay.State
import TimelineExport.Proofs.Number.Rational

/-!
# The windows of transitions

A transition at the start of an element is active in `[0, inMs)` and one at the end in
`(duration - outMs, duration]`, in local time. Each is at most a third of the element, so the two
windows lie apart, with a third between them (`disjoint_windows`), whatever the transitions ask for.

The progress of a transition is how much of the element is shown: it grows from zero to one in the
window at the start and falls to zero in the one at the end. An overlay frame reports exactly the
transition in whose window it lies, with its progress (`activeTransitions_of_mem_entryWindow`,
`activeTransitions_of_mem_exitWindow`, `activeTransitions_eq_nil`).
-/

namespace TimelineExport

theorem Scalar.least_rat (a b : Rat) : Scalar.least a b = min a b := by
  unfold least
  split
  · next h => exact (min_eq_right h.le).symm
  · next h => exact (min_eq_left (not_lt.mp h)).symm

namespace Element

/-- When the transition at the start is active, in local time. -/
def entryWindow (e : Element Rat) : Set Rat := Set.Ico 0 e.inMs

/-- When the transition at the end is active, in local time. -/
def exitWindow (e : Element Rat) : Set Rat := Set.Ioc (e.duration - e.outMs) e.duration

/-- How much of an element is shown at a local time, as far as it has entered. -/
def entryProgress (e : Element Rat) (ms : Rat) : Rat := if ms < e.inMs then ms / e.inMs else 1

/-- How much of an element is shown at a local time, as far as it has not left. -/
def exitProgress (e : Element Rat) (ms : Rat) : Rat :=
  if e.duration - e.outMs < ms then (e.duration - ms) / e.outMs else 1

/-! ### Lengths -/

theorem transitionMs_some (e : Element Rat) (t : Transition Rat) :
    e.transitionMs (some t) = max 0 (min t.durationMs (e.duration / 3)) := by
  rw [transitionMs, Scalar.greatest_rat, Scalar.least_rat, Scalar.zero_rat, Scalar.ofNat_rat]

theorem transitionMs_none (e : Element Rat) : e.transitionMs none = 0 := Scalar.zero_rat

theorem transitionMs_nonneg (e : Element Rat) (t : Option (Transition Rat)) :
    0 ≤ e.transitionMs t := by
  cases t with
  | none => exact (e.transitionMs_none).ge
  | some t => exact (e.transitionMs_some t).symm ▸ le_max_left _ _

/-- A transition takes at most a third of its element. -/
theorem transitionMs_le {e : Element Rat} (h : 0 ≤ e.duration) (t : Option (Transition Rat)) :
    e.transitionMs t ≤ e.duration / 3 := by
  have hthird : 0 ≤ e.duration / 3 := by positivity
  cases t with
  | none => exact (e.transitionMs_none).trans_le hthird
  | some t => exact (e.transitionMs_some t).trans_le (max_le hthird (min_le_right _ _))

/-- Only a transition that is there takes time. -/
theorem exists_of_transitionMs_pos {e : Element Rat} {t : Option (Transition Rat)}
    (h : 0 < e.transitionMs t) : ∃ x, t = some x := by
  cases t with
  | none => exact absurd (e.transitionMs_none) h.ne'
  | some x => exact ⟨x, rfl⟩

section
variable {e : Element Rat} (h : 0 ≤ e.duration)
include h

theorem inMs_le_third : e.inMs ≤ e.duration / 3 := transitionMs_le h _

theorem outMs_le_third : e.outMs ≤ e.duration / 3 := transitionMs_le h _

/-- The transition at the start is over when the one at the end begins. -/
theorem inMs_le_exitStart : e.inMs ≤ e.duration - e.outMs := by
  have hin := inMs_le_third h
  have hout := outMs_le_third h
  linarith

/-! ### Windows -/

/-- **The windows of the transitions lie apart.** -/
theorem disjoint_windows : Disjoint e.entryWindow e.exitWindow :=
  Set.disjoint_left.mpr fun _ hentry hexit =>
    absurd (hentry.2.trans_le (inMs_le_exitStart h)) hexit.1.not_gt

theorem windows_subset : e.entryWindow ∪ e.exitWindow ⊆ Set.Icc 0 e.duration := by
  have hin := inMs_le_exitStart h
  have hin' := e.transitionMs_nonneg e.transitionIn
  have hout := e.transitionMs_nonneg e.transitionOut
  rintro ms (hentry | hexit)
  · exact ⟨hentry.1, hentry.2.le.trans (hin.trans (sub_le_self _ hout))⟩
  · exact ⟨(hin'.trans hin).trans hexit.1.le, hexit.2⟩

end

/-- Progress stays between zero and one while the element lasts. -/
theorem entryProgress_mem {e : Element Rat} {ms : Rat} (h : 0 ≤ ms) :
    e.entryProgress ms ∈ Set.Icc 0 1 := by
  unfold entryProgress
  split
  · next hlt => exact ⟨div_nonneg h (h.trans hlt.le), div_le_one_of_le₀ hlt.le (h.trans hlt.le)⟩
  · exact ⟨zero_le_one, le_rfl⟩

theorem exitProgress_mem {e : Element Rat} {ms : Rat} (h : ms ≤ e.duration) :
    e.exitProgress ms ∈ Set.Icc 0 1 := by
  have hout := e.transitionMs_nonneg e.transitionOut
  unfold exitProgress
  split
  · next hlt =>
    exact ⟨div_nonneg (sub_nonneg.mpr h) hout, div_le_one_of_le₀ (by linarith) hout⟩
  · exact ⟨zero_le_one, le_rfl⟩

/-! ### Overlay frames -/

theorem activeTransitions_rat (e : Element Rat) (t : Rat) :
    e.activeTransitions t =
      (if 0 < e.inMs ∧ t < e.startMs + e.inMs then
        e.transitionIn.map fun x => (x, (t - e.startMs) / e.inMs) else none).toList ++
      (if 0 < e.outMs ∧ e.endMs - e.outMs < t then
        e.transitionOut.map fun x => (x, (e.endMs - t) / e.outMs) else none).toList := by
  unfold activeTransitions
  simp only [Scalar.zero_rat, gt_iff_lt, Bool.and_eq_true, decide_eq_true_eq]

section
variable {e : Element Rat} {t : Rat}

/-- In the window at the start a frame reports the transition there. -/
theorem activeTransitions_of_mem_entryWindow (h : 0 ≤ e.duration)
    (hmem : t - e.startMs ∈ e.entryWindow) :
    ∃ x, e.transitionIn = some x ∧
      e.activeTransitions t = [(x, e.entryProgress (t - e.startMs))] := by
  obtain ⟨hnonneg, hlt⟩ := hmem
  have hbefore := inMs_le_exitStart h
  have hduration : e.duration = e.endMs - e.startMs := rfl
  have hpos : 0 < e.inMs := hnonneg.trans_lt hlt
  obtain ⟨x, hx⟩ := exists_of_transitionMs_pos hpos
  refine ⟨x, hx, ?_⟩
  rw [activeTransitions_rat, if_pos ⟨hpos, by linarith⟩, if_neg fun hout => by linarith [hout.2],
    hx, entryProgress, if_pos hlt]
  rfl

/-- In the window at the end a frame reports the transition there. -/
theorem activeTransitions_of_mem_exitWindow (h : 0 ≤ e.duration)
    (hmem : t - e.startMs ∈ e.exitWindow) :
    ∃ x, e.transitionOut = some x ∧
      e.activeTransitions t = [(x, e.exitProgress (t - e.startMs))] := by
  obtain ⟨hlt, hle⟩ := hmem
  have hbefore := inMs_le_exitStart h
  have hduration : e.duration = e.endMs - e.startMs := rfl
  have hpos : 0 < e.outMs := by linarith
  obtain ⟨x, hx⟩ := exists_of_transitionMs_pos hpos
  have hrest : e.duration - (t - e.startMs) = e.endMs - t := by linarith
  refine ⟨x, hx, ?_⟩
  rw [activeTransitions_rat, if_neg fun hin => by linarith [hin.2], if_pos ⟨hpos, by linarith⟩,
    hx, exitProgress, if_pos hlt, hrest]
  rfl

/-- Between the windows a frame reports no transition. -/
theorem activeTransitions_eq_nil (hstart : e.startMs ≤ t) (hend : t ≤ e.endMs)
    (hentry : t - e.startMs ∉ e.entryWindow) (hexit : t - e.startMs ∉ e.exitWindow) :
    e.activeTransitions t = [] := by
  have hduration : e.duration = e.endMs - e.startMs := rfl
  rw [activeTransitions_rat, if_neg, if_neg]
  · rfl
  · rintro ⟨-, hlt⟩
    exact hexit ⟨by linarith, by linarith⟩
  · rintro ⟨-, hlt⟩
    exact hentry ⟨sub_nonneg.mpr hstart, by linarith⟩

end

end Element

end TimelineExport
