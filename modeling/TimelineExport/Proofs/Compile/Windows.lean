import Mathlib.Tactic.FieldSimp
import Mathlib.Tactic.Ring
import TimelineExport.Proofs.Compile.ClipFilters
import TimelineExport.Proofs.Filter.Expression
import TimelineExport.Proofs.Timeline.Accepted
import TimelineExport.Proofs.Timeline.Windows

/-!
# One pair of windows for all routes

A transition may be shown by the filters of a picture, by the fades of its sound, or by the frames
of an overlay. All of them use the two windows of the element, and what the picture shows follows
the progress that an overlay frame reports.

Fades have the windows as their bounds (`Filter.IsFadeOf`). A zoom, a slide or a mask is a formula,
which the engine evaluates again and again; its bounds count for what it comes to. So each formula
is found to be the text of an expression, and its values are what the progress of the transitions
makes of them (`value_branches_eq`, `forall₂_masks`). `Filter.KeepsWindows` says this of one filter,
and `element_sharesWindows` of all routes.
-/

namespace TimelineExport

namespace Element

/-- Whether an element enters with an effect. -/
def enters (e : Element Rat) (effect : Effect) : Bool :=
  e.transitionIn.bind (·.effect) = some effect ∧ 0 < e.inMs

/-- Whether an element leaves with an effect. -/
def leaves (e : Element Rat) (effect : Effect) : Bool :=
  e.transitionOut.bind (·.effect) = some effect ∧ 0 < e.outMs

/-- How much of an element an effect shows on the way in; without the effect it shows all. -/
def shownIn (e : Element Rat) (effect : Effect) (ms : Rat) : Rat :=
  if e.enters effect then e.entryProgress ms else 1

/-- How much of an element an effect shows on the way out. -/
def shownOut (e : Element Rat) (effect : Effect) (ms : Rat) : Rat :=
  if e.leaves effect then e.exitProgress ms else 1

theorem shownIn_of_active {e : Element Rat} {effect : Effect} {ms : Rat}
    (h : e.enters effect ∧ ms < e.inMs) : e.shownIn effect ms = ms / e.inMs := by
  rw [shownIn, if_pos h.1, entryProgress, if_pos h.2]

theorem shownIn_eq_one {e : Element Rat} {effect : Effect} {ms : Rat}
    (h : ¬ (e.enters effect ∧ ms < e.inMs)) : e.shownIn effect ms = 1 := by
  unfold shownIn entryProgress
  split
  · next henters => exact if_neg fun hlt => h ⟨henters, hlt⟩
  · rfl

theorem shownOut_of_active {e : Element Rat} {effect : Effect} {ms : Rat}
    (h : e.leaves effect ∧ e.duration - e.outMs < ms) :
    e.shownOut effect ms = (e.duration - ms) / e.outMs := by
  rw [shownOut, if_pos h.1, exitProgress, if_pos h.2]

theorem shownOut_eq_one {e : Element Rat} {effect : Effect} {ms : Rat}
    (h : ¬ (e.leaves effect ∧ e.duration - e.outMs < ms)) : e.shownOut effect ms = 1 := by
  unfold shownOut exitProgress
  split
  · next hleaves => exact if_neg fun hlt => h ⟨hleaves, hlt⟩
  · rfl

theorem inMs_pos_of_enters {e : Element Rat} {effect : Effect} (h : e.enters effect) :
    0 < e.inMs := (of_decide_eq_true h).2

theorem outMs_pos_of_leaves {e : Element Rat} {effect : Effect} (h : e.leaves effect) :
    0 < e.outMs := (of_decide_eq_true h).2

theorem windowOf_entry (e : Element Rat) (effect : Effect) :
    windowOf effect e.entry = if e.enters effect then some ⟨effect, 0, e.inMs⟩ else none := by
  unfold windowOf entry enters
  rw [Scalar.zero_rat]
  rcases e.transitionIn with - | ⟨- | other, ms⟩
  · simp
  · simp
  · by_cases hpos : 0 < e.inMs
    · by_cases heffect : other = effect
      · simp [hpos, heffect, Window.hasEffect, Option.filter]
      · simp [hpos, heffect, Window.hasEffect, Option.filter]
    · simp [hpos]

theorem windowOf_exit (e : Element Rat) (effect : Effect) :
    windowOf effect e.exit =
      if e.leaves effect then some ⟨effect, e.duration - e.outMs, e.outMs⟩ else none := by
  unfold windowOf exit leaves
  rcases e.transitionOut with - | ⟨- | other, ms⟩
  · simp
  · simp
  · by_cases hpos : 0 < e.outMs
    · by_cases heffect : other = effect
      · simp [hpos, heffect, Window.hasEffect, Option.filter, Scalar.zero_rat]
      · simp [hpos, heffect, Window.hasEffect, Option.filter, Scalar.zero_rat]
    · simp [hpos, Scalar.zero_rat]

end Element

/-! ### Zooms and slides -/

/-- An expression that tells the windows apart: one part for the window at the start, one for the
window at the end, and one for all other times. -/
def branches (v : Variable) (first last : Option (Window Rat))
    (enter leave : Window Rat → Expression) (rest : Expression) : Expression :=
  let tail :=
    match last with
    | some w => .choose (.call .gt (.var v) (.seconds w.startMs)) (leave w) rest
    | none => rest
  match first with
  | some w => .choose (.call .lt (.var v) (.seconds w.lengthMs)) (enter w) tail
  | none => tail

/-- The parts of an expression take turns in the windows. -/
theorem value_branches (e : Element Rat) (effect : Effect) {v : Variable} {m : Moment}
    (hv : v.value m = m.ms / 1000) (enter leave : Window Rat → Expression) (rest : Expression) :
    (branches v (windowOf effect e.entry) (windowOf effect e.exit) enter leave rest).value m =
      if e.enters effect ∧ m.ms < e.inMs then (enter ⟨effect, 0, e.inMs⟩).value m
      else if e.leaves effect ∧ e.duration - e.outMs < m.ms then
        (leave ⟨effect, e.duration - e.outMs, e.outMs⟩).value m
      else rest.value m := by
  have hthousand : (0 : Rat) < 1000 := by norm_num
  have htail : (match windowOf effect e.exit with
      | some w => Expression.choose (.call .gt (.var v) (.seconds w.startMs)) (leave w) rest
      | none => rest).value m =
      if e.leaves effect ∧ e.duration - e.outMs < m.ms then
        (leave ⟨effect, e.duration - e.outMs, e.outMs⟩).value m
      else rest.value m := by
    rw [e.windowOf_exit]
    cases e.leaves effect <;>
      simp [Expression.value, Call.value, hv, div_lt_div_iff_of_pos_right hthousand]
  unfold branches
  dsimp only
  rw [← htail, e.windowOf_entry]
  cases e.enters effect <;>
    simp [Expression.value, Call.value, hv, div_lt_div_iff_of_pos_right hthousand]

/-- **What grows and shrinks in the windows.** Parts that change a value in proportion to what is
not shown yet, or no more, change it so by the progress of the two transitions. -/
theorem value_branches_eq {e : Element Rat} (h : 0 ≤ e.duration) (effect : Effect) {v : Variable}
    {m : Moment} (hv : v.value m = m.ms / 1000) {enter leave : Window Rat → Expression}
    {rest : Expression} {a b c : Rat} (hrest : rest.value m = c)
    (henter : 0 < e.inMs → (enter ⟨effect, 0, e.inMs⟩).value m = c + a * (1 - m.ms / e.inMs))
    (hleave : 0 < e.outMs → (leave ⟨effect, e.duration - e.outMs, e.outMs⟩).value m =
      c + b * (1 - (e.duration - m.ms) / e.outMs)) :
    (branches v (windowOf effect e.entry) (windowOf effect e.exit) enter leave rest).value m =
      c + a * (1 - e.shownIn effect m.ms) + b * (1 - e.shownOut effect m.ms) := by
  rw [value_branches e effect hv]
  by_cases hin : e.enters effect ∧ m.ms < e.inMs
  · -- in the window at the start nothing has begun to leave
    have hout : ¬ (e.leaves effect ∧ e.duration - e.outMs < m.ms) := fun hout =>
      absurd hout.2 (not_lt.mpr (hin.2.le.trans (Element.inMs_le_exitStart h)))
    rw [if_pos hin, Element.shownIn_of_active hin, Element.shownOut_eq_one hout,
      henter (Element.inMs_pos_of_enters hin.1), sub_self, mul_zero, add_zero]
  · rw [if_neg hin, Element.shownIn_eq_one hin, sub_self, mul_zero, add_zero]
    by_cases hout : e.leaves effect ∧ e.duration - e.outMs < m.ms
    · rw [if_pos hout, Element.shownOut_of_active hout,
        hleave (Element.outMs_pos_of_leaves hout.1)]
    · rw [if_neg hout, Element.shownOut_eq_one hout, hrest, sub_self, mul_zero, add_zero]

/-- The zoom of a clip as an expression. -/
def zoomExpression (first last : Option (Window Rat)) : Expression :=
  branches .it first last
    (fun w => .number zoomFactor - .number (zoomFactor - 1) * .var .it / .seconds w.lengthMs)
    (fun w => .whole 1 +
      .number (zoomFactor - 1) * (.var .it - .seconds w.startMs) / .seconds w.lengthMs)
    (.whole 1)

/-- The place of a sliding window as an expression. -/
def slideExpression (width : Nat) (first last : Option (Window Rat)) : Expression :=
  branches .t first last
    (fun w => .whole width * .var .t / .seconds w.lengthMs)
    (fun w => .whole width +
      .whole width * (.var .t - .seconds w.startMs) / .seconds w.lengthMs)
    (.whole width)

theorem text_zoomExpression {settings : ExportSettings} {entry exit : Option (Window Rat)}
    {f : Filter Rat} (h : zoomFilter? settings entry exit = some f) :
    f.name = "zoompan" ∧ ∃ z, f.options.lookup "z" = some (.formula z) ∧
      tokensOf z = (zoomExpression (windowOf .zoom entry) (windowOf .zoom exit)).text := by
  unfold zoomFilter? at h
  generalize windowOf .zoom entry = first at h
  generalize windowOf .zoom exit = last at h
  rcases first with - | w <;> rcases last with - | w'
  · cases h
  · cases h
    exact ⟨rfl, _, rfl, rfl⟩
  · cases h
    exact ⟨rfl, _, rfl, rfl⟩
  · cases h
    exact ⟨rfl, _, rfl, rfl⟩

theorem text_slideExpression {settings : ExportSettings} {entry exit : Option (Window Rat)}
    {f : Filter Rat} (h : f ∈ slideFilters settings entry exit) :
    f.name = "pad" ∨ f.name = "crop" ∧ ∃ x, f.options.lookup "x" = some (.formula x) ∧
      tokensOf x =
        (slideExpression settings.width (windowOf .slide entry) (windowOf .slide exit)).text := by
  unfold slideFilters at h
  generalize windowOf .slide entry = first at h ⊢
  generalize windowOf .slide exit = last at h ⊢
  rcases first with - | w <;> rcases last with - | w'
  · cases h
  all_goals
    simp only [List.mem_cons, List.not_mem_nil, or_false] at h
    rcases h with rfl | rfl
    · exact .inl rfl
    · refine .inr ⟨rfl, _, rfl, ?_⟩
      simp [tokensOf, Piece.tokens, tokensOfText, slideExpression, branches, Expression.text,
        Expression.textAt, Operator.level, Operator.sign, Call.name, Variable.name]

theorem zoomFactor_rat : (zoomFactor : Rat) = 3 / 2 := by
  unfold zoomFactor
  norm_num

section
variable {e : Element Rat}

/-- A zoom enlarges the picture by half of what is not shown. -/
theorem value_zoomExpression (h : 0 ≤ e.duration) (m : Moment) :
    (zoomExpression (windowOf .zoom e.entry) (windowOf .zoom e.exit)).value m =
      1 + (1 - e.shownIn .zoom m.ms) / 2 + (1 - e.shownOut .zoom m.ms) / 2 := by
  refine (value_branches_eq h .zoom (a := 1 / 2) (b := 1 / 2) rfl Nat.cast_one
    (fun hpos => ?_) fun hpos => ?_).trans (by ring)
  · change (zoomFactor : Rat) - (zoomFactor - 1) * (m.ms / 1000) / (e.inMs / 1000) = _
    rw [zoomFactor_rat]
    field_simp
    ring
  · change ((1 : Nat) : Rat) + (zoomFactor - 1) * (m.ms / 1000 - (e.duration - e.outMs) / 1000) /
      (e.outMs / 1000) = _
    rw [zoomFactor_rat]
    field_simp
    ring

/-- A slide moves the window by what is shown on the way in, and on by what is not on the way
out. -/
theorem value_slideExpression (h : 0 ≤ e.duration) (width : Nat) (m : Moment) :
    (slideExpression width (windowOf .slide e.entry) (windowOf .slide e.exit)).value m =
      width * (e.shownIn .slide m.ms + (1 - e.shownOut .slide m.ms)) := by
  refine (value_branches_eq h .slide (a := -width) (b := width) (c := width) rfl rfl
    (fun hpos => ?_) fun hpos => ?_).trans (by ring)
  · change (width : Rat) * (m.ms / 1000) / (e.inMs / 1000) = _
    field_simp
    ring
  · change (width : Rat) + width * (m.ms / 1000 - (e.duration - e.outMs) / 1000) /
      (e.outMs / 1000) = _
    field_simp
    ring

/-! ### Masks -/

/-- How far a mask has uncovered the picture in the window at the start. -/
def entryPart (lengthMs : Rat) : Expression :=
  .call .least (.whole 1) (.var .T / .seconds lengthMs)

/-- How much of the picture a mask has not covered in the window at the end. -/
def exitPart (startMs lengthMs : Rat) : Expression :=
  .whole 1 - .call .greatest (.whole 0) ((.var .T - .seconds startMs) / .seconds lengthMs)

/-- The mask of a wipe that shows some part of the picture. -/
def wipeMask (part : Expression) : Expression := .call .lte (.var .X) (.var .W * part)

/-- The mask of an iris that shows some part of the picture. -/
def irisMask (part : Expression) : Expression :=
  .call .lte (.call .hypot (.var .X - .var .W / .whole 2) (.var .Y - .var .H / .whole 2))
    (.call .hypot (.var .W) (.var .H) / .whole 2 * part)

/-- Whether a wipe that shows some part of the picture shows a pixel. -/
def Moment.wipe (m : Moment) (part : Rat) : Rat := if m.x ≤ m.width * part then 1 else 0

/-- Whether an iris that shows some part of the picture shows a pixel. -/
def Moment.iris (m : Moment) (part : Rat) : Rat :=
  if m.hypot (m.x - m.width / 2) (m.y - m.height / 2) ≤ m.hypot m.width m.height / 2 * part then 1
  else 0

theorem value_entryPart {m : Moment} (hpos : 0 < e.inMs) :
    (entryPart e.inMs).value m = e.entryProgress m.ms := by
  change min ((1 : Nat) : Rat) (m.ms / 1000 / (e.inMs / 1000)) = _
  rw [div_div_div_cancel_right₀ (by norm_num), Nat.cast_one, Element.entryProgress]
  split
  · next hlt => exact min_eq_right ((div_le_one hpos).mpr hlt.le)
  · next hge => exact min_eq_left ((one_le_div hpos).mpr (not_lt.mp hge))

theorem value_exitPart {m : Moment} (hpos : 0 < e.outMs) :
    (exitPart (e.duration - e.outMs) e.outMs).value m = e.exitProgress m.ms := by
  change ((1 : Nat) : Rat) - max ((0 : Nat) : Rat)
    ((m.ms / 1000 - (e.duration - e.outMs) / 1000) / (e.outMs / 1000)) = _
  rw [← sub_div, div_div_div_cancel_right₀ (by norm_num), Nat.cast_one, Nat.cast_zero,
    Element.exitProgress]
  split
  · next hlt =>
    rw [max_eq_right (div_nonneg (by linarith) hpos.le)]
    field_simp
    ring
  · next hge =>
    rw [max_eq_left (div_nonpos_of_nonpos_of_nonneg (by linarith) hpos.le), sub_zero]

theorem value_wipeMask (part : Expression) (m : Moment) :
    (wipeMask part).value m = m.wipe (part.value m) := rfl

theorem value_irisMask (part : Expression) (m : Moment) :
    (irisMask part).value m = m.iris (part.value m) := rfl

/-- A mask shows as much as its part comes to. -/
theorem isFactor_mask {mask : Expression → Expression} {shows : Moment → Rat → Rat}
    (hmask : ∀ part m, (mask part).value m = shows m (part.value m)) {f : Formula Rat}
    {part : Expression} {progress : Moment → Rat} (hf : tokensOf f = (mask part).textAt 3)
    (hpart : ∀ m : Moment, part.value m = progress m) :
    IsFactor f fun m => shows m (progress m) :=
  ⟨mask part, hf, fun m => (hmask part m).trans (congrArg (shows m) (hpart m))⟩

/-- A mask is there exactly if its transition is. -/
theorem forall₂_mask {active : Bool} {w : Window Rat}
    {mask? : Window Rat → Option (Formula Rat)} {f : Formula Rat} {value : Moment → Rat}
    (hmask : mask? w = some f) (hf : active → IsFactor f value) :
    List.Forall₂ IsFactor ((if active then some w else none).bind mask?).toList
      (if active then [value] else []) := by
  cases active with
  | false => exact .nil
  | true =>
    rw [if_pos rfl, if_pos rfl, Option.bind_some, hmask]
    exact .cons (hf rfl) .nil

/-- The masks of a clip, and what they come to. -/
theorem forall₂_masks (e : Element Rat) :
    List.Forall₂ IsFactor
      (((windowOf .wipe e.entry).bind (·.entryMask?)).toList ++
        ((windowOf .wipe e.exit).bind (·.exitMask?)).toList ++
        ((windowOf .iris e.entry).bind (·.entryMask?)).toList ++
        ((windowOf .iris e.exit).bind (·.exitMask?)).toList)
      ((if e.enters .wipe then [fun m : Moment => m.wipe (e.entryProgress m.ms)] else []) ++
        (if e.leaves .wipe then [fun m : Moment => m.wipe (e.exitProgress m.ms)] else []) ++
        (if e.enters .iris then [fun m : Moment => m.iris (e.entryProgress m.ms)] else []) ++
        (if e.leaves .iris then [fun m : Moment => m.iris (e.exitProgress m.ms)] else [])) := by
  simp only [e.windowOf_entry, e.windowOf_exit]
  refine List.rel_append (List.rel_append (List.rel_append ?_ ?_) ?_) ?_
  · exact forall₂_mask rfl fun henters => isFactor_mask value_wipeMask rfl fun _ =>
      value_entryPart (Element.inMs_pos_of_enters henters)
  · exact forall₂_mask rfl fun hleaves => isFactor_mask value_wipeMask rfl fun _ =>
      value_exitPart (Element.outMs_pos_of_leaves hleaves)
  · exact forall₂_mask rfl fun henters => isFactor_mask value_irisMask rfl fun _ =>
      value_entryPart (Element.inMs_pos_of_enters henters)
  · exact forall₂_mask rfl fun hleaves => isFactor_mask value_irisMask rfl fun _ =>
      value_exitPart (Element.outMs_pos_of_leaves hleaves)

theorem prod_map_ite (active : Bool) (value : Moment → Rat) (m : Moment) :
    ((if active then [value] else []).map (· m)).prod = if active then value m else 1 := by
  cases active <;> simp

/-- The opacity of a pixel under the masks of a clip. -/
def Element.maskedAlpha (e : Element Rat) (m : Moment) : Rat :=
  m.alpha m.x m.y *
    ((if e.enters .wipe then m.wipe (e.entryProgress m.ms) else 1) *
      (if e.leaves .wipe then m.wipe (e.exitProgress m.ms) else 1) *
      (if e.enters .iris then m.iris (e.entryProgress m.ms) else 1) *
      (if e.leaves .iris then m.iris (e.exitProgress m.ms) else 1))

/-- The opacity of a pixel is what it was, times all masks. -/
theorem hasValue_maskFilters {e : Element Rat} {f : Filter Rat}
    (h : f ∈ maskFilters e.entry e.exit) :
    f.name = "geq" ∧ ∃ a, f.options.lookup "a" = some (.formula a) ∧
      HasValue a e.maskedAlpha := by
  unfold maskFilters at h
  dsimp only at h
  split at h
  · cases h
  · obtain rfl := List.mem_singleton.mp h
    have hbase : ∀ level ≤ 2, tokensOf [.text "alpha(X,Y)"] =
        (Expression.call .alpha (.var .X) (.var .Y)).textAt level := fun _ _ => rfl
    obtain ⟨x, hx, hvalue⟩ := hasValue_product (forall₂_masks e) hbase
    refine ⟨rfl, _, rfl, x, hx, fun m => ?_⟩
    rw [hvalue m, Element.maskedAlpha]
    simp only [List.map_append, List.prod_append, prod_map_ite]
    rfl

/-! ### Fades -/

/-- **A fade with its bounds**: its direction, when it starts and how long it takes. -/
structure Filter.FadesOver (f : Filter Rat) (direction : String) (startMs lengthMs : Rat) :
    Prop where
  direction : f.options.lookup "t" = some (.text direction)
  start : f.options.lookup "st" = some (.seconds startMs) ∨
    startMs = 0 ∧ f.options.lookup "st" = some (.text "0")
  length : f.options.lookup "d" = some (.seconds lengthMs)

/-- **A fade that keeps to the windows of an element**: from the start on, or up to the end. -/
def Filter.IsFadeOf (e : Element Rat) (f : Filter Rat) : Prop :=
  f.FadesOver "in" 0 e.inMs ∨
    ∃ startMs, f.FadesOver "out" startMs e.outMs ∧ startMs + e.outMs = e.duration

theorem Window.options_of_fade? {direction : String} {start : Arg Rat} {w : Window Rat}
    {f : Filter Rat} (h : w.fade? direction start = some f) :
    f.name = "fade" ∧ f.options.lookup "t" = some (.text direction) ∧
      f.options.lookup "st" = some start ∧ f.options.lookup "d" = some (.seconds w.lengthMs) := by
  unfold fade? at h
  split at h <;> cases h <;> exact ⟨rfl, rfl, rfl, rfl⟩

theorem Element.lengthMs_of_entry {w : Window Rat} (h : e.entry = some w) :
    w.lengthMs = e.inMs := by
  unfold entry at h
  split at h
  · split at h <;> cases h
    rfl
  · cases h

theorem Element.window_of_exit {w : Window Rat} (h : e.exit = some w) :
    w.startMs = e.duration - e.outMs ∧ w.lengthMs = e.outMs := by
  unfold exit at h
  split at h
  · split at h <;> cases h
    exact ⟨rfl, rfl⟩
  · cases h

/-- The fades of the picture keep to the windows. -/
theorem isFadeOf_of_entry {w : Window Rat} {f : Filter Rat} (hw : e.entry = some w)
    (h : w.fade? "in" (.text "0") = some f) : f.name = "fade" ∧ f.IsFadeOf e := by
  obtain ⟨hname, hdirection, hstart, hlength⟩ := Window.options_of_fade? h
  rw [Element.lengthMs_of_entry hw] at hlength
  exact ⟨hname, .inl ⟨hdirection, .inr ⟨rfl, hstart⟩, hlength⟩⟩

theorem isFadeOf_of_exit {w : Window Rat} {f : Filter Rat} (hw : e.exit = some w)
    (h : w.fade? "out" (.seconds w.startMs) = some f) : f.name = "fade" ∧ f.IsFadeOf e := by
  obtain ⟨hname, hdirection, hstart, hlength⟩ := Window.options_of_fade? h
  obtain ⟨hstartMs, hlengthMs⟩ := Element.window_of_exit hw
  rw [hlengthMs] at hlength
  exact ⟨hname, .inr ⟨w.startMs, ⟨hdirection, .inl hstart, hlength⟩, by
    rw [hstartMs, sub_add_cancel]⟩⟩

/-- The fades of the sound keep to the windows. -/
theorem isFadeOf_of_mem_fades {sources : List String} {clip : AudioClip Rat}
    (hclip : audioClip sources e = .ok clip) {f : Filter Rat} (hf : f ∈ clip.fades) :
    f.IsFadeOf e := by
  obtain ⟨index, -, hclip⟩ := bind_eq_ok.mp hclip
  cases hclip
  obtain hf | hf := List.mem_append.mp hf <;> split at hf
  · obtain rfl := List.mem_singleton.mp hf
    exact .inl ⟨rfl, .inr ⟨rfl, rfl⟩, rfl⟩
  · cases hf
  · obtain rfl := List.mem_singleton.mp hf
    exact .inr ⟨e.duration - e.outMs, ⟨rfl, .inl rfl, rfl⟩, sub_add_cancel _ _⟩
  · cases hf

/-- All fades of a clip with sound are among its two. -/
theorem meets_fades (sampleRate : Int) (c : AudioClip Rat) :
    Meets (c.filters sampleRate) (fun fs => ∀ f ∈ fs, f.name = "afade" → f ∈ c.fades)
      fun _ => True := by
  refine (Meets.trivially _).bind fun stages _ _ => ?_
  have hdelay : Meets (c.delay sampleRate) (fun fs => ∀ f ∈ fs, f.name = "adelay")
      fun _ => True := by
    unfold AudioClip.delay
    split
    · split
      · simp [Meets]
      · trivial
    · simp [Meets]
  refine hdelay.bind fun delay _ hdelay => ?_
  intro f hf hname
  simp only [List.mem_append, List.mem_cons, List.not_mem_nil, or_false, List.mem_map] at hf
  rcases hf with (((((rfl | rfl | rfl) | ⟨stage, -, rfl⟩) | rfl) | hf) | hf) | hf
  · simp at hname
  · simp at hname
  · simp at hname
  · simp at hname
  · simp [cutAudio] at hname
  · split at hf
    · cases hf
    · obtain rfl := List.mem_singleton.mp hf
      simp at hname
  · exact hf
  · simp [hdelay f hf] at hname

/-! ### The filters of a clip -/

/-- **A filter that keeps to the windows of an element**, if it shows a transition: a fade has their
bounds, and the formula of a zoom, a slide or a mask comes to what the progress of the transitions
makes of it. -/
structure Filter.KeepsWindows (settings : ExportSettings) (e : Element Rat) (f : Filter Rat) :
    Prop where
  fade : f.name = "fade" → f.IsFadeOf e
  zoom : f.name = "zoompan" → ∃ z, f.options.lookup "z" = some (.formula z) ∧
    HasValue z fun m => 1 + (1 - e.shownIn .zoom m.ms) / 2 + (1 - e.shownOut .zoom m.ms) / 2
  slide : f.name = "crop" → ∀ arg, f.options.lookup "x" = some arg → ∃ x, arg = .formula x ∧
    HasValue x fun m => settings.width * (e.shownIn .slide m.ms + (1 - e.shownOut .slide m.ms))
  mask : f.name = "geq" → ∃ a, f.options.lookup "a" = some (.formula a) ∧
    HasValue a e.maskedAlpha

/-- A filter that shows no transition. -/
def Filter.IsSteady (f : Filter Rat) : Prop :=
  f.name ∉ ["fade", "zoompan", "geq"] ∧ f.options.lookup "x" = none

theorem Filter.IsSteady.keepsWindows {settings : ExportSettings} {f : Filter Rat} (h : f.IsSteady) :
    f.KeepsWindows settings e where
  fade hname := absurd (by simp [hname]) h.1
  zoom hname := absurd (by simp [hname]) h.1
  slide _ arg harg := absurd harg (by simp [h.2])
  mask hname := absurd (by simp [hname]) h.1

/-- The filters of the transitions keep to the windows. -/
theorem keepsWindows_of_mem_transitionFilters (h : 0 ≤ e.duration) (settings : ExportSettings) :
    ∀ f ∈ e.transitionFilters settings, f.KeepsWindows settings e := by
  intro f hf
  simp only [Element.transitionFilters, List.mem_append, Option.mem_toList,
    Option.bind_eq_some_iff] at hf
  rcases hf with (((⟨w, hw, hf⟩ | ⟨w, hw, hf⟩) | hf) | hf) | hf
  · obtain ⟨hname, hfade⟩ := isFadeOf_of_entry hw hf
    exact ⟨fun _ => hfade, by simp [hname], by simp [hname], by simp [hname]⟩
  · obtain ⟨hname, hfade⟩ := isFadeOf_of_exit hw hf
    exact ⟨fun _ => hfade, by simp [hname], by simp [hname], by simp [hname]⟩
  · obtain ⟨hname, z, hz, htext⟩ := text_zoomExpression hf
    exact ⟨by simp [hname], fun _ => ⟨z, hz, _, htext, fun m => value_zoomExpression h m⟩,
      by simp [hname], by simp [hname]⟩
  · obtain hname | ⟨hname, x, hx, htext⟩ := text_slideExpression hf
    · exact ⟨by simp [hname], by simp [hname], by simp [hname], by simp [hname]⟩
    · refine ⟨by simp [hname], by simp [hname], fun _ arg harg => ?_, by simp [hname]⟩
      obtain rfl := Option.some.inj (harg.symm.trans hx)
      exact ⟨x, rfl, _, htext, fun m => value_slideExpression h settings.width m⟩
  · obtain ⟨hname, ha⟩ := hasValue_maskFilters hf
    exact ⟨by simp [hname], by simp [hname], by simp [hname], fun _ => ha⟩

theorem isSteady_of_mem_sourceFilters (settings : ExportSettings) :
    ∀ f ∈ e.sourceFilters settings, f.IsSteady := by
  unfold Element.sourceFilters
  split
  · exact List.forall_mem_cons.mpr
      ⟨⟨by simp, rfl⟩, List.forall_mem_singleton.mpr ⟨by simp, rfl⟩⟩
  · exact List.forall_mem_cons.mpr
      ⟨⟨by simp, rfl⟩, List.forall_mem_singleton.mpr ⟨by simp, rfl⟩⟩

theorem isSteady_of_mem_opacityFilters : ∀ f ∈ e.opacityFilters, f.IsSteady := by
  unfold Element.opacityFilters
  split <;> simp [Filter.IsSteady]

theorem isSteady_of_mem_leadIn (gapMs : Rat) : ∀ f ∈ Element.leadIn gapMs, f.IsSteady := by
  unfold Element.leadIn
  split
  · exact List.forall_mem_singleton.mpr ⟨by simp, rfl⟩
  · exact fun _ hf => absurd hf List.not_mem_nil

theorem meets_fitFilters_steady (settings : ExportSettings) :
    Meets (e.fitFilters settings) (fun fs => ∀ f ∈ fs, f.IsSteady) fun _ => True := by
  refine (Meets.trivially _).bind fun width _ _ => (Meets.trivially _).bind fun height _ _ => ?_
  intro f hf
  simp only [List.mem_append, List.mem_cons, List.not_mem_nil, or_false] at hf
  rcases hf with (rfl | hf) | rfl | rfl
  · exact ⟨by simp, rfl⟩
  · split at hf
    · obtain rfl := List.mem_singleton.mp hf
      exact ⟨by simp, rfl⟩
    · cases hf
  · exact ⟨by simp, rfl⟩
  · exact ⟨by simp, rfl⟩

/-- The filters of a segment keep to the windows. -/
theorem meets_segmentFilters_keepsWindows (h : 0 ≤ e.duration) (settings : ExportSettings)
    (gapMs : Rat) :
    Meets (e.segmentFilters settings gapMs) (fun fs => ∀ f ∈ fs, f.KeepsWindows settings e)
      fun _ => True := by
  refine (meets_fitFilters_steady settings).bind fun fit _ hfit => ?_
  intro f hf
  simp only [List.mem_append, List.mem_cons, List.not_mem_nil, or_false] at hf
  rcases hf with (((((((hf | rfl) | hf) | rfl) | hf) | hf) | rfl | rfl) | hf)
  · exact (isSteady_of_mem_sourceFilters settings f hf).keepsWindows
  · exact Filter.IsSteady.keepsWindows ⟨by simp, rfl⟩
  · exact (hfit f hf).keepsWindows
  · exact Filter.IsSteady.keepsWindows ⟨by simp, rfl⟩
  · exact (isSteady_of_mem_opacityFilters f hf).keepsWindows
  · exact keepsWindows_of_mem_transitionFilters h settings f hf
  · exact Filter.IsSteady.keepsWindows ⟨by simp, rfl⟩
  · exact Filter.IsSteady.keepsWindows ⟨by simp, rfl⟩
  · exact (isSteady_of_mem_leadIn gapMs f hf).keepsWindows

end

/-! ### All routes -/

/-- **A frame that keeps to the windows of an element**: it reports the transition in whose window
it lies, with its progress, and no other. -/
structure Element.ReportsWindows (e : Element Rat) (t : Rat) : Prop where
  entry : t - e.startMs ∈ e.entryWindow → ∃ x, e.transitionIn = some x ∧
    e.activeTransitions t = [(x, e.entryProgress (t - e.startMs))]
  exit : t - e.startMs ∈ e.exitWindow → ∃ x, e.transitionOut = some x ∧
    e.activeTransitions t = [(x, e.exitProgress (t - e.startMs))]
  between : t - e.startMs ∉ e.entryWindow → t - e.startMs ∉ e.exitWindow →
    e.activeTransitions t = []
  atMostOne : (e.activeTransitions t).length ≤ 1
  progress : ∀ active ∈ e.activeTransitions t, active.2 ∈ Set.Icc 0 1

/-- Frames keep to the windows while the element lasts. -/
theorem Element.reportsWindows {e : Element Rat} (h : 0 ≤ e.duration) {t : Rat}
    (hstart : e.startMs ≤ t) (hend : t ≤ e.endMs) : e.ReportsWindows t := by
  have hentry := activeTransitions_of_mem_entryWindow (t := t) h
  have hexit := activeTransitions_of_mem_exitWindow (t := t) h
  have hbetween := activeTransitions_eq_nil hstart hend
  have hreport : e.activeTransitions t = [] ∨ ∃ x p, e.activeTransitions t = [(x, p)] ∧
      p ∈ Set.Icc 0 1 := by
    by_cases hin : t - e.startMs ∈ e.entryWindow
    · obtain ⟨x, -, hactive⟩ := hentry hin
      exact .inr ⟨x, _, hactive, entryProgress_mem (sub_nonneg.mpr hstart)⟩
    · by_cases hout : t - e.startMs ∈ e.exitWindow
      · obtain ⟨x, -, hactive⟩ := hexit hout
        exact .inr ⟨x, _, hactive, exitProgress_mem (sub_le_sub_right hend _)⟩
      · exact .inl (hbetween hin hout)
  refine ⟨hentry, hexit, hbetween, ?_, ?_⟩
  · obtain hnil | ⟨x, p, hactive, -⟩ := hreport
    · simp [hnil]
    · simp [hactive]
  · obtain hnil | ⟨x, p, hactive, hp⟩ := hreport
    · simp [hnil]
    · simpa [hactive] using hp

/-- **One pair of windows for all routes.** The windows are short and lie apart inside the element;
the picture and the sound of a clip keep to them, and so do the frames of the overlay. -/
structure Element.SharesWindows (settings : ExportSettings) (e : Element Rat) : Prop where
  entry_le : 0 ≤ e.inMs ∧ e.inMs ≤ e.duration / 3
  exit_le : 0 ≤ e.outMs ∧ e.outMs ≤ e.duration / 3
  apart : Disjoint e.entryWindow e.exitWindow
  inside : e.entryWindow ∪ e.exitWindow ⊆ Set.Icc 0 e.duration
  picture : ∀ gapMs fs, e.segmentFilters settings gapMs = .ok fs →
    ∀ f ∈ fs, f.KeepsWindows settings e
  sound : ∀ sources clip sampleRate fs, audioClip sources e = .ok clip →
    clip.filters sampleRate = .ok fs → ∀ f ∈ fs, f.name = "afade" → f.IsFadeOf e
  overlay : ∀ t, e.startMs ≤ t → t < e.endMs → e.ReportsWindows t

/-- **Every route shows the transitions of an element in the same windows**, whatever transitions
it has. -/
theorem element_sharesWindows (settings : ExportSettings) {e : Element Rat}
    (h : e.startMs < e.endMs) : e.SharesWindows settings := by
  have hduration : 0 ≤ e.duration := sub_nonneg.mpr h.le
  exact {
    entry_le := ⟨e.transitionMs_nonneg _, Element.inMs_le_third hduration⟩
    exit_le := ⟨e.transitionMs_nonneg _, Element.outMs_le_third hduration⟩
    apart := Element.disjoint_windows hduration
    inside := Element.windows_subset hduration
    picture := fun gapMs _ hfs =>
      (meets_segmentFilters_keepsWindows hduration settings gapMs).of_eq_ok hfs
    sound := fun _ clip sampleRate _ hclip hfs f hf hname =>
      isFadeOf_of_mem_fades hclip ((meets_fades sampleRate clip).of_eq_ok hfs f hf hname)
    overlay := fun _ hstart hend => Element.reportsWindows hduration hstart hend.le }

/-- A short clip that zooms in and slides out, each for longer than a third of it. -/
def hurriedClip : Element Rat :=
  { (Element.plain .video "clip" "main" "a.mp4" 1000 1900 : Element Rat) with
    transitionIn := some ⟨some .zoom, 600⟩
    transitionOut := some ⟨some .slide, 600⟩ }

/-- The transitions of a short clip are cut to its thirds on every route. -/
theorem hurriedClip_sharesWindows :
    hurriedClip.startMs < hurriedClip.endMs ∧ hurriedClip.SharesWindows {} ∧
      hurriedClip.inMs = 300 ∧ hurriedClip.outMs = 300 ∧
      (hurriedClip.transitionFilters {}).map (·.name) = ["fade", "zoompan", "pad", "crop"] ∧
      (hurriedClip.activeTransitions 1150).map (·.2) = [1 / 2] := by
  have hspan : hurriedClip.startMs < hurriedClip.endMs := by decide +kernel
  exact ⟨hspan, element_sharesWindows {} hspan, by decide +kernel, by decide +kernel,
    by decide +kernel, by decide +kernel⟩

end TimelineExport
