import TimelineExport.Overlay.State
import TimelineExport.Proofs.Number.Nearest
import TimelineExport.Proofs.Number.Rational
import TimelineExport.Proofs.Outcome
import TimelineExport.Proofs.Timeline.Accepted

/-!
# Which picture of an animation is shown

The pictures of an animation are shown one after another, each for its own time, and then all over
again. So the picture at a local time is the one in whose interval there lies what is left of the
time after whole rounds (`Sprite.Plays`). The index is found by taking the durations away one after
another; the intervals are sums of durations, and both are compared by induction on the durations
(`inInterval_intervalIndex`). The intervals lie one behind the other, and none of them is empty
(`InInterval.index_mono`, `inInterval_start`); that the pictures come in order, and all of them, is
read off the intervals (`Sprite.IsAnimation.plays_in_rounds`).

Whatever the durations are, the index names a picture of the sprite
(`frameIndex_lt_of_buildSprite`).
-/

namespace TimelineExport

theorem Scalar.total_rat (xs : List Rat) : total xs = xs.sum := by
  rw [total, zero_rat, List.sum_eq_foldl]

/-- What is left of a time after whole rounds. -/
theorem Scalar.modulo_rat {cycle rest : Rat} (k : Nat) (hrest : 0 ≤ rest) (hlt : rest < cycle) :
    modulo (k * cycle + rest) cycle = rest := by
  have hcycle : 0 < cycle := hrest.trans_lt hlt
  have hquotient : (k * cycle + rest) / cycle = k + rest / cycle := by
    rw [add_div, mul_div_cancel_right₀ _ hcycle.ne']
  have hnonneg : 0 ≤ rest / cycle := div_nonneg hrest hcycle.le
  have hone : rest / cycle < 1 := (div_lt_one hcycle).mpr hlt
  have hfloor : ((k * cycle + rest) / cycle).floor = k := by
    rw [hquotient]
    exact floor_eq_of_le_of_lt (by push_cast; linarith) (by push_cast; linarith)
  change k * cycle + rest - cycle * ((k * cycle + rest) / cycle).floor = rest
  rw [hfloor]
  push_cast
  ring

/-! ### Intervals -/

/-- Whether a time lies in the interval of a picture: from the sum of the durations before it on,
up to that sum with its own duration. -/
structure InInterval (durations : List Rat) (i : Nat) (t : Rat) : Prop where
  lt_length : i < durations.length
  start_le : (durations.take i).sum ≤ t
  lt_end : t < (durations.take (i + 1)).sum

section
variable {d t t' : Rat} {ds : List Rat} {i j : Nat}

theorem intervalIndex_cons_cons {α : Type} [Scalar α] (d d' : α) (ds : List α) (t : α) :
    intervalIndex (d :: d' :: ds) t = if t < d then 0 else intervalIndex (d' :: ds) (t - d) + 1 :=
  rfl

theorem inInterval_cons_zero : InInterval (d :: ds) 0 t ↔ 0 ≤ t ∧ t < d := by
  refine ⟨fun h => ⟨by simpa using h.start_le, by simpa using h.lt_end⟩, fun ⟨hstart, hend⟩ => ?_⟩
  exact ⟨Nat.succ_pos _, by simpa using hstart, by simpa using hend⟩

theorem inInterval_cons_succ : InInterval (d :: ds) (i + 1) t ↔ InInterval ds i (t - d) := by
  constructor
  · rintro ⟨hlength, hstart, hend⟩
    rw [List.take_succ_cons, List.sum_cons] at hstart hend
    exact ⟨Nat.lt_of_succ_lt_succ hlength, by linarith, by linarith⟩
  · rintro ⟨hlength, hstart, hend⟩
    refine ⟨Nat.succ_lt_succ hlength, ?_, ?_⟩ <;> rw [List.take_succ_cons, List.sum_cons] <;>
      linarith

/-- **The index names the picture in whose interval the time lies**, if the time is before the end
of them all. -/
theorem inInterval_intervalIndex (ht : 0 ≤ t) (hend : t < ds.sum) :
    InInterval ds (intervalIndex ds t) t := by
  induction ds generalizing t with
  | nil => exact absurd hend (by simpa using ht)
  | cons d ds ih =>
    rcases ds with _ | ⟨d', ds⟩
    · exact inInterval_cons_zero.mpr ⟨ht, by simpa using hend⟩
    · rw [intervalIndex_cons_cons]
      split
      · next hlt => exact inInterval_cons_zero.mpr ⟨ht, hlt⟩
      · next hlt =>
        rw [List.sum_cons] at hend
        exact inInterval_cons_succ.mpr (ih (sub_nonneg.mpr (not_lt.mp hlt)) (by linarith))

theorem sum_take_mono (hpos : ∀ d ∈ ds, 0 < d) (h : i ≤ j) : (ds.take i).sum ≤ (ds.take j).sum :=
  (List.take_prefix_take_left h).sublist.sum_le_sum fun d hd =>
    (hpos d (List.mem_of_mem_take hd)).le

/-- **Intervals lie one behind the other**: of two times the later one does not lie in an interval
before that of the other one. -/
theorem InInterval.index_mono (hpos : ∀ d ∈ ds, 0 < d) (hi : InInterval ds i t)
    (hj : InInterval ds j t') (h : t ≤ t') : i ≤ j := by
  by_contra hlt
  have hends : (ds.take (j + 1)).sum ≤ (ds.take i).sum := sum_take_mono hpos (not_le.mp hlt)
  linarith [hi.start_le, hj.lt_end]

/-- **No interval is empty**: a picture is shown at its start. -/
theorem inInterval_start (hpos : ∀ d ∈ ds, 0 < d) (h : i < ds.length) :
    InInterval ds i (ds.take i).sum := by
  refine ⟨h, le_rfl, ?_⟩
  rw [List.sum_take_succ ds i h]
  linarith [hpos _ (List.getElem_mem h)]

end

/-! ### Valid indexes -/

section
variable {α : Type} [Scalar α]

theorem intervalIndex_lt_length {ds : List α} (hne : ds ≠ []) (t : α) :
    intervalIndex ds t < ds.length := by
  induction ds generalizing t with
  | nil => exact absurd rfl hne
  | cons d ds ih =>
    rcases ds with _ | ⟨d', ds⟩
    · exact Nat.one_pos
    · rw [intervalIndex_cons_cons]
      split
      · exact Nat.succ_pos _
      · exact Nat.succ_lt_succ (ih (List.cons_ne_nil _ _) _)

/-- The index of a sprite names one of its pictures, if there are as many durations. -/
theorem Sprite.frameIndex_lt_length {s : Sprite α}
    (hlength : s.durationsMs.length = s.frames.length) (hne : s.frames ≠ []) (t : α) :
    s.frameIndex t < s.frames.length := by
  have hpos : 0 < s.frames.length := List.length_pos_iff.mpr hne
  rw [frameIndex]
  split
  · exact hpos
  · rw [← hlength] at hpos ⊢
    exact intervalIndex_lt_length (List.length_pos_iff.mp hpos) _

theorem length_of_sourcePictures {painter : Painter α} {files : String → Option (SourceFile α)}
    {canvas : Canvas} {e : Element α} {frames : List Raster} {durations : List α}
    (h : sourcePictures painter files canvas e = .ok (frames, durations)) :
    durations.length = frames.length := by
  unfold sourcePictures at h
  dsimp only at h
  split at h
  · split at h
    · next file _ =>
      obtain ⟨box, -, h⟩ := bind_eq_ok.mp h
      cases file with
      | other => cases h
      | picture p =>
        obtain ⟨pictures, hpictures, h⟩ := bind_eq_ok.mp h
        cases h
        rw [List.length_map, (mapM_eq_ok_iff.mp hpictures).length_eq]
    · cases h
  · cases h

/-- **A sprite that was built shows one of its pictures** at any time. -/
theorem frameIndex_lt_of_buildSprite {painter : Painter α} {face : Typeface α}
    {files : String → Option (SourceFile α)} {canvas : Canvas} {e : Element α} {s : Sprite α}
    (h : buildSprite painter face files canvas e = .ok s) (t : α) :
    s.frameIndex t < s.frames.length := by
  unfold buildSprite at h
  obtain ⟨-, h⟩ := ite_throw_bind_eq_ok.mp h
  dsimp only at h
  split at h
  · obtain ⟨⟨image, margin⟩, -, h⟩ := bind_eq_ok.mp h
    obtain ⟨pictures, hpictures, h⟩ := bind_eq_ok.mp h
    cases hpictures
    obtain ⟨place, -, h⟩ := bind_eq_ok.mp h
    cases h
    exact Sprite.frameIndex_lt_length rfl (List.cons_ne_nil _ _) t
  · obtain ⟨⟨frames, durations⟩, hsource, h⟩ := bind_eq_ok.mp h
    obtain ⟨pictures, hpictures, h⟩ := bind_eq_ok.mp h
    cases hpictures
    dsimp only at h
    split at h
    · next first hfirst =>
      obtain ⟨place, -, h⟩ := bind_eq_ok.mp h
      cases h
      have hne : frames ≠ [] := fun hnil => by
        rw [hnil] at hfirst
        cases hfirst
      exact Sprite.frameIndex_lt_length (length_of_sourcePictures hsource) hne t
    · cases h

end

/-! ### Animations -/

namespace Sprite

/-- An animation: at least one picture, and for each of them a duration. -/
structure IsAnimation (s : Sprite Rat) : Prop where
  length : s.durationsMs.length = s.frames.length
  frames_ne_nil : s.frames ≠ []
  pos : ∀ d ∈ s.durationsMs, 0 < d

/-- How long all pictures of a sprite are shown, one after another. -/
def cycleMs (s : Sprite Rat) : Rat := s.durationsMs.sum

/-- The times of one round, after a number of others. -/
def round (s : Sprite Rat) (k : Nat) : Set Rat := Set.Ico (k * s.cycleMs) ((k + 1) * s.cycleMs)

/-- **How an animation plays.** -/
structure Plays (s : Sprite Rat) : Prop where
  /-- There is a picture at every time. -/
  valid : ∀ t, 0 ≤ t → s.frameIndex t < s.frames.length
  /-- It is the one in whose interval there lies what is left of the time after whole rounds. -/
  shown : ∀ t, 0 ≤ t → ∃ (k : Nat) (rest : Rat), t = k * s.cycleMs + rest ∧ 0 ≤ rest ∧
    rest < s.cycleMs ∧ ∀ i, s.frameIndex t = i ↔ InInterval s.durationsMs i rest
  /-- One round is like another. -/
  periodic : ∀ t, 0 ≤ t → s.frameIndex (t + s.cycleMs) = s.frameIndex t
  /-- In a round, no picture comes before an earlier one. -/
  monotone : ∀ k, MonotoneOn s.frameIndex (s.round k)
  /-- In a round, every picture has its time. -/
  complete : ∀ k, ∀ i < s.frames.length, ∃ t ∈ s.round k, s.frameIndex t = i

namespace IsAnimation

variable {s : Sprite Rat} (h : s.IsAnimation)
include h

theorem durations_ne_nil : s.durationsMs ≠ [] := by
  rw [← List.length_pos_iff, h.length]
  exact List.length_pos_iff.mpr h.frames_ne_nil

theorem cycleMs_pos : 0 < s.cycleMs :=
  List.sum_pos s.durationsMs h.pos h.durations_ne_nil

/-- Whole rounds do not count. -/
theorem frameIndex_add (k : Nat) {rest : Rat} (hrest : 0 ≤ rest) (hlt : rest < s.cycleMs) :
    s.frameIndex (k * s.cycleMs + rest) = intervalIndex s.durationsMs rest := by
  rw [frameIndex]
  split
  · next hone =>
    -- a single picture needs no look at the time
    obtain ⟨d, hd⟩ := List.length_eq_one_iff.mp (h.length.trans hone)
    rw [hd, intervalIndex]
  · have hpos : Scalar.total s.durationsMs > 0 := by
      rw [Scalar.total_rat]
      exact h.cycleMs_pos
    dsimp only
    rw [Scalar.zero_rat, if_pos hpos, Scalar.total_rat, ← cycleMs, Scalar.modulo_rat k hrest hlt]

/-- **The picture that is shown** is the one in whose interval the rest of the time lies. -/
theorem frameIndex_eq_iff (k : Nat) {rest : Rat} (hrest : 0 ≤ rest) (hlt : rest < s.cycleMs)
    (i : Nat) :
    s.frameIndex (k * s.cycleMs + rest) = i ↔ InInterval s.durationsMs i rest := by
  have hshown := inInterval_intervalIndex hrest hlt
  rw [h.frameIndex_add k hrest hlt]
  refine ⟨fun heq => heq ▸ hshown, fun hi => ?_⟩
  exact le_antisymm (hshown.index_mono h.pos hi le_rfl) (hi.index_mono h.pos hshown le_rfl)

/-- A time is a number of whole rounds and a rest. -/
theorem exists_rest {t : Rat} (ht : 0 ≤ t) :
    ∃ (k : Nat) (rest : Rat), t = k * s.cycleMs + rest ∧ 0 ≤ rest ∧ rest < s.cycleMs := by
  have hcycle := h.cycleMs_pos
  have hlow := (le_div_iff₀ hcycle).mp (Nat.floor_le (div_nonneg ht hcycle.le))
  have hhigh := (div_lt_iff₀ hcycle).mp (Nat.lt_floor_add_one (t / s.cycleMs))
  exact ⟨⌊t / s.cycleMs⌋₊, t - ⌊t / s.cycleMs⌋₊ * s.cycleMs, by ring, by linarith, by linarith⟩

omit h in
/-- The rest of a time of a round. -/
theorem rest_of_mem_round {k : Nat} {t : Rat} (ht : t ∈ s.round k) :
    t = k * s.cycleMs + (t - k * s.cycleMs) ∧ 0 ≤ t - k * s.cycleMs ∧
      t - k * s.cycleMs < s.cycleMs := by
  obtain ⟨hstart, hend⟩ := ht
  exact ⟨by ring, by linarith, by linarith⟩

/-- **An animation shows its pictures** in order, each for its own time, and then again. -/
theorem plays_in_rounds : s.Plays where
  valid t _ := frameIndex_lt_length h.length h.frames_ne_nil t
  shown t ht := by
    obtain ⟨k, rest, rfl, hrest, hlt⟩ := h.exists_rest ht
    exact ⟨k, rest, rfl, hrest, hlt, h.frameIndex_eq_iff k hrest hlt⟩
  periodic t ht := by
    obtain ⟨k, rest, rfl, hrest, hlt⟩ := h.exists_rest ht
    have hnext : k * s.cycleMs + rest + s.cycleMs = (k + 1 : Nat) * s.cycleMs + rest := by
      push_cast
      ring
    rw [hnext, h.frameIndex_add _ hrest hlt, h.frameIndex_add _ hrest hlt]
  monotone k t ht t' ht' hle := by
    obtain ⟨heq, hrest, hlt⟩ := rest_of_mem_round ht
    obtain ⟨heq', hrest', hlt'⟩ := rest_of_mem_round ht'
    have hi := (h.frameIndex_eq_iff k hrest hlt _).mp rfl
    have hj := (h.frameIndex_eq_iff k hrest' hlt' _).mp rfl
    rw [← heq] at hi
    rw [← heq'] at hj
    exact hi.index_mono h.pos hj (by linarith)
  complete k i hi := by
    rw [← h.length] at hi
    have hshown := inInterval_start h.pos hi
    have hstart : 0 ≤ (s.durationsMs.take i).sum := by
      simpa using sum_take_mono h.pos (Nat.zero_le i)
    have hend : (s.durationsMs.take i).sum < s.cycleMs :=
      hshown.lt_end.trans_le (by simpa [cycleMs] using sum_take_mono h.pos (Nat.succ_le_of_lt hi))
    refine ⟨k * s.cycleMs + (s.durationsMs.take i).sum, ⟨by linarith, by linarith⟩, ?_⟩
    exact (h.frameIndex_eq_iff k hstart hend i).mpr hshown

end IsAnimation

end Sprite

/-- A sticker of three pictures. -/
def blinkingSticker : Sprite Rat :=
  { element := Element.plain .sticker "logo" "main" "a.gif" 0 1000
    frames := List.replicate 3 (.clear 2 2), durationsMs := [40, 100, 60], x := 0, y := 0 }

/-- Two rounds and fifty milliseconds after its start, a sticker shows its second picture. -/
theorem blinkingSticker_plays :
    blinkingSticker.IsAnimation ∧ blinkingSticker.Plays ∧ blinkingSticker.frameIndex 450 = 1 := by
  have h : blinkingSticker.IsAnimation := ⟨rfl, List.cons_ne_nil _ _, by decide +kernel⟩
  exact ⟨h, Sprite.IsAnimation.plays_in_rounds h, by decide +kernel⟩

end TimelineExport
