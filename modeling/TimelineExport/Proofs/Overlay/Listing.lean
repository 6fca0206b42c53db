import TimelineExport.Overlay.State
import TimelineExport.Proofs.Compile.Windows
import TimelineExport.Proofs.Number.Nearest
import TimelineExport.Proofs.Outcome
import TimelineExport.Proofs.StableSort
import TimelineExport.Words.CellPainter

/-!
# What a frame lists

A frame lists the elements that are visible at its time, from the bottom to the top, and how each of
them looks. Whatever the transitions of an element are, at most one is active, and its progress lies
between zero and one; so the numbers of a state lie in fixed ranges before they are rounded
(`Element.inRange_appearanceAt`). The bounds of the ranges are on the grid to which the numbers are
rounded, so rounding leaves them there (`rounded_mem_Icc`).

The sprites of a list of elements are in the order of the indexes of their tracks, and those of one
index in the order of the list; a frame keeps that order and names each sprite once
(`frameState_lists_seen`).
-/

namespace TimelineExport

/-! ### Appearances -/

/-- Whether the numbers that say how an element looks lie in their ranges. -/
structure Appearance.InRange (a : Appearance Rat) : Prop where
  alpha : a.alpha ∈ Set.Icc 0 1
  dx : a.dx ∈ Set.Icc (-100) 0
  scale : a.scale ∈ Set.Icc (1 / 2) 1
  wipe : a.wipe ∈ Set.Icc 0 1
  iris : ∀ radius ∈ a.iris, radius ∈ Set.Icc 0 1

theorem slidePixels_rat : (slidePixels : Rat) = 100 := Scalar.ofNat_rat 100

theorem zoomStart_rat : (zoomStart : Rat) = 1 / 2 := by
  unfold zoomStart
  norm_num

theorem Appearance.atRest_rat (opacity : Rat) :
    Appearance.atRest opacity =
      { alpha := opacity, dx := 0, scale := 1, wipe := 1, iris := none } := by
  unfold atRest
  rw [Scalar.zero_rat, Scalar.ofNat_rat 1, Nat.cast_one]

theorem Appearance.inRange_atRest {opacity : Rat} (h : opacity ∈ Set.Icc 0 1) :
    (atRest opacity).InRange := by
  rw [atRest_rat]
  exact ⟨h, by norm_num, by norm_num, by norm_num, nofun⟩

/-- **A single transition** keeps the numbers in their ranges. -/
theorem Appearance.inRange_apply {opacity p : Rat} (h : opacity ∈ Set.Icc 0 1)
    (hp : p ∈ Set.Icc 0 1) (effect : Effect) : ((atRest opacity).apply effect p).InRange := by
  have hrest := inRange_atRest h
  have hfaded : opacity * p ∈ Set.Icc 0 1 :=
    ⟨mul_nonneg h.1 hp.1, mul_le_one₀ h.2 hp.1 hp.2⟩
  obtain ⟨hnonneg, hone⟩ := hp
  rw [atRest_rat] at hrest ⊢
  cases effect with
  | fade | dissolve => exact { hrest with alpha := hfaded }
  | slide =>
    refine { hrest with dx := ?_ }
    simp only [apply, slidePixels_rat, Scalar.ofNat_rat 1]
    constructor <;> push_cast <;> linarith
  | zoom =>
    refine { hrest with alpha := hfaded, scale := ?_ }
    simp only [apply, zoomStart_rat, Scalar.ofNat_rat 1]
    constructor <;> push_cast <;> linarith
  | wipe =>
    refine { hrest with wipe := ?_ }
    simp only [apply, Scalar.least_rat, min_eq_right hone]
    exact ⟨hnonneg, hone⟩
  | iris =>
    refine { hrest with iris := fun radius hradius => ?_ }
    obtain rfl : p = radius := Option.some.inj hradius
    exact ⟨hnonneg, hone⟩

namespace Element

variable {e : Element Rat} {t : Rat}

/-- Without an active transition an element looks as it does at rest. -/
theorem appearanceAt_of_nil (h : e.activeTransitions t = []) :
    e.appearanceAt t = .atRest e.opacity := by
  unfold appearanceAt
  rw [h, List.foldl_nil]

/-- **How a visible element looks** is in range, whatever its transitions. -/
theorem inRange_appearanceAt (hopacity : e.opacity ∈ Set.Icc 0 1) (hstart : e.startMs ≤ t)
    (hend : t < e.endMs) : (e.appearanceAt t).InRange := by
  have hduration : 0 ≤ e.duration := sub_nonneg.mpr (hstart.trans hend.le)
  have hreports := reportsWindows hduration hstart hend.le
  have hrest := Appearance.inRange_atRest hopacity
  match hactive : e.activeTransitions t, hreports.atMostOne, hreports.progress with
  | [], _, _ =>
    rw [appearanceAt_of_nil hactive]
    exact hrest
  | [(x, p)], _, hprogress =>
    have hp : p ∈ Set.Icc 0 1 := hprogress _ (List.mem_singleton_self _)
    have hclamped : Scalar.greatest 0 (Scalar.least 1 p) = p := by
      rw [Scalar.greatest_rat, Scalar.least_rat, Scalar.zero_rat, Scalar.ofNat_rat 1, Nat.cast_one,
        min_eq_right hp.2, max_eq_right hp.1]
    unfold appearanceAt
    rw [hactive, List.foldl_cons, List.foldl_nil]
    dsimp only
    rw [hclamped]
    split
    · exact Appearance.inRange_apply hopacity hp _
    · exact hrest
  | _ :: _ :: _, hlength, _ => simp at hlength

end Element

/-! ### States -/

/-- Whether the numbers of a state lie in their ranges. -/
structure ElementState.InRange (s : ElementState Rat) : Prop where
  alpha : s.alpha ∈ Set.Icc 0 1
  dx : s.dx ∈ Set.Icc (-100) 0
  scale : s.scale ∈ Set.Icc (1 / 2) 1
  wipe : s.wipe ∈ Set.Icc 0 1
  iris : ∀ radius ∈ s.iris, radius ∈ Set.Icc 0 1

/-- Whether a state is that of an element at rest: it is as opaque as the element, up to rounding,
and not changed otherwise. -/
structure ElementState.IsAtRest (s : ElementState Rat) (opacity : Rat) : Prop where
  alpha : s.alpha = Scalar.rounded 4 opacity
  dx : s.dx = 0
  scale : s.scale = 1
  wipe : s.wipe = 1
  iris : s.iris = none

section
variable {s : Sprite Rat} {t : Rat} (index : Nat)

/-- **The state of a visible sprite** is in range. -/
theorem inRange_spriteState (hopacity : s.element.opacity ∈ Set.Icc 0 1)
    (hstart : s.element.startMs ≤ t) (hend : t < s.element.endMs) :
    (spriteState index s t).InRange := by
  have h := Element.inRange_appearanceAt hopacity hstart hend
  have hunit : ∀ q ∈ Set.Icc (0 : Rat) 1, Scalar.rounded 4 q ∈ Set.Icc (0 : Rat) 1 := fun q hq =>
    rounded_mem_Icc 4 0 10000 (by norm_num) (by norm_num) hq
  exact {
    alpha := hunit _ h.alpha
    dx := rounded_mem_Icc 2 (-10000) 0 (by norm_num) (by norm_num) h.dx
    scale := rounded_mem_Icc 4 5000 10000 (by norm_num) (by norm_num) h.scale
    wipe := hunit _ h.wipe
    iris := fun radius hradius => by
      obtain ⟨q, hq, rfl⟩ := Option.map_eq_some_iff.mp hradius
      exact hunit q (h.iris q hq) }

/-- Without an active transition the state is that at rest. -/
theorem isAtRest_spriteState (h : s.element.activeTransitions t = []) :
    (spriteState index s t).IsAtRest s.element.opacity := by
  have happearance := Element.appearanceAt_of_nil h
  rw [Appearance.atRest_rat] at happearance
  have hzero : Scalar.rounded 2 (0 : Rat) = 0 := by decide +kernel
  have hone : Scalar.rounded 4 (1 : Rat) = 1 := by decide +kernel
  unfold spriteState
  rw [happearance]
  exact ⟨rfl, hzero, hone, hone, rfl⟩

end

/-! ### The order of the sprites -/

/-- Whether a number is the index of the track with an id: the index of the last track that has the
id, or zero if no track has it. -/
def IsTrackIndex (tracks : List Track) (id : String) (index : Int) : Prop :=
  (∃ earlier track later, tracks = earlier ++ track :: later ∧ track.id = id ∧
    (∀ other ∈ later, other.id ≠ id) ∧ index = track.index) ∨
  ((∀ track ∈ tracks, track.id ≠ id) ∧ index = 0)

theorem isTrackIndex_iff {tracks : List Track} {id : String} {index : Int} :
    IsTrackIndex tracks id index ↔ index = trackIndex tracks id := by
  unfold trackIndex IsTrackIndex
  constructor
  · rintro (⟨earlier, track, later, rfl, hid, hlater, rfl⟩ | ⟨hnone, rfl⟩)
    · have hfind : (earlier ++ track :: later).reverse.find? (·.id = id) = some track :=
        List.find?_eq_some_iff_append.mpr ⟨decide_eq_true hid, later.reverse, earlier.reverse,
          by simp, fun other hother => by simpa using hlater other (List.mem_reverse.mp hother)⟩
      rw [hfind, Option.map_some, Option.getD_some]
    · have hfind : tracks.reverse.find? (·.id = id) = none :=
        List.find?_eq_none.mpr fun track htrack => by
          simpa using hnone track (List.mem_reverse.mp htrack)
      rw [hfind, Option.map_none, Option.getD_none]
  · rintro rfl
    cases hfind : tracks.reverse.find? (·.id = id) with
    | none =>
      refine .inr ⟨fun track htrack => ?_, rfl⟩
      simpa using List.find?_eq_none.mp hfind track (List.mem_reverse.mpr htrack)
    | some track =>
      obtain ⟨hid, later, earlier, hreverse, hlater⟩ := List.find?_eq_some_iff_append.mp hfind
      refine .inl ⟨earlier.reverse, track, later.reverse, ?_, of_decide_eq_true hid,
        fun other hother => ?_, rfl⟩
      · rw [← List.reverse_reverse tracks, hreverse]
        simp
      · simpa using hlater other (List.mem_reverse.mp hother)

/-- One element, with its place in a list, lies below another: the index of its track is less, or
the indexes are equal and it comes earlier in the list. -/
def LiesBelow (tracks : List Track) (a b : Element Rat × Nat) : Prop :=
  ∃ m n, IsTrackIndex tracks a.1.trackId m ∧ IsTrackIndex tracks b.1.trackId n ∧
    (m < n ∨ m = n ∧ a.2 < b.2)

/-- Elements with their places, in the order in which they are drawn. -/
def drawnEntries (tracks : List Track) (es : List (Element Rat)) : List (Element Rat × Nat) :=
  sortedByKey (fun e => trackIndex tracks e.trackId) es

theorem drawnEntries_pairwise (tracks : List Track) (es : List (Element Rat)) :
    (drawnEntries tracks es).Pairwise (LiesBelow tracks) :=
  (sortedByKey_pairwise _ es).imp fun h =>
    ⟨_, _, isTrackIndex_iff.mpr rfl, isTrackIndex_iff.mpr rfl, h⟩

/-- A sprite is that of its element. -/
theorem element_of_buildSprite {painter : Painter Rat} {face : Typeface Rat}
    {files : String → Option (SourceFile Rat)} {canvas : Canvas} {e : Element Rat}
    {s : Sprite Rat} (h : buildSprite painter face files canvas e = .ok s) : s.element = e := by
  unfold buildSprite at h
  obtain ⟨-, h⟩ := ite_throw_bind_eq_ok.mp h
  dsimp only at h
  split at h
  · obtain ⟨⟨image, margin⟩, -, h⟩ := bind_eq_ok.mp h
    obtain ⟨⟨pictures, durations, room⟩, hpictures, h⟩ := bind_eq_ok.mp h
    cases hpictures
    obtain ⟨place, -, h⟩ := bind_eq_ok.mp h
    cases h
    rfl
  · obtain ⟨⟨frames, durations⟩, -, h⟩ := bind_eq_ok.mp h
    obtain ⟨⟨pictures, shown, room⟩, -, h⟩ := bind_eq_ok.mp h
    dsimp only at h
    split at h
    · obtain ⟨place, -, h⟩ := bind_eq_ok.mp h
      cases h
      rfl
    · cases h

section
variable {painter : Painter Rat} {face : Typeface Rat} {files : String → Option (SourceFile Rat)}
  {canvas : Canvas} {es : List (Element Rat)} {tracks : List Track} {sprites : List (Sprite Rat)}

/-- **The sprites of a list of elements** are those of the elements in the order in which these are
drawn. -/
theorem forall₂_prepareSprites
    (h : prepareSprites painter face files canvas es tracks = .ok sprites) :
    List.Forall₂ (fun s entry => s.element = entry.1) sprites (drawnEntries tracks es) := by
  have horder : drawingOrder tracks es = (drawnEntries tracks es).map (·.1) :=
    (map_fst_sortedByKey (fun e : Element Rat => trackIndex tracks e.trackId) es).symm
  have hbuilt : List.Forall₂ (fun e s => s.element = e) (drawingOrder tracks es) sprites :=
    (Meets.mapM fun e _ =>
      (Meets.trivially (buildSprite painter face files canvas e)).mono fun s hs _ =>
        element_of_buildSprite hs).of_eq_ok h
  rw [horder] at hbuilt
  exact (List.forall₂_map_left_iff.mp hbuilt).flip

/-! ### The list -/

/-- The states of a frame are in the order of the sprites, and no sprite has two. -/
theorem pairwise_frameState (sprites : List (Sprite Rat)) (t : Rat) :
    (frameState sprites t).Pairwise fun a b => a.sprite < b.sprite := by
  have hplaces : sprites.zipIdx.Pairwise fun a b => a.2 < b.2 := by
    refine List.pairwise_map.mp ?_
    rw [List.zipIdx_map_snd]
    exact List.pairwise_lt_range'
  refine List.pairwise_filterMap.mpr (hplaces.imp fun {a b} hlt s hs s' hs' => ?_)
  obtain ⟨-, rfl⟩ := Option.ite_some_none_eq_some.mp hs
  obtain ⟨-, rfl⟩ := Option.ite_some_none_eq_some.mp hs'
  exact hlt

/-- A relation between the members of two lists, with the place of each and the first one as a
member of its list. -/
theorem forall₂_zipIdx {β δ : Type} {R : β → δ → Prop} {xs : List β} {ys : List δ}
    (h : List.Forall₂ R xs ys) :
    List.Forall₂ (fun x y => xs[x.2]? = some x.1 ∧ R x.1 y ∧ y ∈ ys) xs.zipIdx ys := by
  rw [List.forall₂_iff_get] at h ⊢
  obtain ⟨hlength, h⟩ := h
  refine ⟨by rw [List.length_zipIdx, hlength], fun i hi hi' => ?_⟩
  have hx : i < xs.length := by rwa [List.length_zipIdx] at hi
  simp only [List.get_eq_getElem, List.getElem_zipIdx, Nat.zero_add]
  exact ⟨List.getElem?_eq_getElem hx, h i hx hi', List.getElem_mem hi'⟩

/-- Whether an element is seen at a time: from its start on, and no more at its end. -/
def Element.IsSeenAt (e : Element Rat) (t : Rat) : Prop := e.startMs ≤ t ∧ t < e.endMs

instance (e : Element Rat) (t : Rat) : Decidable (e.IsSeenAt t) := instDecidableAnd

/-- **A state lists an element**: it is that of the element's sprite, its numbers are in range, and
it is at rest if no transition is active. -/
structure ElementState.Lists (sprites : List (Sprite Rat)) (t : Rat) (s : ElementState Rat)
    (e : Element Rat) : Prop where
  sprite : (sprites[s.sprite]?).map (·.element) = some e
  inRange : s.InRange
  atRest : e.activeTransitions t = [] → s.IsAtRest e.opacity

/-- **A frame lists the elements that are seen** at its time, each of them once, by the index of the
track and then by the place in the list, and their states are in range. -/
theorem frameState_lists_seen
    (hsprites : prepareSprites painter face files canvas es tracks = .ok sprites)
    (hopacity : ∀ e ∈ es, e.opacity ∈ Set.Icc 0 1) (t : Rat) :
    ∃ seen : List (Element Rat × Nat),
      seen.Perm (es.zipIdx.filter fun entry => entry.1.IsSeenAt t) ∧
      seen.Pairwise (LiesBelow tracks) ∧
      (frameState sprites t).Pairwise (fun a b => a.sprite < b.sprite) ∧
      List.Forall₂ (fun s entry => s.Lists sprites t entry.1) (frameState sprites t) seen := by
  have hentries := forall₂_prepareSprites hsprites
  have hmem : ∀ entry ∈ drawnEntries tracks es, entry.1 ∈ es := fun entry hentry =>
    List.mem_of_getElem? (List.mem_zipIdx_iff_getElem?.mp
      ((sortedByKey_perm _ es).mem_iff.mp hentry))
  refine ⟨(drawnEntries tracks es).filter fun entry => entry.1.IsSeenAt t,
    (sortedByKey_perm _ es).filter _, (drawnEntries_pairwise tracks es).filter _,
    pairwise_frameState sprites t, ?_⟩
  rw [← List.filterMap_eq_filter]
  refine List.rel_filterMap ?_ (forall₂_zipIdx hentries)
  rintro ⟨s, index⟩ entry ⟨hsprite, helement, hentry⟩
  dsimp only at hsprite helement ⊢
  have hvisible : s.element.isVisibleAt t = true ↔ entry.1.IsSeenAt t := by
    simp [Element.isVisibleAt, Element.IsSeenAt, helement]
  by_cases hseen : entry.1.IsSeenAt t
  · rw [if_pos (hvisible.mpr hseen), Option.guard, if_pos (decide_eq_true hseen)]
    refine .some ⟨?_, ?_, fun hnone => ?_⟩
    · rw [spriteState, hsprite, Option.map_some, helement]
    · rw [← helement] at hseen
      exact inRange_spriteState index (helement ▸ hopacity _ (hmem entry hentry)) hseen.1 hseen.2
    · rw [← helement] at hnone ⊢
      exact isAtRest_spriteState index hnone
  · rw [if_neg (hvisible.not.mpr hseen), Option.guard, if_neg (by simpa using hseen)]
    exact .none

end

/-- A sticker that slides in. -/
def slidingSticker (id track : String) (startMs endMs : Rat) : Element Rat :=
  { (Element.plain .sticker id track "a.png" startMs endMs : Element Rat) with
    opacity := 1 / 2
    transitionIn := some ⟨some .slide, 60⟩ }

/-- A sticker begins to slide in over another one, which rests on a track with a lower index, and a
third one is just over. -/
theorem slidingSticker_is_listed :
    let files (_ : String) : Option (SourceFile Rat) :=
      some (.picture { frames := [(.solid 2 2 ⟨200, 40, 40, 255⟩, none)] })
    let painter : Painter Rat := .cells id
    let entering := slidingSticker "entering" "unlisted" 100 1000
    let resting := slidingSticker "resting" "low" 0 1000
    let gone := slidingSticker "gone" "low" 0 100
    let tracks : List Track := [{ id := "low", index := 3 }, { id := "low", index := -1 }]
    ∃ sprites below above,
      prepareSprites painter .cells files ⟨100, 100⟩ [entering, resting, gone] tracks =
        .ok sprites ∧
      frameState sprites 100 = [below, above] ∧ below.sprite < above.sprite ∧
      below.Lists sprites 100 resting ∧ above.Lists sprites 100 entering ∧
      resting.activeTransitions 100 = [] ∧ (entering.activeTransitions 100).length = 1 := by
  intro files painter entering resting gone tracks
  have hbuilt : ∀ e ∈ [entering, resting, gone],
      (buildSprite painter .cells files ⟨100, 100⟩ e).isOk := by decide +kernel
  obtain ⟨sprites, hsprites⟩ : Succeeds
      (prepareSprites painter .cells files ⟨100, 100⟩ [entering, resting, gone] tracks) :=
    Succeeds.mapM fun e he => .of_isOk (hbuilt e ((List.mergeSort_perm _ _).mem_iff.mp he))
  obtain ⟨seen, hperm, hsorted, hdistinct, hlists⟩ :=
    frameState_lists_seen hsprites (by decide +kernel) 100
  have hfilter : ([entering, resting, gone].zipIdx.filter fun entry => entry.1.IsSeenAt 100) =
      [(entering, 0), (resting, 1)] := by
    have hentering : entering.IsSeenAt 100 := by decide +kernel
    have hresting : resting.IsSeenAt 100 := by decide +kernel
    have hgone : ¬ gone.IsSeenAt 100 := by decide +kernel
    simp [List.zipIdx_cons, hentering, hresting, hgone]
  have hseen : seen = [(resting, 1), (entering, 0)] := by
    rw [hfilter] at hperm
    obtain rfl | rfl := List.pair_perm.mp hperm.symm
    · obtain ⟨m, n, hm, hn, hlies⟩ := List.rel_of_pairwise_cons hsorted (List.mem_singleton_self _)
      rw [isTrackIndex_iff.mp hm, isTrackIndex_iff.mp hn] at hlies
      exact absurd hlies (by decide +kernel)
    · rfl
  subst hseen
  generalize hstates : frameState sprites 100 = states at hdistinct hlists ⊢
  obtain - | ⟨hbelow, - | ⟨habove, ⟨⟩⟩⟩ := hlists
  exact ⟨sprites, _, _, hsprites, hstates, List.rel_of_pairwise_cons hdistinct (by simp), hbelow,
    habove, List.eq_nil_of_length_eq_zero (by decide +kernel), by decide +kernel⟩

end TimelineExport
