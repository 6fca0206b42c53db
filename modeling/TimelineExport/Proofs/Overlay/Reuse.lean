import TimelineExport.Overlay.Render
import TimelineExport.Proofs.Number.FloatOrder
import TimelineExport.Proofs.Overlay.Pass
import TimelineExport.Words.CellPainter

/-!
# Frames that are used again

A frame is kept for others only if everything on it is at rest, and it is used for a frame whose
states are equal as values. Two such frames look the same (`composeFrame_congr`), whoever paints
them: of what decides how an element at rest looks, equal values can differ in nothing but the sign
of a zero by which it is moved. So the plan of an overlay is sound, and each of its frames is
written as if it were the only one (`written_frame_eq_alone`).
-/

namespace TimelineExport

/-! ### Elements at rest -/

section
variable {α : Type} [Scalar α]

/-- What it means for an element to be seen as it rests. -/
theorem ElementState.isChanged_eq_false_iff {s : ElementState α} :
    s.isChanged = false ↔ (s.alpha == 1) = true ∧ (s.dx == 0) = true ∧ (s.scale == 1) = true ∧
      (s.wipe == 1) = true ∧ s.iris = none := by
  simp [isChanged, and_assoc]

/-- An element at rest is drawn at its place with its own alpha. -/
theorem drawState_of_unchanged (painter : Painter α) (canvas : Canvas) (sprites : List (Sprite α))
    (below : Raster) {s : ElementState α} (h : s.isChanged = false) :
    drawState painter canvas sprites below s = (do
      let some sprite := sprites[s.sprite]? | throw .noPicture
      let some image := sprite.frames[s.frame]? | throw .noPicture
      let alpha ← painted (painter.alpha image)
      let image ← painted (painter.withAlpha alpha image)
      let layer ← painted (painter.picture canvas.width canvas.height .transparent)
      let left ← wholeNumber (Scalar.ofInt sprite.x + s.dx)
      let top ← wholeNumber (Scalar.ofInt sprite.y : α)
      let layer ← painted (painter.paste image left top layer)
      painted (painter.lay layer below)) := by
  obtain ⟨halpha, -, hscale, hwipe, hiris⟩ := ElementState.isChanged_eq_false_iff.mp h
  unfold drawState
  cases sprites[s.sprite]? with
  | none => rfl
  | some sprite =>
    dsimp only
    cases sprite.frames[s.frame]? with
    | none => rfl
    | some image =>
      simp only [scalePicture, stateAlpha, halpha, hscale, hwipe, hiris, Option.isNone_none,
        Bool.and_self, if_true, pure_bind, bind_pure]

end

/-! ### Equal states -/

/-- **Elements at rest with equal states look the same**: of what decides how they are drawn, only
the sign of a zero by which they are moved may differ. -/
theorem drawState_congr (painter : Painter Float) (canvas : Canvas) (sprites : List (Sprite Float))
    (below : Raster) {s t : ElementState Float} (hs : s.isChanged = false)
    (ht : t.isChanged = false) (hsame : s.same t = true) :
    drawState painter canvas sprites below s = drawState painter canvas sprites below t := by
  obtain ⟨-, hdx, -⟩ := ElementState.isChanged_eq_false_iff.mp hs
  obtain ⟨-, hdx', -⟩ := ElementState.isChanged_eq_false_iff.mp ht
  obtain ⟨hsprite, hframe⟩ : s.sprite = t.sprite ∧ s.frame = t.frame := by
    simp only [ElementState.same, Bool.and_eq_true, decide_eq_true_eq] at hsame
    exact hsame.1.1.1.1.1
  have hplace (x : Float) : wholeNumber (x + s.dx) = wholeNumber (x + t.dx) :=
    congrArg (fun value : Except NonFinite Rat =>
      (value.map nearestInt).mapError OverlayFault.number)
      (exactValue_add_zero x hdx hdx')
  rw [drawState_of_unchanged painter canvas sprites below hs,
    drawState_of_unchanged painter canvas sprites below ht, hsprite, hframe]
  simp only [hplace]

theorem foldlM_drawState_congr (painter : Painter Float) (canvas : Canvas)
    (sprites : List (Sprite Float)) :
    ∀ {states states' : List (ElementState Float)} (below : Raster),
      (∀ s ∈ states, s.isChanged = false) → (∀ s ∈ states', s.isChanged = false) →
      sameStates states states' = true →
      states.foldlM (drawState painter canvas sprites) below =
        states'.foldlM (drawState painter canvas sprites) below
  | [], [], _, _, _, _ => rfl
  | s :: states, t :: states', below, hs, ht, hsame => by
    obtain ⟨hfirst, hrest⟩ := Bool.and_eq_true_iff.mp hsame
    obtain ⟨hs, hstates⟩ := List.forall_mem_cons.mp hs
    obtain ⟨ht, hstates'⟩ := List.forall_mem_cons.mp ht
    rw [List.foldlM_cons, List.foldlM_cons,
      drawState_congr painter canvas sprites below hs ht hfirst]
    refine congrArg _ (funext fun image => ?_)
    exact foldlM_drawState_congr painter canvas sprites image hstates hstates' hrest

/-- **Frames at rest with equal states look the same.** -/
theorem composeFrame_congr (painter : Painter Float) (canvas : Canvas)
    (sprites : List (Sprite Float)) {states states' : List (ElementState Float)}
    (h : ∀ s ∈ states, s.isChanged = false) (h' : ∀ s ∈ states', s.isChanged = false)
    (hsame : sameStates states states' = true) :
    composeFrame painter canvas sprites states = composeFrame painter canvas sprites states' := by
  unfold composeFrame
  refine congrArg _ (funext fun empty => ?_)
  exact foldlM_drawState_congr painter canvas sprites empty h h' hsame

/-! ### Names -/

theorem toList_frameName (n : Nat) :
    (frameName n).toList = "frame_".toList ++
      (List.replicate (6 - (toString n).length) '0' ++ Nat.toDigits 10 n) ++ ".png".toList := by
  simp [frameName]

/-- Zeros before a number do not change it. -/
theorem ofDigitChars_replicate_append (zeros n : Nat) :
    Nat.ofDigitChars 10 (List.replicate zeros '0' ++ Nat.toDigits 10 n) 0 = n := by
  rw [Nat.ofDigitChars_append, Nat.ofDigitChars_replicate_zero, Nat.mul_zero,
    Nat.ofDigitChars_ten_toDigits]

/-- **Different frames have different names.** -/
theorem frameName_injective : Function.Injective frameName := by
  intro m n h
  have hlist := congrArg String.toList h
  rw [toList_frameName, toList_frameName] at hlist
  have hdigits := List.append_cancel_left (List.append_cancel_right hlist)
  have hvalue := congrArg (Nat.ofDigitChars 10 · 0) hdigits
  simpa only [ofDigitChars_replicate_append] using hvalue

/-- **The plan of an overlay is sound.** -/
theorem OverlayTask.isSound_plan (task : OverlayTask Float) (sprites : List (Sprite Float))
    (total : Nat) (listener : Option FrameListener) :
    (task.plan sprites total listener).IsSound where
  draw_eq m n key key' hm hn hsame := by
    have hkey (n : Nat) (states : List (ElementState Float))
        (h : (task.plan sprites total listener).key n = some states) :
        frameState sprites (frameTimeMs task.fps (Int.ofNat n)) = states ∧
          ∀ s ∈ states, s.isChanged = false := by
      dsimp only [plan] at h
      split at h
      · cases h
      · next hchanged =>
        cases h
        exact ⟨rfl, by simpa using hchanged⟩
    obtain ⟨rfl, hm⟩ := hkey m key hm
    obtain ⟨rfl, hn⟩ := hkey n key' hn
    exact composeFrame_congr task.painter task.canvas sprites hm hn hsame
  name_ne _ _ hne := fun h => hne (frameName_injective h)

/-- **Every frame that is written is written as if it were the only one.** Whatever the sprites, what
the painter does, the order in which the workers take their steps and the way in which pictures are
encoded: the file of a frame that is written is the encoded drawing of the states at the time of the
frame, which is what a pass without a store writes that does nothing else. -/
theorem written_frame_eq_alone {γ : Type} (task : OverlayTask Float)
    (sprites : List (Sprite Float)) (total : Nat) (listener : Option FrameListener)
    (encode : Raster → γ) (existing others : List (String × Option γ)) (events : List FrameEvent)
    (n : Nat) :
    let plan := (task.plan sprites total listener).encoded encode
    let pass := FramePass.run plan { directory := some existing } events
    let alone := FramePass.run plan.unkept { directory := some others }
      [.look n, .draw n, .keep n, .write n]
    pass.isWritten n = true → pass.directory.isSome = true →
      ∃ image,
        composeFrame task.painter task.canvas sprites (frameState sprites (frameTimeMs task.fps n)) =
          .ok image ∧
        pass.fileOf plan n = some (some (encode image)) ∧
        alone.fileOf plan n = some (some (encode image)) := by
  intro plan pass alone hwritten hdirectory
  have hsound := (task.isSound_plan sprites total listener).encoded encode
  have hfaithful := (FramePass.Faithful.start plan existing).run hsound events
  have hwork := FramePass.isWritten_iff.mp hwritten
  obtain ⟨data, hdata, hfiles⟩ := hfaithful.honest n .written hwork
  obtain ⟨files, hsome⟩ := Option.isSome_iff_exists.mp hdirectory
  have halone := FramePass.fileOf_run_alone (hfaithful.begun n _ hwork) hdata others
  have hfile : pass.fileOf plan n = some (some data) := by
    rw [FramePass.fileOf, hsome]
    exact hfiles files hsome
  cases hdraw : composeFrame task.painter task.canvas sprites
      (frameState sprites (frameTimeMs task.fps (Int.ofNat n))) with
  | error fault =>
    rw [show plan.draw n = .error fault from congrArg (Except.map encode) hdraw] at hdata
    cases hdata
  | ok image =>
    rw [show plan.draw n = .ok (encode image) from congrArg (Except.map encode) hdraw] at hdata
    cases hdata
    exact ⟨image, rfl, hfile, halone⟩

/-- A picture that slides in. -/
def slidingLogo : Sprite Float where
  element := {
    id := "logo", kind := .image, trackId := "top", startMs := 0, endMs := 200
    speed := 1, volume := 1, opacity := 1, properties := { scale := 1 }
    transitionIn := some { effect := some .slide, durationMs := 40.001 } }
  frames := [.solid 2 2 ⟨200, 40, 40, 255⟩]
  durationsMs := []
  x := 1
  y := 1

/-- Two workers draw equal frames and keep both, and a third one finds what was kept last: a frame
that is moved by a negative zero. -/
theorem slidingLogo_eq_alone :
    let task : OverlayTask Float :=
      { painter := .cells Float.sqrt, canvas := ⟨4, 4⟩, fps := 25, elements := [], tracks := []
        durationMs := 200, directory := "frames" }
    let plan := (task.plan [slidingLogo] 5 none).encoded fun image => image.pixel 1 1
    let pass := FramePass.run plan { directory := some [] } [.look 3, .look 1, .draw 1, .draw 3,
      .keep 3, .keep 1, .look 2, .write 2, .write 3, .write 1]
    let alone := FramePass.run plan.unkept { directory := some [] }
      [.look 2, .draw 2, .keep 2, .write 2]
    pass.kept.map (fun entry => entry.1.map fun s => (s.dx.toBits, s.isChanged)) =
        [[((-0 : Float).toBits, false)]] ∧
      ∃ pixel, pass.fileOf plan 2 = some (some pixel) ∧
        alone.fileOf plan 2 = some (some pixel) := by
  intro task plan pass alone
  have hwritten : pass.isWritten 2 = true := by decide +kernel
  obtain ⟨image, -, hpass, halone⟩ := written_frame_eq_alone task [slidingLogo] 5 none
    (fun image => image.pixel 1 1) [] [] [.look 3, .look 1, .draw 1, .draw 3,
      .keep 3, .keep 1, .look 2, .write 2, .write 3, .write 1] 2 hwritten (by decide +kernel)
  exact ⟨by decide +kernel, _, hpass, halone⟩

end TimelineExport
