import TimelineExport.Proofs.Outcome
import TimelineExport.Proofs.Overlay.Completion
import TimelineExport.Proofs.Overlay.Reuse

/-!
# Overlays that are rendered, or not

`OverlayTask.renderPrepared` makes a directory, lets a pass fill it, and ends with the sequence or
without the directory. What the sprites come to, how the frames fail, when the pass is cancelled and
whether the listener raises are all arbitrary, and so are the turns of the workers
(`overlay_all_or_nothing`). The only reasons of a failure are those that lie in these
(`OverlayTask.Reason`).
-/

namespace TimelineExport

namespace OverlayTask

variable {α : Type} [Scalar α]

theorem isNumbered_plan (task : OverlayTask α) (sprites : List (Sprite α)) (total : Nat)
    (listener : Option FrameListener) : (task.plan sprites total listener).IsNumbered where
  name_injective := frameName_injective
  name_prefix n := by
    change "frame_".toList.isPrefixOf (frameName n).toList = true
    rw [List.isPrefixOf_iff_prefix, toList_frameName, List.append_assoc]
    exact List.prefix_append _ _

/-- The pass of an overlay into a directory that is made for it. -/
def pass (task : OverlayTask α) (sprites : List (Sprite α)) (total : Nat)
    (listener : Option FrameListener) (events : List FrameEvent) :
    FramePass (List (ElementState α)) Raster :=
  FramePass.run (task.plan sprites total listener) { directory := some [] } events

/-- **Why an overlay is not rendered**: it has no frames, is cancelled before it begins, a sprite
cannot be prepared, there is nobody to draw, a frame fails, or the listener raises. That the files
are not those that were expected is no reason. -/
inductive Reason (task : OverlayTask α) (prepared : Except OverlayFault (List (Sprite α)))
    (listener : Option FrameListener) (cancelled : Bool) (count : Int) (events : List FrameEvent) :
    OverlayFault → Prop
  | noFrames (h : count ≤ 0) : Reason task prepared listener cancelled count events .noFrames
  | cancelled (h : cancelled = true) :
    Reason task prepared listener cancelled count events .cancelled
  | sprites {fault : OverlayFault} (h : prepared = .error fault) :
    Reason task prepared listener cancelled count events fault
  | workers {reason : String} (h : task.workers ≤ 0) :
    Reason task prepared listener cancelled count events (.worker reason)
  | pass {sprites : List (Sprite α)} {fault : OverlayFault} (h : prepared = .ok sprites)
    (hcause : FramePass.Cause (task.plan sprites count.toNat listener)
      (task.pass sprites count.toNat listener events) fault) :
    Reason task prepared listener cancelled count events fault

/-- An overlay that comes to a pass. -/
theorem renderPrepared_eq_pass {task : OverlayTask α} (sprites : List (Sprite α)) {count : Int}
    (hcount : frameCount task.fps task.durationMs = .ok count) (hpos : 0 < count)
    (hworkers : 0 < task.workers) (events : Nat → List FrameEvent)
    (listener : Option FrameListener) :
    let pass := task.pass sprites count.toNat listener (events count.toNat)
    task.renderPrepared events (.ok sprites) listener false none =
      { files := pass.directory, reports := pass.reports, ended := pass.closed
        result :=
          match pass.failure with
          | some fault => .error (.overlay fault.toError)
          | none =>
            .ok { directory := task.directory, frameCount := count, fps := task.fps } } := by
  intro pass
  rw [renderPrepared, hcount]
  simp only [if_neg (Int.not_le.mpr hpos), if_neg (Int.not_le.mpr hworkers)]
  rfl

/-- An overlay that does not come to a pass ends at once, and there is no directory. -/
theorem renderPrepared_of_no_pass {task : OverlayTask α}
    {prepared : Except OverlayFault (List (Sprite α))} {cancelled : Bool} {count : Int}
    (hcount : frameCount task.fps task.durationMs = .ok count)
    (h : ¬ (0 < count ∧ cancelled = false ∧ 0 < task.workers ∧ Succeeds prepared))
    (listener : Option FrameListener) :
    ∃ fault, ∀ events : Nat → List FrameEvent,
      task.renderPrepared events prepared listener cancelled none =
        { result := .error (.overlay fault.toError), files := none } ∧
      task.Reason prepared listener cancelled count (events count.toNat) fault := by
  by_cases hpos : count ≤ 0
  · refine ⟨.noFrames, fun events => ⟨?_, .noFrames hpos⟩⟩
    rw [renderPrepared, hcount]
    simp only [if_pos hpos]
    rfl
  · cases cancelled with
    | true =>
      refine ⟨.cancelled, fun events => ⟨?_, .cancelled rfl⟩⟩
      rw [renderPrepared, hcount]
      simp only [if_neg hpos]
      rfl
    | false =>
      cases prepared with
      | error fault =>
        refine ⟨fault, fun events => ⟨?_, .sprites rfl⟩⟩
        rw [renderPrepared, hcount]
        simp only [if_neg hpos]
        rfl
      | ok sprites =>
        have hworkers : task.workers ≤ 0 := by
          by_contra hworkers
          exact h ⟨by omega, rfl, by omega, sprites, rfl⟩
        refine ⟨.worker "max_workers must be greater than 0", fun events => ⟨?_, .workers hworkers⟩⟩
        rw [renderPrepared, hcount]
        simp only [if_neg hpos, if_pos hworkers]
        rfl

theorem orderly_pass (task : OverlayTask α) (sprites : List (Sprite α)) (total : Nat)
    (listener : Option FrameListener) (events : List FrameEvent) :
    (task.pass sprites total listener events).Orderly (task.plan sprites total listener) :=
  (FramePass.Orderly.start _).run (task.isNumbered_plan sprites total listener) events

theorem pass_append (task : OverlayTask α) (sprites : List (Sprite α)) (total : Nat)
    (listener : Option FrameListener) (events later : List FrameEvent) :
    task.pass sprites total listener (events ++ later) =
      (task.pass sprites total listener events).run (task.plan sprites total listener) later :=
  List.foldl_append

/-- A pass over so many frames is changed by at most so many events. -/
theorem length_le_of_changes (task : OverlayTask α) (sprites : List (Sprite α)) (total : Nat)
    (listener : Option FrameListener) {events : List FrameEvent}
    (hchanges : ∀ before event after, events = before ++ event :: after →
      task.pass sprites total listener (before ++ [event]) ≠
        task.pass sprites total listener before) : events.length ≤ 5 * total + 3 := by
  have horderly := FramePass.Orderly.start (task.plan sprites total listener)
  have hlength := horderly.length_add_remaining_le
    (task.isNumbered_plan sprites total listener) hchanges
  have hstart : FramePass.remaining (task.plan sprites total listener)
      { directory := some [] } = 4 * total + total + 1 + 1 + 1 := by
    simp [FramePass.remaining, FramePass.rankOf, FramePass.workOf, plan, mul_comm]
  omega

end OverlayTask

/-- **All or nothing.** However its frames fail, its listener raises, it is cancelled and its
workers take turns, an overlay ends with the sequence, in a directory of exactly its frames and
after a report of each number of them; or with a failure of the overlay, which has a reason, and
without the directory. After that nothing is written any more. There is always a way to the end, and
only so many events on any way. -/
theorem overlay_all_or_nothing (task : OverlayTask Rat)
    (prepared : Except OverlayFault (List (Sprite Rat))) (listener : Option FrameListener)
    (cancelled : Bool) :
    ∃ count : Int, frameCount task.fps task.durationMs = .ok count ∧
      let outcome (events : Nat → List FrameEvent) :=
        task.renderPrepared events prepared listener cancelled none
      (∀ events, (outcome events).ended = true →
        (0 < count ∧
          (outcome events).result =
            .ok { directory := task.directory, frameCount := count, fps := task.fps } ∧
          (outcome events).reports =
            (if listener.isSome then (List.range count.toNat).map fun k => (k + 1, count.toNat)
              else []) ∧
          ∃ files, (outcome events).files = some files ∧
            (files.map (·.1)).Perm ((List.range count.toNat).map frameName) ∧
            ∀ f ∈ files, f.2.isSome) ∨
        ∃ fault, (outcome events).result = .error (.overlay fault.toError) ∧
          (outcome events).files = none ∧
          task.Reason prepared listener cancelled count (events count.toNat) fault) ∧
      (∀ events later : Nat → List FrameEvent, (outcome events).ended = true →
        outcome (fun total => events total ++ later total) = outcome events) ∧
      (∀ events : Nat → List FrameEvent, ∃ later : Nat → List FrameEvent,
        (outcome fun total => events total ++ later total).ended = true) ∧
      ∀ (sprites : List (Sprite Rat)) (events : List FrameEvent),
        (∀ before event after, events = before ++ event :: after →
          task.pass sprites count.toNat listener (before ++ [event]) ≠
            task.pass sprites count.toNat listener before) →
        events.length ≤ 5 * count.toNat + 3 := by
  obtain ⟨count, hcount⟩ : ∃ count, frameCount task.fps task.durationMs = .ok count := ⟨_, rfl⟩
  refine ⟨count, hcount, ?_⟩
  intro outcome
  suffices hends : _ ∧ _ ∧ _ from ⟨hends.1, hends.2.1, hends.2.2, fun sprites events hchanges =>
    task.length_le_of_changes sprites count.toNat listener hchanges⟩
  by_cases hpass : 0 < count ∧ cancelled = false ∧ 0 < task.workers ∧ Succeeds prepared
  · obtain ⟨hpos, rfl, hworkers, sprites, rfl⟩ := hpass
    let plan := task.plan sprites count.toNat listener
    have hplan : plan.IsNumbered := task.isNumbered_plan sprites count.toNat listener
    have houtcome (events : Nat → List FrameEvent) :=
      OverlayTask.renderPrepared_eq_pass sprites hcount hpos hworkers events listener
    have horderly (events : Nat → List FrameEvent) :=
      task.orderly_pass sprites count.toNat listener (events count.toNat)
    refine ⟨fun events hended => ?_, fun events later hended => ?_, fun events => ?_⟩
    · simp only [outcome, houtcome] at hended ⊢
      obtain ⟨hfailure, hreports, hfiles⟩ | ⟨fault, hfailure, hcause, hdirectory⟩ :=
        (horderly events).end_of_closed hplan hended
      · refine .inl ⟨hpos, by rw [hfailure], ?_, hfiles⟩
        rw [hreports]
        cases listener <;> rfl
      · exact .inr ⟨fault, by rw [hfailure], hdirectory, .pass rfl hcause⟩
    · simp only [outcome, houtcome] at hended ⊢
      rw [OverlayTask.pass_append]
      obtain hsame | hsame := (horderly events).run_of_closed hplan hended (later count.toNat)
      · rw [hsame]
      · rw [hsame]
    · obtain ⟨later, hclosed⟩ := (horderly events).exists_closed hplan
      refine ⟨fun _ => later, ?_⟩
      simp only [outcome, houtcome]
      rw [OverlayTask.pass_append]
      exact hclosed
  · obtain ⟨fault, hfault⟩ := OverlayTask.renderPrepared_of_no_pass hcount hpass listener
    refine ⟨fun events _ => .inr ⟨fault, ?_, ?_, (hfault events).2⟩, fun events later _ => ?_,
      fun events => ⟨fun _ => [], ?_⟩⟩
    · simp only [outcome, (hfault events).1]
    · simp only [outcome, (hfault events).1]
    · simp only [outcome, (hfault _).1]
    · simp only [outcome, (hfault _).1]

/-- An overlay of two empty frames. -/
def emptyOverlay : OverlayTask Rat :=
  { painter := .cells id, canvas := ⟨2, 2⟩, fps := 25, elements := [], tracks := []
    durationMs := 80, directory := "frames" }

/-- Two workers take turns, and the second frame is finished first. -/
theorem emptyOverlay_has_all_frames :
    let turns : List FrameEvent := [.look 0, .look 1, .draw 1, .keep 1, .draw 0, .write 1,
      .collect 1, .keep 0, .write 0, .cancel, .collect 0, .close]
    let outcome :=
      emptyOverlay.renderPrepared (fun _ => turns) (.ok []) (some fun _ _ => none) false none
    outcome.ended = true ∧ outcome.reports = [(1, 2), (2, 2)] ∧
      ∃ files, outcome.files = some files ∧
        (files.map (·.1)).Perm ["frame_000000.png", "frame_000001.png"] := by
  intro turns outcome
  have hended : outcome.ended = true := by decide +kernel
  have hsome : outcome.files.isSome = true := by decide +kernel
  obtain ⟨count, hcount, hends, -⟩ :=
    overlay_all_or_nothing emptyOverlay (.ok []) (some fun _ _ => none) false
  obtain rfl : count = 2 := Except.ok.inj (hcount.symm.trans (by decide +kernel))
  obtain ⟨-, -, hreports, files, hfiles, hperm, -⟩ | ⟨fault, -, hnone, -⟩ :=
    hends (fun _ => turns) hended
  · exact ⟨hended, hreports, files, hfiles, hperm⟩
  · rw [hnone] at hsome
    cases hsome

end TimelineExport
