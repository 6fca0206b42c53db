import Mathlib.Data.List.Induction
import TimelineExport.Proofs.Server.Orchestrator
import TimelineExport.Proofs.Timeline.Accepted

/-!
# Which jobs end

A job ends when its task does, unless the task was asked to cancel before it had begun
(`Orchestrator.CancelledUnstarted`): such a task ends without a trace, and the job stays queued for
ever. This is so after every list of events (`Orchestrator.isLost_iff`), and it decides what a
cancellation answers and which jobs end at a shutdown.

After it was asked to cancel, a task ends within one step of its own, one of its export and
another of its own (`Orchestrator.Sound.ended_of_closingSteps`), whatever else happens in between.
-/

namespace TimelineExport

/-! ### Tasks that come to an end -/

namespace Supervised

variable {s : Orchestrator} {event : OrchestratorEvent} {t later : Supervised}

theorem Moves.phase_ended (h : Moves s event t later) (ht : t.phase = .ended) :
    later.phase = .ended :=
  h.keeps (P := fun t => t.phase = .ended) ht ht
    (HasStopped.step (.inl ht) (t.stepsTo_step _ _ _ _)) ((phase_carry _ _).trans ht)
    (fun _ => (phase_carry _ _).trans ht) (fun hwaiting => by cases ht.symm.trans hwaiting) ht ht

theorem Moves.hasStopped (h : Moves s event t later) (ht : t.HasStopped) :
    later.HasStopped := by
  refine h.keeps ht ht (.inl (ht.step (t.stepsTo_step _ _ _ _))) (IsStopping.work (.inl ht) _)
    (fun outcome => ht.breakOff outcome _) (fun hwaiting => ?_) ht ht
  obtain hphase | ⟨_, _, hphase, -⟩ := ht <;> cases hphase.symm.trans hwaiting

theorem Moves.isStopping (h : Moves s event t later) (ht : t.IsStopping) :
    later.IsStopping := by
  refine h.keeps ht ht (ht.step (t.stepsTo_step _ _ _ _)) (.inl (ht.work _))
    (fun outcome => ht.breakOff outcome _) (fun hwaiting => ?_) ht ht
  obtain (hphase | ⟨_, _, hphase, -⟩) | ⟨_, hphase, -⟩ := ht <;> cases hphase.symm.trans hwaiting

theorem Moves.isLeaving (h : Moves s event t later) (ht : t.IsLeaving) :
    later.IsLeaving := by
  refine h.keeps ht (.inr rfl) (.inl (ht.step (t.stepsTo_step _ _ _ _))) (ht.work _)
    (fun outcome => ht.breakOff outcome _) (fun hwaiting => ?_) ht ht
  obtain ((hphase | ⟨_, _, hphase, -⟩) | ⟨_, hphase, -⟩) | hasked := ht
  · cases hphase.symm.trans hwaiting
  · cases hphase.symm.trans hwaiting
  · cases hphase.symm.trans hwaiting
  · exact .inr hasked

/-- The task takes the step that the event says. -/
theorem Moves.of_supervise (h : Moves s (.supervise t.id) t later) :
    later = (t.step s.settings s.now s.mayEnter s.host).2 := by
  cases h with
  | stay _ hstep => exact absurd rfl hstep
  | ask hevent => obtain hevent | hevent := hevent <;> cases hevent
  | step => rfl
  | work hevent => cases hevent
  | breakOff _ hevent => cases hevent
  | grant _ id hid hevent =>
    cases hevent
    exact absurd rfl hid
  | overdue hevent => cases hevent
  | forget _ _ hevent => cases hevent

/-- The export takes the step that the event says. -/
theorem Moves.of_work (h : Moves s (.work t.id) t later) :
    later = (t.work s.settings s.now s.host).2 := by
  cases h with
  | stay _ _ hwork => exact absurd rfl hwork
  | ask hevent => obtain hevent | hevent := hevent <;> cases hevent
  | step hevent => cases hevent
  | work => rfl
  | breakOff _ hevent => cases hevent
  | grant _ _ _ hevent => cases hevent
  | overdue hevent => cases hevent
  | forget _ _ hevent => cases hevent

end Supervised

namespace Orchestrator

variable {s : Orchestrator} {id : String}

/-! ### Runs that end a task -/

/-- What moves keep holds of an export to the end of a run. -/
theorem Sound.exists_run (hs : s.Sound) {P : Supervised → Prop}
    (hP : ∀ {s event t later}, Supervised.Moves s event t later → P t → P later)
    (events : List OrchestratorEvent) (h : ∃ t ∈ s.exports, t.id = id ∧ P t) :
    ∃ t ∈ (s.run events).exports, t.id = id ∧ P t := by
  induction events generalizing s with
  | nil => exact h
  | cons event events ih =>
    obtain ⟨t, ht, rfl, hPt⟩ := h
    obtain ⟨later, hlater, hid, hmove⟩ := hs.exists_apply event ht
    exact ih (spec_apply hs event).1 ⟨later, hlater, hid, hP hmove hPt⟩

/-- A run in which an event happens brings about what the event does. -/
theorem Sound.exists_run_of_event (hs : s.Sound) {P Q : Supervised → Prop}
    {event : OrchestratorEvent} {events : List OrchestratorEvent}
    (hP : ∀ {s event t later}, Supervised.Moves s event t later → P t → P later)
    (hQ : ∀ {s event t later}, Supervised.Moves s event t later → Q t → Q later)
    (hevent : ∀ {s t later}, t.id = id → Supervised.Moves s event t later → P t →
      Q later)
    (hmem : event ∈ events) (h : ∃ t ∈ s.exports, t.id = id ∧ P t) :
    ∃ t ∈ (s.run events).exports, t.id = id ∧ Q t := by
  obtain ⟨before, after, rfl⟩ := List.append_of_mem hmem
  obtain ⟨t, ht, hid, hPt⟩ := hs.exists_run hP before h
  obtain ⟨later, hlater, hid', hmove⟩ := (hs.run before).exists_apply event ht
  rw [run_append]
  exact (spec_apply (hs.run before) event).1.exists_run hQ after
    ⟨later, hlater, hid'.trans hid, hevent hid hmove hPt⟩

/-- The steps in which a task ends that was asked to cancel. -/
def closingSteps (id : String) : List OrchestratorEvent := [.supervise id, .work id, .supervise id]

/-- **A task that was asked to cancel ends** within two steps of its own and one of its export,
whatever else happens in between. -/
theorem Sound.ended_of_closingSteps (hs : s.Sound) {events : List OrchestratorEvent}
    (hsteps : (closingSteps id).Sublist events)
    (h : ∃ t ∈ s.exports, t.id = id ∧ t.IsLeaving) :
    ∃ t ∈ (s.run events).exports, t.id = id ∧ t.phase = .ended := by
  obtain ⟨first, rest, rfl, hfirst, hsteps⟩ := List.cons_sublist_iff.mp hsteps
  obtain ⟨second, third, rfl, hsecond, hthird⟩ := List.cons_sublist_iff.mp hsteps
  have hstopping := hs.exists_run_of_event (Q := Supervised.IsStopping)
    Supervised.Moves.isLeaving Supervised.Moves.isStopping (fun hid hmove ht => by
      obtain rfl := (hid ▸ hmove).of_supervise
      exact ht.step (Supervised.stepsTo_step _ _ _ _ _)) hfirst h
  have hstopped := (hs.run first).exists_run_of_event (Q := Supervised.HasStopped)
    Supervised.Moves.isStopping Supervised.Moves.hasStopped (fun hid hmove ht => by
      obtain rfl := (hid ▸ hmove).of_work
      exact ht.work _) hsecond hstopping
  rw [run_append, run_append]
  exact ((hs.run first).run second).exists_run_of_event
    Supervised.Moves.hasStopped Supervised.Moves.phase_ended (fun hid hmove ht => by
      obtain rfl := (hid ▸ hmove).of_supervise
      exact ht.step (Supervised.stepsTo_step _ _ _ _ _))
    (List.singleton_sublist.mp hthird) hstopped

/-- At a shutdown every task has ended or is asked to cancel. -/
theorem isLeaving_of_mem_shutdown {t : Supervised} (ht : t ∈ s.shutdown.exports) : t.IsLeaving := by
  obtain ⟨t, -, rfl⟩ := List.mem_map.mp ht
  split
  · next hended => exact .inl (.inl (.inl hended))
  · exact .inr rfl

/-- A shutdown ends every task that was there, once each has taken its steps. -/
theorem Sound.ended_of_shutdown (hs : s.Sound) {t : Supervised} (ht : t ∈ s.exports)
    {events : List OrchestratorEvent} (hsteps : (closingSteps t.id).Sublist events) :
    ∃ later ∈ (s.run (.shutdown :: events)).exports, later.id = t.id ∧ later.phase = .ended := by
  obtain ⟨hsound, -⟩ := spec_apply hs .shutdown
  obtain ⟨later, hlater, hid, -⟩ := hs.exists_apply .shutdown ht
  exact hsound.ended_of_closingSteps hsteps ⟨later, hlater, hid, isLeaving_of_mem_shutdown hlater⟩

/-! ### Jobs that do not end -/

/-- **The task of a job was asked to cancel before it had begun**, at some moment of a run. -/
def CancelledUnstarted (s : Orchestrator) (events : List OrchestratorEvent) (id : String) : Prop :=
  ∃ before event after, events = before ++ event :: after ∧ event.Asks id ∧
    ∃ t ∈ (s.run before).exports, t.id = id ∧ t.phase = .created

/-- Of a longer list the last member may be the one. -/
theorem exists_split_append_singleton {β : Type} {P : List β → β → Prop} {xs : List β} {x : β} :
    (∃ before y after, xs ++ [x] = before ++ y :: after ∧ P before y) ↔
      (∃ before y after, xs = before ++ y :: after ∧ P before y) ∨ P xs x := by
  constructor
  · rintro ⟨before, y, after, heq, hP⟩
    obtain rfl | ⟨after, last, rfl⟩ := List.eq_nil_or_concat after
    · obtain ⟨rfl, hlast⟩ := List.append_inj' heq rfl
      cases hlast
      exact .inr hP
    · rw [List.concat_eq_append, ← List.cons_append, ← List.append_assoc] at heq
      obtain ⟨rfl, -⟩ := List.append_inj' heq rfl
      exact .inl ⟨before, y, after, rfl, hP⟩
  · rintro (⟨before, y, after, rfl, hP⟩ | hP)
    · refine ⟨before, y, after ++ [x], ?_, hP⟩
      rw [List.append_assoc, List.cons_append]
    · exact ⟨xs, x, [], rfl, hP⟩

/-- Of a longer run the last event may be the one. -/
theorem cancelledUnstarted_append_singleton {events : List OrchestratorEvent}
    {event : OrchestratorEvent} :
    s.CancelledUnstarted (events ++ [event]) id ↔ s.CancelledUnstarted events id ∨
      event.Asks id ∧ ∃ t ∈ (s.run events).exports, t.id = id ∧ t.phase = .created :=
  exists_split_append_singleton

/-- Only a job that was there is lost. -/
theorem CancelledUnstarted.exists_export (hs : s.Sound) {events : List OrchestratorEvent}
    (h : s.CancelledUnstarted events id) : ∃ t ∈ (s.run events).exports, t.id = id := by
  obtain ⟨before, event, after, rfl, -, t, ht, hid, -⟩ := h
  obtain ⟨later, hlater, hid, -⟩ := (hs.run before).exists_run (P := fun _ => True)
    (fun _ _ => trivial) (event :: after) ⟨t, ht, hid, trivial⟩
  exact ⟨later, run_append s _ _ ▸ hlater, hid⟩

/-- **A job is lost if and only if its task was asked to cancel before it had begun.** -/
theorem isLost_iff (settings : ServiceSettings) (host : Host) (events : List OrchestratorEvent) :
    ∀ t ∈ ((start settings host).run events).exports,
      (t.IsLost ↔ (start settings host).CancelledUnstarted events t.id) := by
  have hstart := sound_start settings host
  -- from the last event back, since a move is judged by the state before it
  induction events using List.reverseRecOn with
  | nil => simp [run, start]
  | append_singleton events event ih =>
    intro later hlater
    have hs := hstart.run events
    have hrun : (start settings host).run (events ++ [event]) =
        ((start settings host).run events).apply event := run_append _ _ _
    rw [cancelledUnstarted_append_singleton]
    obtain ⟨t, ht, hid, hmove⟩ | ⟨hnew, hlater⟩ := hs.of_mem_apply (hrun ▸ hlater)
    · rw [(hmove.spec (hs.exports t ht)).2.2, ih t ht, hid]
      refine or_congr_right (and_congr_right fun _ => ⟨fun hphase => ⟨t, ht, rfl, hphase⟩, ?_⟩)
      rintro ⟨t', ht', hid', hphase⟩
      rwa [← hs.eq_of_id ht' ht hid']
    · -- a new job was not there before, so nothing can have happened to it
      refine iff_of_false hlater.sound.2 ?_
      rintro (hcause | ⟨-, t, ht, hid, -⟩)
      · obtain ⟨t, ht, hid⟩ := hcause.exists_export hstart
        exact hnew (hid ▸ List.mem_map_of_mem ht)
      · exact hnew (hid ▸ List.mem_map_of_mem ht)

/-- A job that has ended, or whose task has, is lost unless it has ended. -/
theorem isTerminal_iff {settings : ServiceSettings} {host : Host}
    {events : List OrchestratorEvent} {t : Supervised}
    (ht : t ∈ ((start settings host).run events).exports)
    (hdone : t.job.isTerminal = true ∨ t.phase = .ended) :
    t.job.isTerminal = true ↔ ¬ (start settings host).CancelledUnstarted events t.id := by
  have hsound : t.Sound := (sound_run settings host events).exports t ht
  rw [← isLost_iff settings host events t ht]
  constructor
  · rintro hterminal (⟨hphase, -⟩ | ⟨-, hactive⟩)
    · cases hterminal.symm.trans (hsound.unstarted (.inl hphase)).2
    · cases hterminal.symm.trans hactive
  · intro hlost
    obtain hterminal | hended := hdone
    · exact hterminal
    · by_contra hactive
      exact hlost (.inr ⟨hended, Bool.not_eq_true _ ▸ hactive⟩)

/-- **Which jobs end.** After any list of events:

* a job whose task has ended has ended, unless the task was asked to cancel before it had begun;
* so has a job that is not cancelled because there is nothing to cancel;
* so has every job that was there at a shutdown, once each task has taken its steps. -/
theorem job_ends_iff (settings : ServiceSettings) (host : Host) (events : List OrchestratorEvent) :
    (∀ t ∈ ((start settings host).run events).exports, t.phase = .ended →
      (t.job.isTerminal = true ↔ ¬ (start settings host).CancelledUnstarted events t.id)) ∧
    (∀ id, (((start settings host).run events).cancel id).1 = .ok false →
      ∃ t, ((start settings host).run events).export? id = some t ∧
        (t.job.isTerminal = true ↔ ¬ (start settings host).CancelledUnstarted events id)) ∧
    ∀ before after, events = before ++ .shutdown :: after →
      (∀ t ∈ ((start settings host).run before).exports, (closingSteps t.id).Sublist after) →
      ∀ t ∈ ((start settings host).run events).exports,
        t.id ∈ ((start settings host).run before).exports.map (·.id) →
        t.phase = .ended ∧
          (t.job.isTerminal = true ↔ ¬ (start settings host).CancelledUnstarted events t.id) := by
  refine ⟨fun t ht hphase => isTerminal_iff ht (.inr hphase), fun id hcancel => ?_, ?_⟩
  · unfold cancel at hcancel
    split at hcancel
    · cases hcancel
    · next t hsome =>
      obtain ⟨ht, -, rfl⟩ := mem_of_export? hsome
      refine ⟨t, hsome, ?_⟩
      split at hcancel
      · next hdone => exact isTerminal_iff ht (by simpa using hdone)
      · cases hcancel
  · rintro before after rfl hsteps t ht hid
    obtain ⟨first, hfirst, hid⟩ := List.mem_map.mp hid
    have hphase : t.phase = .ended := by
      obtain ⟨later, hlater, hid', hphase⟩ :=
        (sound_run settings host before).ended_of_shutdown hfirst (hsteps first hfirst)
      rw [← run_append] at hlater
      rwa [(sound_run settings host _).eq_of_id ht hlater (hid.symm.trans hid'.symm)]
    exact ⟨hphase, isTerminal_iff ht (.inr hphase)⟩

/-! ### One job -/

/-- A request to export one clip. -/
def clipRequest : ExportRequest :=
  { clips := [.plain .video "clip" "main" "a.mp4" 0 1000], tracks := [{ id := "main" }] }

/-- A host without files on which no program starts. -/
def bareHost : Host :=
  { outside := { probe := fun _ => .notStarted "" }, storage := .directory ⟨[], ""⟩ }

/-- A task that has begun ends its job at a shutdown. -/
theorem begun_job_ends_at_shutdown :
    let events : List OrchestratorEvent :=
      [.submit clipRequest, .supervise "job-1"] ++ .shutdown :: closingSteps "job-1"
    ∀ t ∈ ((start {} bareHost).run events).exports, t.phase = .ended ∧ t.job.status = .failed ∧
      ¬ (start {} bareHost).CancelledUnstarted events t.id := by
  intro events t ht
  have hids : ((start {} bareHost).run [.submit clipRequest, .supervise "job-1"]).exports.map
      (·.id) = ["job-1"] := by decide +kernel
  have hend : ((start {} bareHost).run events).exports.map (fun t => (t.id, t.job.status)) =
      [("job-1", .failed)] := by decide +kernel
  have ht' := List.mem_map_of_mem (f := fun t : Supervised => (t.id, t.job.status)) ht
  rw [hend, List.mem_singleton, Prod.mk.injEq] at ht'
  obtain ⟨hid, hstatus⟩ := ht'
  obtain ⟨hphase, hiff⟩ := (job_ends_iff {} bareHost events).2.2
    [.submit clipRequest, .supervise "job-1"] (closingSteps "job-1") rfl (fun x hx => by
      have hx' := List.mem_map_of_mem (f := fun t : Supervised => t.id) hx
      rw [hids, List.mem_singleton] at hx'
      rw [hx']) t ht (by rw [hids, hid]; exact List.mem_singleton_self _)
  refine ⟨hphase, hstatus, hiff.mp ?_⟩
  rw [Job.isTerminal, hstatus]
  rfl

/-- **A job that is cancelled before its task has begun stays queued**, also at a shutdown, and
cannot be cancelled any more. -/
theorem cancelled_unstarted_job_stays_queued :
    (let s := (start {} bareHost).run [.submit clipRequest, .cancel "job-1", .supervise "job-1"]
    s.exports.map (fun t => (t.phase, t.job.status)) = [(.ended, .queued)] ∧
      (s.cancel "job-1").1.toOption = some false) ∧
    let s := (start {} bareHost).run
      ([.submit clipRequest, .shutdown] ++ closingSteps "job-1")
    s.exports.map (fun t => (t.phase, t.job.status)) = [(.ended, .queued)] := by
  decide +kernel

end Orchestrator

end TimelineExport
