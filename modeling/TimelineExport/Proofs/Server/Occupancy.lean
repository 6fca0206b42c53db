import TimelineExport.Proofs.Server.Leaving
import TimelineExport.Proofs.Server.Slots

/-!
# What outlasts the task of a job

When the task of a job ends, its export is over, unless the export, its engine or a worker thread
was left to itself at some moment (`Orchestrator.Meets`). Whatever else happens, nothing outlasts a
task, and an export that is over has removed its work directory.

A task holds its slot until it ends. So no more exports have a work directory, or a job that is
processing, than there are slots, besides those that go on after their tasks. These are the parts
of `Orchestrator.outlasts_iff`.
-/

namespace TimelineExport

namespace Supervised

variable {t : Supervised}

/-- Whether an export has a work directory or its job is processing. -/
def isBusy (t : Supervised) : Bool :=
  t.execution.stage.ownsDirectory || t.job.status = .processing

/-- Whether an export goes on after its task has ended. -/
def isLeft (t : Supervised) : Bool :=
  t.phase = .ended && t.execution.stage.ownsDirectory

/-- A busy export has a slot, unless its task has ended. -/
theorem holdsSlot_or_isLeft (ht : t.Sound)
    (hready : t.execution.stage = .ready → t.job.status ≠ .processing) (hbusy : t.isBusy = true) :
    t.phase.holdsSlot = true ∨ t.isLeft = true := by
  have hbegun : t.execution.stage ≠ .ready := fun hstage => by
    simp [isBusy, hstage, ExportStage.ownsDirectory, hready hstage] at hbusy
  cases hphase : t.phase with
  | created => exact absurd (ht.unstarted (.inl hphase)).1 hbegun
  | waiting => exact absurd (ht.unstarted (.inr (.inl hphase))).1 hbegun
  | granted => exact .inl rfl
  | running => exact .inl rfl
  | cancelling reason => exact .inl rfl
  | ended =>
    have hterminal : t.job.isTerminal = true := by
      by_contra hactive
      exact hbegun (ht.abandoned hphase (Bool.not_eq_true _ ▸ hactive))
    have hended : t.job.status ≠ .processing := fun hprocessing => by
      rw [Job.isTerminal, hprocessing] at hterminal
      cases hterminal
    exact .inr (by simpa [isBusy, isLeft, hphase, hended] using hbusy)

end Supervised

namespace Orchestrator

variable {s : Orchestrator} {events : List OrchestratorEvent} {event : OrchestratorEvent}
  {id : String} {t later : Supervised}
  {P : Orchestrator → OrchestratorEvent → Supervised → Prop}

/-! ### Moments of a run -/

/-- **At a moment of a run** an event meets the export of a job, and something holds of the two. -/
def Meets (s : Orchestrator) (events : List OrchestratorEvent) (id : String)
    (P : Orchestrator → OrchestratorEvent → Supervised → Prop) : Prop :=
  ∃ before event after, events = before ++ event :: after ∧
    ∃ t ∈ (s.run before).exports, t.id = id ∧ P (s.run before) event t

theorem Meets.append (h : s.Meets events id P) (more : List OrchestratorEvent) :
    s.Meets (events ++ more) id P := by
  obtain ⟨before, event, after, rfl, ht⟩ := h
  exact ⟨before, event, after ++ more, by rw [List.append_assoc, List.cons_append], ht⟩

/-- The last event of a run meets the exports that were there before. -/
theorem meets_last (ht : t ∈ (s.run events).exports) (hP : P (s.run events) event t) :
    s.Meets (events ++ [event]) t.id P :=
  ⟨events, event, [], rfl, t, ht, rfl, hP⟩

/-- What is brought about at a moment, and stays, holds at the end of the run. -/
theorem Meets.exists_run (hs : s.Sound) {Q : Supervised → Prop}
    (hQ : ∀ {s event t later}, Supervised.Moves s event t later → Q t → Q later)
    (hevent : ∀ {before event t}, t ∈ (s.run before).exports → P (s.run before) event t →
      ∃ later ∈ ((s.run before).apply event).exports, later.id = t.id ∧ Q later)
    (h : s.Meets events id P) : ∃ t ∈ (s.run events).exports, t.id = id ∧ Q t := by
  obtain ⟨before, event, after, rfl, t, ht, rfl, hP⟩ := h
  have hbefore := hs.run before
  rw [run_append]
  exact (spec_apply hbefore event).1.exists_run hQ after (hevent ht hP)

/-! ### Steps of an export -/

/-- The export of a job is carried on, and changes the host. -/
theorem Sound.carry_eq (hs : s.Sound) (ht : t ∈ s.exports)
    (f : Host → Supervised → Host × Supervised) :
    s.carry t.id f = { s.change t.id fun _ => (f s.host t).2 with host := (f s.host t).1 } := by
  unfold carry
  split
  · next hnone =>
    have hid := List.find?_eq_none.mp hnone t ht
    simp at hid
  · next found hfound =>
    have hid : found.id = t.id := by simpa using List.find?_some hfound
    rw [hs.eq_of_id (List.mem_of_find?_eq_some hfound) ht hid]

theorem Sound.mem_carry (hs : s.Sound) (ht : t ∈ s.exports)
    (f : Host → Supervised → Host × Supervised) : (f s.host t).2 ∈ (s.carry t.id f).exports := by
  rw [hs.carry_eq ht]
  exact List.mem_map.mpr ⟨t, ht, if_pos rfl⟩

/-- The export of a job that has begun takes its step on the host. -/
theorem Sound.host_carry (hs : s.Sound) (ht : t ∈ s.exports) (hbegun : t.execution.stage ≠ .ready)
    (f : Host → Execution → Host × Execution) :
    (s.carry t.id fun h t => t.carry f h).host = (f s.host t.execution).1 := by
  rw [hs.carry_eq ht]
  exact congrArg Prod.fst (Supervised.carry_of_begun (hs.exports t ht) hbegun f s.host)

/-! ### What outlasts a task -/

/-- **What is left to itself is accounted for**: it was left at a moment of the run. -/
structure Accounts (s : Orchestrator) (events : List OrchestratorEvent) (t : Supervised) :
    Prop where
  tends : t.execution.Tends
  engine : t.execution.HasStrayEngine → s.Meets events t.id Supervised.LeavesEngine
  thread : t.execution.strayThread = true → s.Meets events t.id Supervised.LeavesThread
  directory : t.phase = .ended → t.execution.stage.ownsDirectory = true →
    s.Meets events t.id Supervised.LeavesExport
  ready : t.execution.stage = .ready → t.job.status ≠ .processing

namespace Accounts

theorem of_isNew (ht : t.IsNew) : s.Accounts events t := by
  obtain ⟨job, request, rfl, hstatus⟩ := ht
  refine ⟨.of_quiet rfl nofun, (fun hstray => nomatch hstray.2), nofun, nofun,
    fun _ hprocessing => ?_⟩
  cases hstatus.symm.trans hprocessing

theorem of_moves (haccounts : s.Accounts events t) (ht : t.Sound)
    (hmem : t ∈ (s.run events).exports) (hmove : t.Moves (s.run events) event later) :
    s.Accounts (events ++ [event]) later := by
  have hid := hmove.id_eq ht
  obtain ⟨htends, hengine⟩ := hmove.tends ht haccounts.tends
  constructor
  · exact htends
  · intro hstray
    rw [hid]
    obtain hstray | hleaves := hengine hstray
    · exact (haccounts.engine hstray).append [event]
    · exact meets_last hmem hleaves
  · intro hstray
    rw [hid]
    obtain hstray | hleaves := hmove.leavesThread hstray
    · exact (haccounts.thread hstray).append [event]
    · exact meets_last hmem hleaves
  · intro hphase howns
    rw [hid]
    obtain ⟨hphase, howns⟩ | hleaves := hmove.leavesExport ht hphase howns
    · exact (haccounts.directory hphase howns).append [event]
    · exact meets_last hmem hleaves
  · exact hmove.status_ne_processing ht haccounts.ready

end Accounts

/-- **Whatever is left to itself is accounted for** after every list of events. -/
theorem accounts_run (settings : ServiceSettings) (host : Host)
    (events : List OrchestratorEvent) :
    ∀ t ∈ ((start settings host).run events).exports, (start settings host).Accounts events t :=
  forall_mem_run settings host .of_isNew (fun ht hmem _ hmove h => h.of_moves ht hmem hmove) events

/-- The task of a job has ended by the end of a run. -/
def HasTaskEnded (s : Orchestrator) (events : List OrchestratorEvent) (id : String) : Prop :=
  ∃ t ∈ (s.run events).exports, t.id = id ∧ t.phase = .ended

/-- **Something of an export outlasts its task**: at some moment of a run the task has ended and
the export is not over. -/
def Outlasts (s : Orchestrator) (events : List OrchestratorEvent) (id : String) : Prop :=
  ∃ before after, events = before ++ after ∧
    ∃ t ∈ (s.run before).exports, t.id = id ∧ t.phase = .ended ∧ ¬ t.execution.IsOver

/-- How many exports have a work directory or a job that is processing. -/
def occupied (s : Orchestrator) : Nat := s.exports.countP (·.isBusy)

/-- How many exports go on after their tasks have ended. -/
def left (s : Orchestrator) : Nat := s.exports.countP (·.isLeft)

/-- A task that is asked again leaves its export. -/
theorem outlasts_of_leavesExport (hs : s.Sound)
    (h : s.Meets events id Supervised.LeavesExport) : s.Outlasts events id := by
  obtain ⟨before, event, after, rfl, t, ht, rfl, hleaves⟩ := h
  obtain rfl := hleaves.1
  obtain ⟨later, hlater, hid, hmove⟩ := (hs.run before).exists_apply (.supervise t.id) ht
  obtain rfl := hmove.of_supervise
  obtain ⟨hphase, howns⟩ := hleaves.step (t.stepsTo_step (s.run before).settings
    (s.run before).now (s.run before).mayEnter (s.run before).host)
  refine ⟨before ++ [.supervise t.id], after, by simp, _, ?_, hid, hphase, fun hover => ?_⟩
  · rw [run_append]
    exact hlater
  · cases howns.symm.trans hover.directory

/-- An engine that was left to itself is so at the end of the run. -/
theorem exists_hasStrayEngine (settings : ServiceSettings) (host : Host)
    (h : (start settings host).Meets events id Supervised.LeavesEngine) :
    ∃ t ∈ ((start settings host).run events).exports, t.id = id ∧ t.execution.HasStrayEngine := by
  refine h.exists_run (sound_start settings host) Supervised.Moves.hasStrayEngine
    fun {before event t} ht hleaves => ?_
  have hs := sound_run settings host before
  have hsound := hs.exports t ht
  have htends := (accounts_run settings host before t ht).tends
  generalize (start settings host).run before = s at *
  cases hleaves with
  | unreadable hevent hloses =>
    obtain rfl := hevent
    refine ⟨_, hs.mem_carry ht (Supervised.work s.settings s.now),
      (Supervised.follows_work hsound s.host).reaches.id_eq, ?_⟩
    rw [Supervised.work, Supervised.carry_of_begun hsound hloses.stage_ne_ready]
    exact hloses.hasStrayEngine s.now
  | dropped outcome hevent hdrops =>
    obtain rfl := hevent
    have hbegun : t.execution.stage ≠ .ready := fun hready => by
      obtain ⟨⟨task, run, script, hstage, -⟩, -⟩ := hdrops
      cases hstage.symm.trans hready
    refine ⟨_, hs.mem_carry ht (Supervised.breakOff s.settings outcome),
      (Supervised.follows_breakOff hsound outcome s.host).reaches.id_eq, ?_⟩
    rw [Supervised.breakOff, Supervised.carry_of_begun hsound hbegun]
    exact hdrops.hasStrayEngine htends s.settings s.host

/-- A worker thread that was left to itself is so at the end of the run. -/
theorem exists_strayThread (hs : s.Sound) (h : s.Meets events id Supervised.LeavesThread) :
    ∃ t ∈ (s.run events).exports, t.id = id ∧ t.execution.strayThread = true := by
  refine h.exists_run hs (Q := fun t => t.execution.strayThread = true)
    Supervised.Moves.strayThread fun {before event t} ht hleaves => ?_
  obtain rfl := hleaves.1
  obtain ⟨later, hlater, hid, hmove⟩ := (hs.run before).exists_apply (.supervise t.id) ht
  obtain rfl := hmove.of_supervise
  exact ⟨_, hlater, hid, hleaves.step (t.stepsTo_step _ _ _ _)⟩

/-- **What outlasts a task**, and what made it. -/
theorem outlasts_iff_meets (settings : ServiceSettings) (host : Host)
    (events : List OrchestratorEvent) (id : String) :
    (start settings host).Outlasts events id ↔
      (start settings host).Meets events id Supervised.LeavesExport ∨
        (start settings host).HasTaskEnded events id ∧
          ((start settings host).Meets events id Supervised.LeavesEngine ∨
            (start settings host).Meets events id Supervised.LeavesThread) := by
  have hs := sound_start settings host
  constructor
  · rintro ⟨before, after, rfl, t, ht, rfl, hphase, hleft⟩
    have haccounts := accounts_run settings host before t ht
    cases howns : t.execution.stage.ownsDirectory with
    | true => exact .inl ((haccounts.directory hphase howns).append after)
    | false =>
      have hended : (start settings host).HasTaskEnded (before ++ after) t.id := by
        rw [HasTaskEnded, run_append]
        exact (hs.run before).exists_run Supervised.Moves.phase_ended after ⟨t, ht, rfl, hphase⟩
      refine .inr ⟨hended, ?_⟩
      by_cases hrunning : t.execution.engine = some .running
      · have hstray := haccounts.tends.hasStrayEngine howns hrunning
        exact .inl ((haccounts.engine hstray).append after)
      · have hstray : t.execution.strayThread = true := by
          by_contra hnone
          exact hleft ⟨howns, hrunning, Bool.not_eq_true _ ▸ hnone⟩
        exact .inr ((haccounts.thread hstray).append after)
  · rintro (hleaves | ⟨⟨t, ht, rfl, hphase⟩, hleaves⟩)
    · exact outlasts_of_leavesExport hs hleaves
    · have hrun := sound_run settings host events
      refine ⟨events, [], (List.append_nil _).symm, t, ht, rfl, hphase, fun hover => ?_⟩
      obtain hleaves | hleaves := hleaves
      · obtain ⟨t', ht', hid, hstray⟩ := exists_hasStrayEngine settings host hleaves
        rw [hrun.eq_of_id ht' ht hid] at hstray
        exact hover.engine hstray.2
      · obtain ⟨t', ht', hid, hstray⟩ := exists_strayThread hs hleaves
        rw [hrun.eq_of_id ht' ht hid, hover.thread] at hstray
        cases hstray

/-! ### Directories -/

/-- **An export that has no work directory any more has removed it.** -/
theorem Sound.isBare_apply (hs : s.Sound) (ht : t ∈ s.exports)
    (hlater : later ∈ (s.apply event).exports) (hid : later.id = t.id)
    (howns : t.execution.stage.ownsDirectory = true)
    (hnone : later.execution.stage.ownsDirectory = false) :
    (s.apply event).host.files.IsBare
      (resolvePath (s.apply event).host.cwd (Execution.directory s.settings t.id)) := by
  have hsound := hs.exports t ht
  have hafter := (spec_apply hs event).1
  have hbegun : t.execution.stage ≠ .ready := fun hstage => by
    rw [hstage] at howns
    cases howns
  obtain ⟨later', hlater', hid', hmove⟩ := hs.exists_apply event ht
  obtain rfl := hafter.eq_of_id hlater' hlater (hid'.trans hid.symm)
  have hopen : ¬ later'.execution.stage.ownsDirectory = true := by simp [hnone]
  have hbare {f : Host → Execution → Host × Execution}
      (htidies : Execution.Tidies s.settings (f s.host t.execution))
      (hexecution : later'.execution = (f s.host t.execution).2)
      (hhost : (s.apply event).host = (f s.host t.execution).1) :
      (s.apply event).host.files.IsBare
        (resolvePath (s.apply event).host.cwd (Execution.directory s.settings t.id)) := by
    rw [Execution.Tidies, ← hexecution, ← hhost] at htidies
    exact hid ▸ htidies.resolve_left hopen
  cases hmove.handles with
  | still hexecution => exact absurd (hexecution ▸ howns) hopen
  | treated _ htreats => exact absurd ((htreats.ownsDirectory_eq hsound).trans howns) hopen
  | worked hevent _ hexecution =>
    obtain rfl := hevent
    exact hbare (Execution.tidies_step s.now s.host howns) hexecution (hs.host_carry ht hbegun _)
  | brokenOff outcome hevent hexecution =>
    obtain rfl := hevent
    exact hbare (Execution.tidies_breakOff outcome s.host howns) hexecution
      (hs.host_carry ht hbegun _)

/-! ### Slots -/

/-- What is one of two things is counted with one of them. -/
theorem countP_or_le {α : Type} (p q : α → Bool) (xs : List α) :
    xs.countP (fun x => p x || q x) ≤ xs.countP p + xs.countP q := by
  induction xs with
  | nil => exact Nat.zero_le _
  | cons x xs ih =>
    simp only [List.countP_cons]
    cases p x <;> cases q x <;> simp <;> omega

/-- **As many exports are busy as there are slots at most**, besides those that go on after their
tasks. -/
theorem occupied_run_le (settings : ServiceSettings) (host : Host)
    (events : List OrchestratorEvent) :
    ((start settings host).run events).occupied ≤
      settings.maxConcurrentJobs.toNat + ((start settings host).run events).left := by
  have hs := sound_run settings host events
  have hbusy : ((start settings host).run events).occupied ≤
      ((start settings host).run events).exports.countP fun t => t.phase.holdsSlot || t.isLeft := by
    refine List.countP_mono_left fun t ht hbusy => ?_
    have hready := (accounts_run settings host events t ht).ready
    simpa using Supervised.holdsSlot_or_isLeft (hs.exports t ht) hready hbusy
  calc ((start settings host).run events).occupied
      ≤ ((start settings host).run events).slotsHeld +
          ((start settings host).run events).left := hbusy.trans (countP_or_le _ _ _)
    _ ≤ _ := Nat.add_le_add_right (slotsHeld_run_le settings host events) _

/-- A task that nobody asks to cancel does not leave its export. -/
theorem not_meets_leavesExport {settings : ServiceSettings} {host : Host}
    (hquiet : ∀ event ∈ events, ¬ event.Asks id) :
    ¬ (start settings host).Meets events id Supervised.LeavesExport := by
  rintro ⟨before, event, after, rfl, t, ht, rfl, -, hasked, -⟩
  obtain ⟨cause, hmem, hasks⟩ := (grounded_run settings host before t ht).asked hasked
  exact hquiet cause (List.mem_append_left _ hmem) hasks

/-- No export goes on after its task if no task is asked again. -/
theorem left_eq_zero (settings : ServiceSettings) (host : Host) (events : List OrchestratorEvent)
    (h : ∀ id, ¬ (start settings host).Meets events id Supervised.LeavesExport) :
    ((start settings host).run events).left = 0 := by
  refine List.countP_eq_zero.mpr fun t ht hleft => h t.id ?_
  obtain ⟨hphase, howns⟩ := Bool.and_eq_true_iff.mp hleft
  exact (accounts_run settings host events t ht).directory (of_decide_eq_true hphase) howns

/-- **What outlasts tasks, and how much goes on at a time.** After any list of events:

* at some moment something of an export has gone on after its task had ended, if and only if the
  task was asked to cancel again while the export cleaned up, or the task has ended and the engine
  or a worker thread was left to itself;
* as soon as an export has no work directory any more, nothing is at its place or below;
* as many exports have a work directory, or a job that is processing, as there are slots at most,
  besides those that go on after their tasks; and if no task was asked again, no export does. -/
theorem outlasts_iff (settings : ServiceSettings) (host : Host) (events : List OrchestratorEvent) :
    let s := start settings host
    (∀ id, s.Outlasts events id ↔ s.Meets events id Supervised.LeavesExport ∨
      s.HasTaskEnded events id ∧ (s.Meets events id Supervised.LeavesEngine ∨
        s.Meets events id Supervised.LeavesThread)) ∧
    (∀ event, ∀ t ∈ (s.run events).exports, ∀ later ∈ (s.run (events ++ [event])).exports,
      later.id = t.id → t.execution.stage.ownsDirectory = true →
        later.execution.stage.ownsDirectory = false →
          (s.run (events ++ [event])).host.files.IsBare
            (resolvePath (s.run (events ++ [event])).host.cwd
              (Execution.directory settings t.id))) ∧
    (s.run events).occupied ≤ settings.maxConcurrentJobs.toNat + (s.run events).left ∧
    ((∀ id, ¬ s.Meets events id Supervised.LeavesExport) → (s.run events).left = 0) := by
  intro s
  refine ⟨outlasts_iff_meets settings host events,
    fun event t ht later hlater hid howns hnone => ?_,
    occupied_run_le settings host events, left_eq_zero settings host events⟩
  have hs := sound_run settings host events
  have hsettings : (s.run events).settings = settings := settings_run s events
  rw [run_append] at hlater ⊢
  have hbare := hs.isBare_apply ht hlater hid howns hnone
  rwa [hsettings] at hbare

/-- The steps of an undisturbed export, up to the one that stores the result. -/
def storingSteps : List OrchestratorEvent :=
  .submit stillRequest :: .supervise "job-1" :: List.replicate 6 (.work "job-1")

/-- An undisturbed export leaves nothing. -/
theorem stored_export_leaves_nothing :
    ((start {} stillHost).run (storingSteps ++ [.work "job-1"])).host.files.IsBare
        (resolvePath ((start {} stillHost).run (storingSteps ++ [.work "job-1"])).host.cwd
          (Execution.directory {} "job-1")) ∧
      ((start {} stillHost).run storingSteps).left = 0 := by
  obtain ⟨t, ht, hid, howns⟩ : ∃ t ∈ ((start {} stillHost).run storingSteps).exports,
      t.id = "job-1" ∧ t.execution.stage.ownsDirectory = true := by decide +kernel
  obtain ⟨later, hlater, hid', hnone⟩ :
      ∃ later ∈ ((start {} stillHost).run (storingSteps ++ [.work "job-1"])).exports,
        later.id = "job-1" ∧ later.execution.stage.ownsDirectory = false := by decide +kernel
  obtain ⟨-, hbare, -, hleft⟩ := outlasts_iff {} stillHost storingSteps
  refine ⟨hid ▸ hbare (.work "job-1") t ht later hlater (hid'.trans hid.symm) howns hnone,
    hleft fun id => not_meets_leavesExport ?_⟩
  simp [storingSteps, OrchestratorEvent.Asks]

/-- Two exports for one slot. The first waits for the engine, is cancelled, and is cancelled again
before the engine has exited; then the second begins. -/
def askedAgainSteps : List OrchestratorEvent :=
  [.submit stillRequest, .submit stillRequest, .supervise "job-1", .supervise "job-2"] ++
    List.replicate 4 (.work "job-1") ++
    [.cancel "job-1", .supervise "job-1", .cancel "job-1", .supervise "job-1", .supervise "job-2",
      .work "job-2"]

/-- A host whose engine waits for ever. -/
def hangingHost : Host := { stillHost with engines := [{ blocks := true }] }

/-- A host whose engine prints a line that is too long, and waits for ever. -/
def garblingHost : Host :=
  { stillHost with engines := [{ opening := [.overrun "the line is too long"], blocks := true }] }

/-- **Two exports have a work directory at a time** although there is one slot, and an export is not
over whose task has ended. So it is where the engine prints what cannot be read. -/
theorem asked_again_exceeds_slots :
    ((start { maxConcurrentJobs := 1 } hangingHost).run askedAgainSteps).occupied = 2 ∧
      (start { maxConcurrentJobs := 1 } hangingHost).Outlasts askedAgainSteps "job-1" ∧
      (start { maxConcurrentJobs := 1 } garblingHost).Outlasts completingSteps "job-1" := by
  have hgoing : ((start { maxConcurrentJobs := 1 } hangingHost).run askedAgainSteps).occupied = 2 ∧
      ∃ t ∈ ((start { maxConcurrentJobs := 1 } hangingHost).run askedAgainSteps).exports,
        t.id = "job-1" ∧ t.phase = .ended ∧ t.execution.stage.ownsDirectory = true := by
    decide +kernel
  have hrunning : ∃ t ∈ ((start { maxConcurrentJobs := 1 } garblingHost).run
      completingSteps).exports, t.id = "job-1" ∧ t.phase = .ended ∧
        t.execution.engine = some .running := by decide +kernel
  refine ⟨hgoing.1, ?_, ?_⟩
  · obtain ⟨t, ht, hid, hphase, howns⟩ := hgoing.2
    refine ⟨askedAgainSteps, [], (List.append_nil _).symm, t, ht, hid, hphase, fun hover => ?_⟩
    cases howns.symm.trans hover.directory
  · obtain ⟨t, ht, hid, hphase, hengine⟩ := hrunning
    exact ⟨completingSteps, [], (List.append_nil _).symm, t, ht, hid, hphase,
      fun hover => hover.engine hengine⟩

end Orchestrator

end TimelineExport
