import TimelineExport.Proofs.Server.Outcome
import TimelineExport.Proofs.Server.Remains

/-!
# What tasks leave behind

A task treats its export in one of three ways: it leaves it alone, skips it, or cancels it
(`Supervised.Treats`). All that events make of an export is this, a step of the export, or its end
for another reason (`Supervised.Handles`).

Three things may go on when the task of a job has ended. A task that is asked to cancel again while
its export cleans up does not wait for it any longer (`Supervised.LeavesExport`); the process of the
engine may have been left to itself (`Supervised.LeavesEngine`), and so may a worker thread
(`Supervised.LeavesThread`). For each of them, a move that brings it about is of its kind.
-/

namespace TimelineExport

namespace Supervised

variable {settings : ServiceSettings} {now : Instant} {h : Host} {s : Orchestrator}
  {event : OrchestratorEvent} {t later : Supervised}

/-! ### Tasks and their exports -/

/-- **What a step of a task makes of its export.** -/
inductive Treats (h : Host) (t : Supervised) : Supervised → Prop
  /-- The export is left alone. At most its job is failed. -/
  | leaves {later : Supervised} (job : Job Float)
    (hexecution : later.execution = { t.execution with job }) : Treats h t later
  /-- The export has no time, and ends before it begins. -/
  | skips {later : Supervised}
    (hphase : t.phase = .created ∨ t.phase = .waiting ∨ t.phase = .granted)
    (hexecution : later.execution = { t.execution with stage := .ended .cancelled }) :
    Treats h t later
  | cancels {later : Supervised} (hphase : t.phase = .running)
    (hdue : t.asked = true ∨ t.overdue = true)
    (hexecution : later.execution = (t.execution.cancel h).2) : Treats h t later

/-- **One step of a task.** -/
theorem StepsTo.treats {slotFree : Bool} (hsteps : t.StepsTo settings now slotFree h later) :
    t.Treats h later := by
  cases hsteps with
  | unstarted => exact .leaves t.execution.job rfl
  | wait => exact .leaves t.execution.job rfl
  | enter hphase =>
    obtain ⟨-, heq⟩ | heq := t.enter_eq settings <;> rw [heq]
    · exact .skips (hphase.imp And.left .inr) rfl
    · exact .leaves t.execution.job rfl
  | giveUp =>
    obtain ⟨job, heq⟩ := t.giveUp_eq now
    exact .leaves job (by rw [heq]; rfl)
  | @settle reason outcome =>
    obtain ⟨job, heq⟩ := t.settleOutcome_eq settings now reason outcome
    exact .leaves job (by rw [heq]; rfl)
  | cancel hphase hdue =>
    exact .cancels hphase (hdue.imp And.right fun hdue => hdue.2.2) rfl
  | idle => exact .leaves t.execution.job rfl
  | ended => exact .leaves t.execution.job rfl

/-- An export that has begun is carried on. -/
theorem carry_of_begun (ht : t.Sound) (hbegun : t.execution.stage ≠ .ready)
    (f : Host → Execution → Host × Execution) (h : Host) :
    t.carry f h = ((f h t.execution).1, { t with execution := (f h t.execution).2 }) := by
  unfold carry
  split
  · next hphase => exact absurd (ht.unstarted (.inl hphase)).1 hbegun
  · next hphase => exact absurd (ht.unstarted (.inr (.inl hphase))).1 hbegun
  · next hphase => exact absurd (ht.unstarted (.inr (.inr hphase))).1 hbegun
  · next hstage => exact absurd hstage hbegun
  · rfl

/-- **What an event makes of an export** itself. -/
inductive Handles (s : Orchestrator) (event : OrchestratorEvent) (t later : Supervised) : Prop
  | still (hexecution : later.execution = t.execution)
  | treated (hevent : event = .supervise t.id) (htreats : t.Treats s.host later)
  | worked (hevent : event = .work t.id) (hbegun : t.phase = .ended → t.execution.stage ≠ .ready)
    (hexecution : later.execution = (t.execution.step s.settings s.now s.host).2)
  | brokenOff (outcome : ExportOutcome) (hevent : event = .breakOff t.id outcome)
    (hexecution : later.execution = (t.execution.breakOff s.settings outcome s.host).2)

theorem Moves.handles (hmove : Moves s event t later) : Handles s event t later := by
  cases hmove with
  | stay => exact .still rfl
  | ask => exact .still rfl
  | step hevent => exact .treated hevent (t.stepsTo_step _ _ _ _).treats
  | work hevent =>
    obtain heq | ⟨hbegun, heq⟩ := t.carry_cases (Execution.step s.settings s.now) s.host
    · exact .still (by rw [Supervised.work, heq])
    · exact .worked hevent hbegun (by rw [Supervised.work, heq])
  | breakOff outcome hevent =>
    obtain heq | ⟨-, heq⟩ := t.carry_cases (Execution.breakOff s.settings outcome) s.host
    · exact .still (by rw [Supervised.breakOff, heq])
    · exact .brokenOff outcome hevent (by rw [Supervised.breakOff, heq])
  | grant => exact .still rfl
  | overdue => exact .still rfl
  | forget => exact .still rfl

/-- What holds of an export however it is handled. -/
theorem Handles.keeps {P : Execution → Prop} (hhandles : Handles s event t later)
    (hstill : P t.execution) (hleaves : ∀ job, P { t.execution with job })
    (hskips : P { t.execution with stage := .ended .cancelled })
    (hcancels : P (t.execution.cancel s.host).2)
    (hworked : P (t.execution.step s.settings s.now s.host).2)
    (hbrokenOff : ∀ outcome, P (t.execution.breakOff s.settings outcome s.host).2) :
    P later.execution := by
  cases hhandles with
  | still hexecution => rwa [hexecution]
  | treated _ htreats =>
    cases htreats with
    | leaves job hexecution => exact hexecution ▸ hleaves job
    | skips _ hexecution => rwa [hexecution]
    | cancels _ _ hexecution => rwa [hexecution]
  | worked _ _ hexecution => rwa [hexecution]
  | brokenOff outcome _ hexecution => exact hexecution ▸ hbrokenOff outcome

/-! ### What a task leaves behind -/

/-- **A task ends before its export**: it is asked to cancel while the export, which it has
cancelled, cleans up, and waits for it no longer. -/
def LeavesExport (_ : Orchestrator) (event : OrchestratorEvent) (t : Supervised) : Prop :=
  event = .supervise t.id ∧ t.asked = true ∧ (∃ reason, t.phase = .cancelling reason) ∧
    t.execution.stage.ownsDirectory = true

/-- **The engine is left to itself**: its run ends because something that it printed cannot be
read, or the export breaks off for a reason for which it is not killed. -/
inductive LeavesEngine (s : Orchestrator) (event : OrchestratorEvent) (t : Supervised) : Prop
  | unreadable (hevent : event = .work t.id) (hloses : t.execution.LosesEngine s.settings s.host)
  | dropped (outcome : ExportOutcome) (hevent : event = .breakOff t.id outcome)
    (hdrops : t.execution.DropsEngine outcome)

/-- **A worker thread is left to itself**: the export is cancelled while it is at work. -/
def LeavesThread (_ : Orchestrator) (event : OrchestratorEvent) (t : Supervised) : Prop :=
  event = .supervise t.id ∧ t.phase = .running ∧ (t.asked = true ∨ t.overdue = true) ∧
    t.execution.stage.usesThread = true

/-- No step of a task gives its export a work directory, or takes it away. -/
theorem Treats.ownsDirectory_eq (htreats : t.Treats h later) (ht : t.Sound) :
    later.execution.stage.ownsDirectory = t.execution.stage.ownsDirectory := by
  cases htreats with
  | leaves job hexecution => rw [hexecution]
  | skips hphase hexecution =>
    rw [hexecution, (ht.unstarted hphase).1]
    rfl
  | cancels _ _ hexecution => rw [hexecution, Execution.ownsDirectory_cancel]

/-- An export that has no work directory and whose task has ended gets none. -/
theorem Handles.ownsDirectory_of_ended (hhandles : Handles s event t later) (ht : t.Sound)
    (hphase : t.phase = .ended) (howns : later.execution.stage.ownsDirectory = true) :
    t.execution.stage.ownsDirectory = true := by
  cases hhandles with
  | still hexecution => rwa [hexecution] at howns
  | treated _ htreats => rwa [htreats.ownsDirectory_eq ht] at howns
  | worked _ hbegun hexecution =>
    -- an export that has begun and has no directory has ended, and stays so
    cases hstage : t.execution.stage with
    | ready => exact absurd hstage (hbegun hphase)
    | ended outcome =>
      simp only [hexecution, Execution.step, hstage] at howns
      cases howns
    | _ => rfl
  | brokenOff outcome _ hexecution =>
    obtain heq | ⟨-, engine, heq⟩ := t.execution.breakOff_eq s.settings outcome s.host
    · rwa [hexecution, heq] at howns
    · rw [hexecution, heq] at howns
      cases howns

/-- A task ends before its export only by being asked again. -/
theorem Moves.leavesExport (ht : t.Sound) (hmove : Moves s event t later)
    (hphase : later.phase = .ended) (howns : later.execution.stage.ownsDirectory = true) :
    t.phase = .ended ∧ t.execution.stage.ownsDirectory = true ∨ t.LeavesExport s event := by
  by_cases hended : t.phase = .ended
  · exact .inl ⟨hended, hmove.handles.ownsDirectory_of_ended ht hended howns⟩
  refine .inr ?_
  cases hmove with
  | stay => exact absurd hphase hended
  | ask => exact absurd hphase hended
  | work => exact absurd ((phase_carry _ _).symm.trans hphase) hended
  | breakOff => exact absurd ((phase_carry _ _).symm.trans hphase) hended
  | grant => cases hphase
  | overdue => exact absurd hphase hended
  | forget => exact absurd hphase hended
  | step hevent =>
    rw [(t.stepsTo_step _ _ _ _).treats.ownsDirectory_eq ht] at howns
    have hopen {outcome : ExportOutcome} (hstage : t.execution.stage = .ended outcome) : False := by
      rw [hstage] at howns
      cases howns
    have hbegun (hunstarted : t.phase = .created ∨ t.phase = .waiting ∨ t.phase = .granted) :
        False := by
      rw [(ht.unstarted hunstarted).1] at howns
      cases howns
    have hsteps := (t.stepsTo_step s.settings s.now s.mayEnter s.host).steps
    generalize (t.step _ _ _ _).2 = later at hsteps hphase
    cases hsteps with
    | onward hgoing => exact absurd hphase hgoing
    | ended hphase => exact absurd hphase hended
    | unstarted hcreated => exact (hbegun (.inl hcreated)).elim
    | completed hstage => exact (hopen hstage).elim
    | failed hcause =>
      cases hcause with
      | asked hwhere hasked =>
        obtain hwaiting | hgranted | hcancelling := hwhere
        · exact (hbegun (.inr (.inl hwaiting))).elim
        · exact (hbegun (.inr (.inr hgranted))).elim
        · exact ⟨hevent, hasked, hcancelling, howns⟩
      | cancelled _ hstage => exact (hopen hstage).elim
      | abandoned _ hstage => exact (hopen hstage).elim
      | overdue _ _ hstage => exact (hopen hstage).elim
      | failed _ hstage => exact (hopen hstage).elim

/-- A task that is asked again ends before its export. -/
theorem LeavesExport.step {slotFree : Bool} (hleaves : t.LeavesExport s event)
    (hsteps : t.StepsTo settings now slotFree h later) :
    later.phase = .ended ∧ later.execution.stage.ownsDirectory = true := by
  obtain ⟨-, hasked, ⟨reason, hphase⟩, howns⟩ := hleaves
  cases hsteps with
  | giveUp => exact ⟨rfl, (congrArg _ (t.stage_failJob now _)).trans howns⟩
  | unstarted hcreated => cases hphase.symm.trans hcreated
  | wait hcreated => cases hphase.symm.trans hcreated
  | enter _ hnot => cases hasked.symm.trans hnot
  | settle _ hstage =>
    rw [hstage] at howns
    cases howns
  | cancel hrunning => cases hphase.symm.trans hrunning
  | idle _ hnot => cases hasked.symm.trans hnot
  | ended hended => cases hphase.symm.trans hended

/-- **A move** leaves the process of the engine known, and an engine to itself only in the two
ways. -/
theorem Moves.tends (ht : t.Sound) (he : t.execution.Tends) (hmove : Moves s event t later) :
    later.execution.Tends ∧
      (later.execution.HasStrayEngine → t.execution.HasStrayEngine ∨ t.LeavesEngine s event) := by
  cases hmove.handles with
  | still hexecution =>
    rw [hexecution]
    exact ⟨he, .inl⟩
  | treated _ htreats =>
    cases htreats with
    | leaves job hexecution =>
      rw [hexecution]
      exact ⟨⟨he.rendering, he.elsewhere⟩, fun hstray => .inl ⟨hstray.1, hstray.2⟩⟩
    | skips hphase hexecution =>
      rw [hexecution]
      refine ⟨.of_ended rfl, fun hstray => absurd hstray.2 (he.elsewhere ?_)⟩
      rw [(ht.unstarted hphase).1]
      rfl
    | cancels _ _ hexecution =>
      rw [hexecution]
      exact (Execution.tends_cancel he s.host).imp_right fun hstray => .inl ∘ hstray
  | worked hevent _ hexecution =>
    rw [hexecution]
    exact (Execution.tends_step he s.now s.host).imp_right fun hstray hlater =>
      (hstray hlater).imp_right (.unreadable hevent)
  | brokenOff outcome hevent hexecution =>
    rw [hexecution]
    exact (Execution.tends_breakOff he s.settings outcome s.host).imp_right fun hstray hlater =>
      (hstray hlater).imp_right (.dropped outcome hevent)

/-- An engine that was left to itself goes on. -/
theorem Moves.hasStrayEngine (hmove : Moves s event t later)
    (hstray : t.execution.HasStrayEngine) : later.execution.HasStrayEngine :=
  hmove.handles.keeps (P := Execution.HasStrayEngine) hstray (fun _ => ⟨hstray.1, hstray.2⟩)
    ⟨rfl, hstray.2⟩ (hstray.cancel _) (hstray.step _ _ _) fun outcome => hstray.breakOff _ outcome _

/-- A worker thread is left to itself only by a cancellation. -/
theorem Moves.leavesThread (hmove : Moves s event t later)
    (hstray : later.execution.strayThread = true) :
    t.execution.strayThread = true ∨ t.LeavesThread s event := by
  cases hmove.handles with
  | still hexecution => exact .inl (hexecution ▸ hstray)
  | treated hevent htreats =>
    cases htreats with
    | leaves job hexecution =>
      rw [hexecution] at hstray
      exact .inl hstray
    | skips _ hexecution =>
      rw [hexecution] at hstray
      exact .inl hstray
    | cancels hphase hdue hexecution =>
      rw [hexecution, Execution.strayThread_cancel, Bool.or_eq_true] at hstray
      exact hstray.imp_right fun huses => ⟨hevent, hphase, hdue, huses⟩
  | worked _ _ hexecution =>
    rw [hexecution, Execution.strayThread_step] at hstray
    exact .inl hstray
  | brokenOff outcome _ hexecution =>
    rw [hexecution, Execution.strayThread_breakOff] at hstray
    exact .inl hstray

/-- A worker thread that was left to itself is not called back. -/
theorem Moves.strayThread (hmove : Moves s event t later)
    (hstray : t.execution.strayThread = true) : later.execution.strayThread = true :=
  hmove.handles.keeps (P := fun e => e.strayThread = true) hstray (fun _ => hstray) hstray
    (by rw [Execution.strayThread_cancel, hstray, Bool.true_or])
    ((Execution.strayThread_step _ _ _ _).trans hstray)
    fun outcome => (Execution.strayThread_breakOff _ outcome _ _).trans hstray

/-- A running task that is to cancel its export leaves the thread that is at work to itself. -/
theorem LeavesThread.step {slotFree : Bool} (hleaves : t.LeavesThread s event)
    (hsteps : t.StepsTo settings now slotFree h later) :
    later.execution.strayThread = true := by
  obtain ⟨-, hphase, hdue, huses⟩ := hleaves
  cases hsteps with
  | cancel =>
    change (t.execution.cancel h).2.strayThread = true
    rw [Execution.strayThread_cancel, huses, Bool.or_true]
  | settle _ hstage =>
    rw [hstage] at huses
    cases huses
  | idle hidle hnot =>
    obtain hwaiting | ⟨⟨-, hoverdue⟩ | ⟨reason, hcancelling⟩, -⟩ := hidle
    · cases hphase.symm.trans hwaiting
    · obtain hasked | hdue := hdue
      · cases hasked.symm.trans hnot
      · cases hdue.symm.trans hoverdue
    · cases hphase.symm.trans hcancelling
  | unstarted hcreated => cases hphase.symm.trans hcreated
  | wait hcreated => cases hphase.symm.trans hcreated
  | enter hunstarted =>
    obtain ⟨hunstarted, -⟩ | hunstarted := hunstarted <;> cases hphase.symm.trans hunstarted
  | giveUp helsewhere =>
    obtain helsewhere | helsewhere | ⟨reason, helsewhere⟩ := helsewhere <;>
      cases hphase.symm.trans helsewhere
  | ended hended => cases hphase.symm.trans hended

/-- An export that has not begun after a move had not before. -/
theorem Moves.stage_ready (hmove : Moves s event t later)
    (hready : later.execution.stage = .ready) : t.execution.stage = .ready := by
  by_contra hbegun
  refine hmove.handles.keeps (P := fun e => e.stage ≠ .ready) hbegun (fun _ => hbegun) nofun
    (Execution.stage_cancel_ne_ready _ _) (Execution.stage_step_ne_ready _ _ _ _)
    (fun outcome => ?_) hready
  obtain heq | ⟨-, engine, heq⟩ := t.execution.breakOff_eq s.settings outcome s.host
  · rwa [heq]
  · rw [heq]
    nofun

/-- The job of an export that has not begun is not processing. -/
theorem Moves.status_ne_processing (ht : t.Sound) (hmove : Moves s event t later)
    (hbefore : t.execution.stage = .ready → t.job.status ≠ .processing)
    (hready : later.execution.stage = .ready) : later.job.status ≠ .processing := by
  have hstage := hmove.stage_ready hready
  have hbefore := hbefore hstage
  cases hmove with
  | stay => exact hbefore
  | ask => exact hbefore
  | grant => exact hbefore
  | overdue => exact hbefore
  | forget => exact hbefore
  | work =>
    obtain heq | ⟨-, heq⟩ := t.carry_cases (Execution.step s.settings s.now) s.host
    · rwa [Supervised.work, heq]
    · rw [Supervised.work, heq] at hready
      exact absurd hready (Execution.stage_step_ne_ready _ _ _ _)
  | breakOff outcome =>
    obtain heq | ⟨-, heq⟩ := t.carry_cases (Execution.breakOff s.settings outcome) s.host
    · rwa [Supervised.breakOff, heq]
    · obtain heq' | ⟨-, engine, heq'⟩ := t.execution.breakOff_eq s.settings outcome s.host
      · rwa [Supervised.breakOff, heq, job, heq']
      · rwa [Supervised.breakOff, heq, job, heq']
  | step =>
    have hsteps := (t.stepsTo_step s.settings s.now s.mayEnter s.host).steps
    generalize (t.step _ _ _ _).2 = later at *
    cases hsteps with
    | onward _ hjob => rwa [hjob]
    | ended => exact hbefore
    | unstarted => exact hbefore
    | completed => exact hbefore
    | @failed cause =>
      have hterminal := (failJob_spec ht s.now (cause.error s.settings)).2.1
      intro hprocessing
      change (t.failJob s.now _).job.status = .processing at hprocessing
      rw [Job.isTerminal, hprocessing] at hterminal
      cases hterminal

end Supervised

end TimelineExport
