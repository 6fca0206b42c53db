import TimelineExport.Proofs.Server.Execution
import TimelineExport.Server.Supervision

/-!
# How tasks end

What one step of a task does is said once, by cases (`Supervised.StepsTo`); whatever else is said of
a step is read off from there.

A task ends its job with it, but for one way: a task that is asked to cancel before it has begun
ends without a trace, and its job stays queued. `Supervised.IsLost` says that this has happened or
is going to happen at the next step. No step of a task or of its export changes whether a job is
lost (`Supervised.StepsTo.follows`, `Supervised.follows_work`); only asking a task to cancel that
has not begun does (`Supervised.isLost_ask_iff`).
-/

namespace TimelineExport

namespace Supervised

open Job (Reaches)

/-! ### What a step does -/

/-- **What one step of a task does**, and when. -/
inductive StepsTo (settings : ServiceSettings) (now : Instant) (slotFree : Bool) (h : Host)
    (t : Supervised) : Supervised → Prop
  /-- The task was asked to cancel before it had begun. -/
  | unstarted (hphase : t.phase = .created) (hasked : t.asked = true) :
    StepsTo settings now slotFree h t t.conclude
  | wait (hphase : t.phase = .created) (hasked : t.asked = false) (hfree : slotFree = false) :
    StepsTo settings now slotFree h t { t with phase := .waiting }
  | enter (hphase : t.phase = .created ∧ slotFree = true ∨ t.phase = .granted)
    (hasked : t.asked = false) : StepsTo settings now slotFree h t (t.enter settings)
  | giveUp (hphase : t.phase = .waiting ∨ t.phase = .granted ∨ ∃ reason, t.phase = .cancelling reason)
    (hasked : t.asked = true) : StepsTo settings now slotFree h t (t.giveUp now)
  /-- The export has ended by itself, or since it was cancelled for a reason. -/
  | settle {reason : Option CancelReason} {outcome : ExportOutcome}
    (hphase : reason = none ∧ t.phase = .running ∨
      t.asked = false ∧ ∃ r, reason = some r ∧ t.phase = .cancelling r)
    (hstage : t.execution.stage = .ended outcome) :
    StepsTo settings now slotFree h t (t.settleOutcome settings now reason outcome)
  | cancel {reason : CancelReason} (hphase : t.phase = .running)
    (hdue : reason = .asked ∧ t.asked = true ∨
      reason = .deadline ∧ t.asked = false ∧ t.overdue = true)
    (hstage : ∀ outcome, t.execution.stage ≠ .ended outcome) :
    StepsTo settings now slotFree h t (t.cancelExecution reason h).2
  /-- The task still waits, for a slot or for its export. -/
  | idle (hphase : t.phase = .waiting ∨ (t.phase = .running ∧ t.overdue = false ∨
      ∃ reason, t.phase = .cancelling reason) ∧ ∀ outcome, t.execution.stage ≠ .ended outcome)
    (hasked : t.asked = false) : StepsTo settings now slotFree h t t
  | ended (hphase : t.phase = .ended) : StepsTo settings now slotFree h t t

/-- **One step of a task.** -/
theorem stepsTo_step (settings : ServiceSettings) (now : Instant) (slotFree : Bool) (h : Host)
    (t : Supervised) :
    t.StepsTo settings now slotFree h (t.step settings now slotFree h).2 := by
  unfold step
  split
  · next hphase =>
    split
    · next hasked => exact .unstarted hphase hasked
    · next hasked =>
      rw [Bool.not_eq_true] at hasked
      split
      · next hfree => exact .enter (.inl ⟨hphase, hfree⟩) hasked
      · next hfree => exact .wait hphase hasked (Bool.not_eq_true _ ▸ hfree)
  · next hphase =>
    split
    · next hasked => exact .giveUp (.inl hphase) hasked
    · next hasked => exact .idle (.inl hphase) (Bool.not_eq_true _ ▸ hasked)
  · next hphase =>
    split
    · next hasked => exact .giveUp (.inr (.inl hphase)) hasked
    · next hasked => exact .enter (.inr hphase) (Bool.not_eq_true _ ▸ hasked)
  · next hphase hstage => exact .settle (.inl ⟨rfl, hphase⟩) hstage
  · next hphase hstage =>
    split
    · next hasked => exact .cancel hphase (.inl ⟨rfl, hasked⟩) hstage
    · next hasked =>
      rw [Bool.not_eq_true] at hasked
      split
      · next hoverdue => exact .cancel hphase (.inr ⟨rfl, hasked, hoverdue⟩) hstage
      · next hoverdue =>
        exact .idle (.inr ⟨.inl ⟨hphase, Bool.not_eq_true _ ▸ hoverdue⟩, hstage⟩) hasked
  · next hphase hstage =>
    split
    · next hasked => exact .giveUp (.inr (.inr ⟨_, hphase⟩)) hasked
    · next hasked =>
      exact .settle (.inr ⟨Bool.not_eq_true _ ▸ hasked, _, rfl, hphase⟩) hstage
  · next hphase hstage =>
    split
    · next hasked => exact .giveUp (.inr (.inr ⟨_, hphase⟩)) hasked
    · next hasked =>
      exact .idle (.inr ⟨.inr ⟨_, hphase⟩, hstage⟩) (Bool.not_eq_true _ ▸ hasked)
  · next hphase => exact .ended hphase

/-- Failing a job changes nothing but the job. -/
theorem failJob_eq (t : Supervised) (now : Instant) (error : ExportError) :
    ∃ job, t.failJob now error = { t with execution := { t.execution with job } } := by
  unfold failJob
  split
  · exact ⟨_, rfl⟩
  · exact ⟨t.execution.job, rfl⟩

/-- A task that gives up ends, and changes nothing but the job. -/
theorem giveUp_eq (t : Supervised) (now : Instant) :
    ∃ job, t.giveUp now = { t with execution := { t.execution with job } }.conclude :=
  (t.failJob_eq now _).imp fun _ heq => congrArg conclude heq

/-- A task whose export has ended ends, and changes nothing but the job. -/
theorem settleOutcome_eq (settings : ServiceSettings) (now : Instant)
    (reason : Option CancelReason) (outcome : ExportOutcome) (t : Supervised) :
    ∃ job, t.settleOutcome settings now reason outcome =
      { t with execution := { t.execution with job } }.conclude := by
  have hfail : ∀ error, ∃ job, (t.failJob now error).conclude =
      { t with execution := { t.execution with job } }.conclude := fun error =>
    (t.failJob_eq now error).imp fun _ heq => congrArg conclude heq
  unfold settleOutcome
  split
  · exact hfail _
  · exact ⟨t.execution.job, rfl⟩
  · exact hfail _
  · exact hfail _
  · exact hfail _

/-- A task that lets its export run cancels it at once if it has no time at all. -/
theorem enter_eq (settings : ServiceSettings) (t : Supervised) :
    settings.jobTimeoutS ≤ 0 ∧ t.enter settings =
        { t with phase := .cancelling .deadline
                 execution := { t.execution with stage := .ended .cancelled } } ∨
      t.enter settings = { t with phase := .running } := by
  unfold enter
  split
  · next hnever => exact .inl ⟨hnever, rfl⟩
  · exact .inr rfl

/-! ### Tasks in order -/

/-- **An export and its task in order.** -/
structure Sound (t : Supervised) : Prop where
  execution : t.execution.IsSound
  status : t.job.status ≠ .downloading
  /-- Before the task has a slot, its export has not begun. -/
  unstarted : t.phase = .created ∨ t.phase = .waiting ∨ t.phase = .granted →
    t.execution.stage = .ready ∧ t.job.isTerminal = false
  /-- If the task has ended and the job has not, the export never began. -/
  abandoned : t.phase = .ended → t.job.isTerminal = false → t.execution.stage = .ready
  /-- Only jobs that have ended are forgotten. -/
  known : t.known = false → t.job.isTerminal = true

/-- **A lost job**: its task ends, or has ended, without ending the job. -/
def IsLost (t : Supervised) : Prop :=
  (t.phase = .created ∧ t.asked = true) ∨ (t.phase = .ended ∧ t.job.isTerminal = false)

/-- What a step makes of an export and its task. -/
structure Follows (t later : Supervised) : Prop where
  reaches : Reaches t.job later.job
  sound : later.Sound
  lost : later.IsLost ↔ t.IsLost

variable {settings : ServiceSettings} {now : Instant} {t later : Supervised}

theorem Follows.refl (h : t.Sound) : t.Follows t :=
  ⟨.refl, h, Iff.rfl⟩

/-- A job that has ended stays so. -/
theorem isTerminal_of_reaches {j k : Job Float} (h : Reaches j k)
    (hterminal : j.isTerminal = true) : k.isTerminal = true := by
  rw [Job.isTerminal, h.status_eq hterminal]
  exact hterminal

/-- A task whose job is not lost may go on with its export. -/
theorem Follows.active (ht : t.Sound) (hlost : ¬ t.IsLost) (hreaches : Reaches t.job later.job)
    (hexecution : later.execution.IsSound) (hknown : later.known = t.known)
    (hphase : later.phase = .running ∨ ∃ reason, later.phase = .cancelling reason) :
    t.Follows later where
  reaches := hreaches
  sound := {
    execution := hexecution
    status := hreaches.status_ne_downloading ht.status
    unstarted := fun h => by
      obtain hrun | ⟨reason, hrun⟩ := hphase <;> simp [hrun] at h
    abandoned := fun h => by
      obtain hrun | ⟨reason, hrun⟩ := hphase <;> simp [hrun] at h
    known := fun h => isTerminal_of_reaches hreaches (ht.known (hknown ▸ h)) }
  lost := by
    refine iff_of_false ?_ hlost
    obtain hrun | ⟨reason, hrun⟩ := hphase <;> simp [IsLost, hrun]

/-- A task whose job is not lost may end with its job. -/
theorem Follows.settled (ht : t.Sound) (hlost : ¬ t.IsLost) (hreaches : Reaches t.job later.job)
    (hexecution : later.execution.IsSound) (hphase : later.phase = .ended)
    (hterminal : later.job.isTerminal = true) : t.Follows later where
  reaches := hreaches
  sound := {
    execution := hexecution
    status := hreaches.status_ne_downloading ht.status
    unstarted := fun h => by simp [hphase] at h
    abandoned := fun _ h => by simp [hterminal] at h
    known := fun _ => hterminal }
  lost := by
    refine iff_of_false ?_ hlost
    simp [IsLost, hphase, hterminal]

/-! ### Ends -/

/-- Failing a job ends it, whether it had ended or not. -/
theorem failJob_spec (ht : t.Sound) (now : Instant) (error : ExportError) :
    Reaches t.job (t.failJob now error).job ∧ (t.failJob now error).job.isTerminal = true ∧
      (t.failJob now error).execution.IsSound := by
  unfold failJob
  split
  · next job hmark =>
    have hreaches : Reaches t.job job := .single (.failed now _ _ hmark)
    obtain ⟨hallows, hjob⟩ := Job.markFailed_eq_ok hmark
    refine ⟨hreaches, by rw [hjob]; rfl, fun hstage => ?_⟩
    have hcompleted : t.job.status = .completed := ht.execution hstage
    have hterminal : t.job.isTerminal = true := by
      rw [Job.isTerminal, hcompleted]
      rfl
    exact (hreaches.status_eq hterminal).trans hcompleted
  · next fault hmark =>
    -- a job that cannot be failed has ended, since failing is allowed from everywhere else
    refine ⟨.refl, ?_, ht.execution⟩
    by_contra hnot
    obtain ⟨job, hjob⟩ := Job.succeeds_markFailed
      (JobStatus.allows_failed (Bool.not_eq_true _ ▸ hnot) ht.status) now error.message
      error.kind.name
    rw [hjob] at hmark
    cases hmark

theorem follows_giveUp (ht : t.Sound) (hlost : ¬ t.IsLost) : t.Follows (t.giveUp now) := by
  obtain ⟨hreaches, hterminal, hexecution⟩ := failJob_spec ht now (.ofSort .cancelled)
  exact .settled ht hlost hreaches hexecution rfl hterminal

/-- The outcome of an export ends the task and the job. -/
theorem follows_settleOutcome (ht : t.Sound) (hlost : ¬ t.IsLost) (reason : Option CancelReason)
    {outcome : ExportOutcome} (hstage : t.execution.stage = .ended outcome) :
    t.Follows (t.settleOutcome settings now reason outcome) := by
  have hfail : ∀ error, t.Follows (t.failJob now error).conclude := fun error => by
    obtain ⟨hreaches, hterminal, hexecution⟩ := failJob_spec ht now error
    exact .settled ht hlost hreaches hexecution rfl hterminal
  unfold settleOutcome
  split
  · exact follows_giveUp ht hlost
  · have hcompleted : t.job.status = .completed := ht.execution hstage
    refine .settled ht hlost .refl ht.execution rfl ?_
    change t.job.isTerminal = true
    rw [Job.isTerminal, hcompleted]
    rfl
  · exact hfail _
  · exact hfail _
  · exact follows_giveUp ht hlost

/-! ### Steps -/

theorem follows_enter (ht : t.Sound) (hlost : ¬ t.IsLost) : t.Follows (t.enter settings) := by
  unfold enter
  split
  · exact .active ht hlost .refl nofun rfl (.inr ⟨_, rfl⟩)
  · exact .active ht hlost .refl ht.execution rfl (.inl rfl)

theorem follows_cancelExecution (ht : t.Sound) (hlost : ¬ t.IsLost) (reason : CancelReason)
    (h : Host) : t.Follows (t.cancelExecution reason h).2 := by
  obtain ⟨hjob, hsound⟩ := Execution.follows_cancel ht.execution h
  refine .active ht hlost ?_ hsound rfl (.inr ⟨reason, rfl⟩)
  change Reaches t.job (t.execution.cancel h).2.job
  rw [hjob]
  exact .refl

/-- A task that is asked to cancel before it has begun leaves its job as it is. -/
theorem follows_conclude (ht : t.Sound) (hphase : t.phase = .created) (hasked : t.asked = true) :
    t.Follows t.conclude := by
  obtain ⟨hstage, hterminal⟩ := ht.unstarted (.inl hphase)
  refine ⟨.refl, ⟨ht.execution, ht.status, ?_, fun _ _ => hstage, ht.known⟩, ?_⟩
  · rintro (h | h | h) <;> cases h
  · exact iff_of_true (.inr ⟨rfl, hterminal⟩) (.inl ⟨hphase, hasked⟩)

/-- A task that comes to wait for a slot is not lost. -/
theorem follows_wait (ht : t.Sound) (hphase : t.phase = .created) (hlost : ¬ t.IsLost) :
    t.Follows { t with phase := .waiting } := by
  refine ⟨.refl, ⟨ht.execution, ht.status, fun _ => ht.unstarted (.inl hphase), nofun, ht.known⟩,
    iff_of_false ?_ hlost⟩
  rintro (⟨h, -⟩ | ⟨h, -⟩) <;> cases h

/-- **One step of a task** changes the job through operations, keeps the task in order, and loses
no job that is not lost. -/
theorem StepsTo.follows {slotFree : Bool} {h : Host} (ht : t.Sound)
    (hsteps : t.StepsTo settings now slotFree h later) : t.Follows later := by
  -- a task that has not begun is the only one whose job may be lost
  cases hsteps with
  | unstarted hphase hasked => exact follows_conclude ht hphase hasked
  | wait hphase hasked => exact follows_wait ht hphase (by simp [IsLost, hphase, hasked])
  | enter hphase hasked =>
    refine follows_enter ht ?_
    obtain ⟨hphase, -⟩ | hphase := hphase <;> simp [IsLost, hphase, hasked]
  | giveUp hphase =>
    refine follows_giveUp ht ?_
    obtain hphase | hphase | ⟨reason, hphase⟩ := hphase <;> simp [IsLost, hphase]
  | settle hphase hstage =>
    refine follows_settleOutcome ht ?_ _ hstage
    obtain ⟨-, hphase⟩ | ⟨-, reason, -, hphase⟩ := hphase <;> simp [IsLost, hphase]
  | cancel hphase => exact follows_cancelExecution ht (by simp [IsLost, hphase]) _ h
  | idle => exact .refl ht
  | ended => exact .refl ht

/-- An export whose task has ended goes on only if its job has ended. -/
theorem follows_carry (ht : t.Sound) {f : Host → Execution → Host × Execution} (h : Host)
    (hf : Execution.Follows t.job (f h t.execution).2) : t.Follows (t.carry f h).2 := by
  unfold carry
  split
  · exact .refl ht
  · exact .refl ht
  · exact .refl ht
  · exact .refl ht
  · next hcreated hwaiting hgranted hready =>
    -- a task that has ended lets its export go on, for instance when it was asked twice
    dsimp only
    cases hphase : t.phase with
    | created => exact absurd hphase hcreated
    | waiting => exact absurd hphase hwaiting
    | granted => exact absurd hphase hgranted
    | running =>
      exact .active ht (by simp [IsLost, hphase]) hf.reaches hf.sound rfl (.inl rfl)
    | cancelling reason =>
      exact .active ht (by simp [IsLost, hphase]) hf.reaches hf.sound rfl (.inr ⟨reason, rfl⟩)
    | ended =>
      have hterminal : t.job.isTerminal = true := by
        by_contra hnot
        exact hready hphase (ht.abandoned hphase (Bool.not_eq_true _ ▸ hnot))
      exact .settled ht (by simp [IsLost, hphase, hterminal]) hf.reaches hf.sound rfl
        (isTerminal_of_reaches hf.reaches hterminal)

theorem follows_work (ht : t.Sound) (h : Host) : t.Follows (t.work settings now h).2 :=
  follows_carry ht h ((Execution.leads_step settings now h t.execution).follows ht.execution)

theorem follows_breakOff (ht : t.Sound) (outcome : ExportOutcome) (h : Host) :
    t.Follows (t.breakOff settings outcome h).2 :=
  follows_carry ht h
    ((Execution.leads_breakOff settings outcome h t.execution).follows ht.execution)

/-- A task that waits may be given a slot. -/
theorem follows_grant (ht : t.Sound) (hphase : t.phase = .waiting) :
    t.Follows { t with phase := .granted } := by
  refine ⟨.refl, ⟨ht.execution, ht.status, fun _ => ht.unstarted (.inr (.inl hphase)), nofun,
    ht.known⟩, iff_of_false ?_ ?_⟩
  · rintro (⟨h, -⟩ | ⟨h, -⟩) <;> cases h
  · simp [IsLost, hphase]

/-- A deadline may pass at any moment. -/
theorem follows_overdue (ht : t.Sound) : t.Follows { t with overdue := true } :=
  ⟨.refl, ⟨ht.execution, ht.status, ht.unstarted, ht.abandoned, ht.known⟩, Iff.rfl⟩

/-- A job that has ended may be forgotten. -/
theorem follows_forget (ht : t.Sound) (hterminal : t.job.isTerminal = true) :
    t.Follows { t with known := false } :=
  ⟨.refl, ⟨ht.execution, ht.status, ht.unstarted, ht.abandoned, fun _ => hterminal⟩, Iff.rfl⟩

/-! ### Being asked to cancel -/

theorem sound_ask (ht : t.Sound) : ({ t with asked := true } : Supervised).Sound :=
  ⟨ht.execution, ht.status, ht.unstarted, ht.abandoned, ht.known⟩

/-- **Asking loses the job of a task that has not begun**, and no other. -/
theorem isLost_ask_iff :
    ({ t with asked := true } : Supervised).IsLost ↔ t.IsLost ∨ t.phase = .created := by
  simp only [IsLost]
  tauto

/-! ### Coming to an end -/

/-- The task has ended, or its export has stopped and only that is left to record. -/
def HasStopped (t : Supervised) : Prop :=
  t.phase = .ended ∨ ∃ reason outcome, t.phase = .cancelling reason ∧
    t.execution.stage = .ended outcome

/-- The export has stopped or cleans up. -/
def IsStopping (t : Supervised) : Prop :=
  t.HasStopped ∨ ∃ reason, t.phase = .cancelling reason ∧ t.execution.stage = .stopping

/-- The export stops, or its task was asked to cancel. -/
def IsLeaving (t : Supervised) : Prop :=
  t.IsStopping ∨ t.asked = true

theorem phase_settleOutcome (reason : Option CancelReason) (outcome : ExportOutcome) :
    (t.settleOutcome settings now reason outcome).phase = .ended := by
  obtain ⟨job, heq⟩ := t.settleOutcome_eq settings now reason outcome
  rw [heq]
  rfl

/-- A task whose export has stopped ends at its next step. -/
theorem HasStopped.step {slotFree : Bool} {h : Host} (ht : t.HasStopped)
    (hsteps : t.StepsTo settings now slotFree h later) : later.phase = .ended := by
  cases hsteps with
  | unstarted => rfl
  | giveUp => rfl
  | settle => exact phase_settleOutcome _ _
  | ended hphase => exact hphase
  | wait hphase => simp [HasStopped, hphase] at ht
  | enter hphase =>
    obtain ⟨hphase, -⟩ | hphase := hphase <;> simp [HasStopped, hphase] at ht
  | cancel hphase => simp [HasStopped, hphase] at ht
  | idle hphase =>
    obtain hphase | ⟨⟨hphase, -⟩ | ⟨reason, hphase⟩, hstage⟩ := hphase <;>
      simp_all [HasStopped]

theorem IsStopping.step {slotFree : Bool} {h : Host} (ht : t.IsStopping)
    (hsteps : t.StepsTo settings now slotFree h later) : later.IsStopping := by
  obtain ht | ⟨reason, hphase, hstage⟩ := ht
  · exact .inl (.inl (ht.step hsteps))
  · cases hsteps with
    | unstarted => exact .inl (.inl rfl)
    | giveUp => exact .inl (.inl rfl)
    | settle => exact .inl (.inl (phase_settleOutcome _ _))
    | idle => exact .inr ⟨reason, hphase, hstage⟩
    | ended => exact .inr ⟨reason, hphase, hstage⟩
    | wait hcreated => cases hphase.symm.trans hcreated
    | enter hunstarted =>
      obtain ⟨hunstarted, -⟩ | hunstarted := hunstarted <;> cases hphase.symm.trans hunstarted
    | cancel hrunning => cases hphase.symm.trans hrunning

/-- A cancelled export has ended or cleans up. -/
theorem isStopping_cancelExecution (reason : CancelReason) (h : Host) :
    (t.cancelExecution reason h).2.IsStopping := by
  unfold cancelExecution Execution.cancel
  dsimp only
  split
  · exact .inl (.inr ⟨reason, _, rfl, rfl⟩)
  · next hstage => exact .inl (.inr ⟨reason, _, rfl, hstage⟩)
  · exact .inr ⟨reason, rfl, rfl⟩

/-- **A task that was asked to cancel does so at its next step.** -/
theorem IsLeaving.step {slotFree : Bool} {h : Host} (ht : t.IsLeaving)
    (hsteps : t.StepsTo settings now slotFree h later) : later.IsStopping := by
  obtain ht | hasked := ht
  · exact ht.step hsteps
  · cases hsteps with
    | unstarted => exact .inl (.inl rfl)
    | giveUp => exact .inl (.inl rfl)
    | settle => exact .inl (.inl (phase_settleOutcome _ _))
    | cancel => exact isStopping_cancelExecution _ h
    | ended hphase => exact .inl (.inl hphase)
    | wait _ hnot => cases hasked.symm.trans hnot
    | enter _ hnot => cases hasked.symm.trans hnot
    | idle _ hnot => cases hasked.symm.trans hnot

theorem phase_carry (f : Host → Execution → Host × Execution) (h : Host) :
    (t.carry f h).2.phase = t.phase := by
  unfold carry
  split <;> rfl

theorem asked_carry (f : Host → Execution → Host × Execution) (h : Host) :
    (t.carry f h).2.asked = t.asked := by
  unfold carry
  split <;> rfl

/-- While an export is being cancelled it is carried on. -/
theorem execution_carry {reason : CancelReason} (hphase : t.phase = .cancelling reason)
    (f : Host → Execution → Host × Execution) (h : Host) :
    (t.carry f h).2.execution = (f h t.execution).2 := by
  simp only [carry, hphase]

/-- An export that has stopped is not set going again by what leaves it stopped. -/
theorem HasStopped.carry (ht : t.HasStopped) {f : Host → Execution → Host × Execution} (h : Host)
    (hf : ∀ outcome, t.execution.stage = .ended outcome →
      ∃ outcome', (f h t.execution).2.stage = .ended outcome') : (t.carry f h).2.HasStopped := by
  obtain hphase | ⟨reason, outcome, hphase, hstage⟩ := ht
  · exact .inl ((phase_carry f h).trans hphase)
  · obtain ⟨outcome', hstage'⟩ := hf outcome hstage
    exact .inr ⟨reason, outcome', (phase_carry f h).trans hphase,
      execution_carry hphase f h ▸ hstage'⟩

/-- An export that cleans up has stopped at its next step. -/
theorem IsStopping.work (ht : t.IsStopping) (h : Host) :
    (t.work settings now h).2.HasStopped := by
  obtain ht | ⟨reason, hphase, hstage⟩ := ht
  · refine ht.carry h fun outcome hstage => ⟨outcome, ?_⟩
    simp only [Execution.step, hstage]
  · refine .inr ⟨reason, .cancelled, (phase_carry _ h).trans hphase, ?_⟩
    rw [Supervised.work, execution_carry hphase]
    simp only [Execution.step, hstage, Execution.finish]

theorem IsLeaving.work (ht : t.IsLeaving) (h : Host) : (t.work settings now h).2.IsLeaving :=
  ht.imp (fun ht => .inl (ht.work h)) (asked_carry _ h).trans

theorem HasStopped.breakOff (ht : t.HasStopped) (outcome : ExportOutcome) (h : Host) :
    (t.breakOff settings outcome h).2.HasStopped := by
  refine ht.carry h fun outcome' hstage => ?_
  obtain heq | ⟨-, engine, heq⟩ := t.execution.breakOff_eq settings outcome h
  · exact ⟨outcome', by rw [heq, hstage]⟩
  · exact ⟨outcome, by rw [heq]⟩

theorem IsStopping.breakOff (ht : t.IsStopping) (outcome : ExportOutcome) (h : Host) :
    (t.breakOff settings outcome h).2.IsStopping := by
  obtain ht | ⟨reason, hphase, hstage⟩ := ht
  · exact .inl (ht.breakOff outcome h)
  · have hexecution : (t.breakOff settings outcome h).2.execution =
        (t.execution.breakOff settings outcome h).2 := execution_carry hphase _ h
    have hphase := (phase_carry (Execution.breakOff settings outcome) h).trans hphase
    obtain heq | ⟨-, engine, heq⟩ := t.execution.breakOff_eq settings outcome h
    · exact .inr ⟨reason, hphase, by rwa [hexecution, heq]⟩
    · exact .inl (.inr ⟨reason, outcome, hphase, by rw [hexecution, heq]⟩)

theorem IsLeaving.breakOff (ht : t.IsLeaving) (outcome : ExportOutcome) (h : Host) :
    (t.breakOff settings outcome h).2.IsLeaving :=
  ht.imp (fun ht => ht.breakOff outcome h) (asked_carry _ h).trans

end Supervised

end TimelineExport
