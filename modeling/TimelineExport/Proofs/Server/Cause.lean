import TimelineExport.Proofs.Server.Ending
import TimelineExport.Proofs.Server.Raising

/-!
# Why tasks end

A task that does not end with a result ends for a cause (`Supervised.EndsBy`): it was asked to
cancel, its export took too long, or its export ended in another way. Each cause has its kind, which
is what the job is failed with, and each one goes back to what happened in the run
(`Orchestrator.IsDue`): somebody asked, the deadline passed, or the export ended at an event, since
a stage met a fault (`Execution.Raises`) or something unforeseen happened.
-/

namespace TimelineExport

/-- Why a task ends without a result. -/
inductive EndCause where
  /-- The task was asked to cancel. -/
  | cancelled
  /-- The export was cancelled by something other than its task. -/
  | abandoned
  /-- The deadline of the export has passed. -/
  | overdue
  | failed (failure : ExportFailure)

namespace EndCause

/-- The failure that is recorded. -/
def error (settings : ServiceSettings) : EndCause → ExportError
  | cancelled | abandoned => .ofSort .cancelled
  | overdue => settings.overdueError
  | failed failure => failure.toError settings

/-- The kind of the cause: that of the failure itself if it is one of an export. -/
def kind : EndCause → ErrorKind
  | cancelled | abandoned => .cancelled
  | overdue | failed .timedOut => .timeout
  | failed (.reported error) => error.kind
  | failed (.unexpected _) => .renderEngine

/-- What is recorded has the kind of the cause. -/
theorem kind_error (settings : ServiceSettings) (cause : EndCause) :
    (cause.error settings).kind = cause.kind := by
  cases cause with
  | cancelled => rfl
  | abandoned => rfl
  | overdue => rfl
  | failed failure => cases failure <;> rfl

end EndCause

/-- The cause that a cancelled export ends by. -/
def CancelReason.cause : CancelReason → EndCause
  | asked => .cancelled
  | deadline => .overdue

namespace Supervised

variable {settings : ServiceSettings} {now : Instant} {t later : Supervised}

/-- **The cause for which a task ends** at its next step. -/
inductive EndsBy (t : Supervised) : EndCause → Prop
  /-- The task was asked to cancel while it waited for a slot or for its export. -/
  | asked (hphase : t.phase = .waiting ∨ t.phase = .granted ∨ ∃ reason, t.phase = .cancelling reason)
    (hasked : t.asked = true) : EndsBy t .cancelled
  /-- The export that was cancelled has ended. -/
  | cancelled {outcome : ExportOutcome} (hphase : t.phase = .cancelling .asked)
    (hstage : t.execution.stage = .ended outcome) : EndsBy t .cancelled
  | abandoned (hphase : t.phase = .running) (hstage : t.execution.stage = .ended .cancelled) :
    EndsBy t .abandoned
  | overdue (hphase : t.phase = .cancelling .deadline) (hasked : t.asked = false)
    (hstage : t.execution.stage = .ended .cancelled) : EndsBy t .overdue
  | failed {failure : ExportFailure}
    (hphase : t.phase = .running ∨ t.phase = .cancelling .deadline ∧ t.asked = false)
    (hstage : t.execution.stage = .ended (.failed failure)) : EndsBy t (.failed failure)

/-- A task ends for one cause. -/
theorem EndsBy.unique {cause cause' : EndCause} (h : t.EndsBy cause) (h' : t.EndsBy cause') :
    cause = cause' := by
  cases h <;> cases h' <;> simp_all

/-- **Where a step of a task leads.** -/
inductive Steps (settings : ServiceSettings) (now : Instant) (t : Supervised) : Supervised → Prop
  /-- The task goes on. Its export is where it was, or it is cancelled. -/
  | onward {later : Supervised} (hphase : later.phase ≠ .ended) (hjob : later.job = t.job)
    (hstage : later.execution.stage = t.execution.stage ∨ later.execution.stage.passed = []) :
    Steps settings now t later
  | ended (hphase : t.phase = .ended) : Steps settings now t t
  /-- The task was asked to cancel before it had begun. -/
  | unstarted (hphase : t.phase = .created) (hasked : t.asked = true) :
    Steps settings now t t.conclude
  | completed (hstage : t.execution.stage = .ended .completed) : Steps settings now t t.conclude
  | failed {cause : EndCause} (hcause : t.EndsBy cause) :
    Steps settings now t (t.failJob now (cause.error settings)).conclude

theorem steps_settleOutcome {reason : Option CancelReason} {outcome : ExportOutcome}
    (hstage : t.execution.stage = .ended outcome)
    (hreason : reason = none ∧ t.phase = .running ∨
      t.asked = false ∧ ∃ r, reason = some r ∧ t.phase = .cancelling r) :
    Steps settings now t (t.settleOutcome settings now reason outcome) := by
  unfold settleOutcome
  split
  · obtain ⟨hnone, -⟩ | ⟨-, _, hr, hphase⟩ := hreason
    · cases hnone
    · cases hr
      have hcause : t.EndsBy .cancelled := .cancelled hphase hstage
      exact .failed hcause
  · exact .completed hstage
  · next failure hasked =>
    refine .failed (.failed ?_ hstage)
    obtain ⟨-, hphase⟩ | ⟨hunasked, r, hr, hphase⟩ := hreason
    · exact .inl hphase
    · cases r with
      | asked => exact (hasked hr).elim
      | deadline => exact .inr ⟨hphase, hunasked⟩
  · obtain ⟨hnone, -⟩ | ⟨hunasked, _, hr, hphase⟩ := hreason
    · cases hnone
    · cases hr
      have hcause : t.EndsBy .overdue := .overdue hphase hunasked hstage
      exact .failed hcause
  · obtain ⟨-, hphase⟩ | ⟨-, _, hr, -⟩ := hreason
    · have hcause : t.EndsBy .abandoned := .abandoned hphase hstage
      exact .failed hcause
    · cases hr

/-- Cancelling an export leaves it ended, or cleaning up, or where it was. -/
theorem steps_cancelExecution (reason : CancelReason) (h : Host) :
    Steps settings now t (t.cancelExecution reason h).2 := by
  unfold cancelExecution Execution.cancel
  dsimp only
  split
  · exact .onward nofun rfl (.inr rfl)
  · exact .onward nofun rfl (.inl rfl)
  · exact .onward nofun (t.execution.job_killEngine h) (.inr rfl)

theorem steps_enter : Steps settings now t (t.enter settings) := by
  unfold enter
  split
  · exact .onward nofun rfl (.inr rfl)
  · exact .onward nofun rfl (.inl rfl)

theorem steps_giveUp
    (hphase : t.phase = .waiting ∨ t.phase = .granted ∨ ∃ reason, t.phase = .cancelling reason)
    (hasked : t.asked = true) : Steps settings now t (t.giveUp now) :=
  have hcause : t.EndsBy .cancelled := .asked hphase hasked
  .failed hcause

/-- **One step of a task.** -/
theorem StepsTo.steps {slotFree : Bool} {h : Host}
    (hsteps : t.StepsTo settings now slotFree h later) : Steps settings now t later := by
  cases hsteps with
  | unstarted hphase hasked => exact .unstarted hphase hasked
  | wait => exact .onward nofun rfl (.inl rfl)
  | enter => exact steps_enter
  | giveUp hphase hasked => exact steps_giveUp hphase hasked
  | settle hphase hstage => exact steps_settleOutcome hstage hphase
  | @cancel reason => exact steps_cancelExecution reason h
  | idle hphase =>
    refine .onward ?_ rfl (.inl rfl)
    obtain hphase | ⟨⟨hphase, -⟩ | ⟨reason, hphase⟩, -⟩ := hphase <;> rw [hphase] <;> nofun
  | ended hphase => exact .ended hphase

/-- Failing a job that has not ended records the failure. -/
theorem failJob_of_active (ht : t.Sound) (hactive : t.job.isTerminal = false) (now : Instant)
    (error : ExportError) :
    (t.failJob now error).job.status = .failed ∧
      (∃ message, (t.failJob now error).job.error = some message ∧ message ≠ "") ∧
      (t.failJob now error).job.errorKind = some error.kind.name := by
  obtain ⟨job, hmark⟩ := Job.succeeds_markFailed
    (JobStatus.allows_failed hactive ht.status) now error.message error.kind.name
  have heq : (t.failJob now error).job = job := by
    unfold failJob
    rw [hmark]
    rfl
  obtain ⟨-, hjob⟩ := Job.markFailed_eq_ok hmark
  rw [heq, hjob]
  refine ⟨rfl, ⟨_, rfl, ?_⟩, rfl⟩
  split
  · simp
  · assumption

/-- Failing a job that has ended changes nothing. -/
theorem failJob_of_isTerminal (hterminal : t.job.isTerminal = true) (error : ExportError) :
    t.failJob now error = t := by
  unfold failJob
  split
  · next job hmark =>
    have hallows := (Job.markFailed_eq_ok hmark).1
    rw [JobStatus.allows_eq_false_of_isTerminal hterminal] at hallows
    cases hallows
  · rfl

theorem stage_failJob (t : Supervised) (now : Instant) (error : ExportError) :
    (t.failJob now error).execution.stage = t.execution.stage := by
  obtain ⟨job, heq⟩ := t.failJob_eq now error
  rw [heq]

theorem job_failJob (t : Supervised) (now : Instant) (error : ExportError) :
    (t.failJob now error).job = t.job ∨ (t.failJob now error).job.status ≠ .completed := by
  unfold failJob
  split
  · next job hmark =>
    refine .inr fun hcompleted => ?_
    change job.status = .completed at hcompleted
    rw [(Job.markFailed_eq_ok hmark).2] at hcompleted
    cases hcompleted
  · exact .inl rfl

/-- An export is carried on unless it has not been let run, or its task ended before it began. -/
theorem carry_cases (t : Supervised) (f : Host → Execution → Host × Execution) (h : Host) :
    t.carry f h = (h, t) ∨
      (t.phase = .ended → t.execution.stage ≠ .ready) ∧
        t.carry f h = ((f h t.execution).1, { t with execution := (f h t.execution).2 }) := by
  unfold carry
  split
  · exact .inl rfl
  · exact .inl rfl
  · exact .inl rfl
  · exact .inl rfl
  · next hready => exact .inr ⟨fun hphase hstage => hready hphase hstage, rfl⟩

theorem carry_eq (t : Supervised) (f : Host → Execution → Host × Execution) (h : Host) :
    (t.carry f h).2 = t ∨ (t.carry f h).2 = { t with execution := (f h t.execution).2 } := by
  obtain heq | ⟨-, heq⟩ := t.carry_cases f h
  · exact .inl (by rw [heq])
  · exact .inr (by rw [heq])

/-! ### What a step of a task leaves -/

section StepsTo

variable {slotFree : Bool} {h : Host}

/-- A task that takes a step has begun. -/
theorem StepsTo.phase_ne_created (hsteps : t.StepsTo settings now slotFree h later) :
    later.phase ≠ .created := by
  cases hsteps with
  | unstarted => nofun
  | wait => nofun
  | enter => obtain ⟨-, heq⟩ | heq := t.enter_eq settings <;> rw [heq] <;> nofun
  | giveUp => nofun
  | settle => rw [phase_settleOutcome]; nofun
  | cancel => nofun
  | idle hphase =>
    obtain hphase | ⟨⟨hphase, -⟩ | ⟨reason, hphase⟩, -⟩ := hphase <;> rw [hphase] <;> nofun
  | ended hphase => rw [hphase]; nofun

/-- No step of a task lets its deadline pass. -/
theorem StepsTo.overdue_eq (hsteps : t.StepsTo settings now slotFree h later) :
    later.overdue = t.overdue := by
  cases hsteps with
  | enter => obtain ⟨-, heq⟩ | heq := t.enter_eq settings <;> rw [heq]
  | giveUp => obtain ⟨job, heq⟩ := t.giveUp_eq now; rw [heq]; rfl
  | @settle reason outcome =>
    obtain ⟨job, heq⟩ := t.settleOutcome_eq settings now reason outcome
    rw [heq]
    rfl
  | _ => rfl

/-- Nobody but those who ask a task to cancel makes it be asked. -/
theorem StepsTo.asked (hsteps : t.StepsTo settings now slotFree h later)
    (hlater : later.asked = true) : t.asked = true := by
  cases hsteps with
  | unstarted _ hasked => exact hasked
  | wait => exact hlater
  | enter => obtain ⟨-, heq⟩ | heq := t.enter_eq settings <;> rwa [heq] at hlater
  | giveUp _ hasked => exact hasked
  | @settle reason outcome =>
    obtain ⟨job, heq⟩ := t.settleOutcome_eq settings now reason outcome
    rw [heq] at hlater
    cases hlater
  | cancel => cases hlater
  | idle => exact hlater
  | ended => exact hlater

/-- **A task cancels its export** because it was asked to cancel or the export is overdue. -/
theorem StepsTo.cancelling {reason : CancelReason}
    (hsteps : t.StepsTo settings now slotFree h later) (hlater : later.phase = .cancelling reason) :
    t.phase = .cancelling reason ∨ reason = .asked ∧ t.asked = true ∨
      reason = .deadline ∧ (t.overdue = true ∨ settings.jobTimeoutS ≤ 0) := by
  cases hsteps with
  | unstarted => cases hlater
  | wait => cases hlater
  | enter =>
    obtain ⟨hnever, heq⟩ | heq := t.enter_eq settings <;> rw [heq] at hlater <;> cases hlater
    exact .inr (.inr ⟨rfl, .inr hnever⟩)
  | giveUp => cases hlater
  | settle => cases (phase_settleOutcome _ _).symm.trans hlater
  | cancel _ hdue =>
    cases hlater
    exact .inr (hdue.imp_right fun ⟨hreason, _, hoverdue⟩ => ⟨hreason, .inl hoverdue⟩)
  | idle => exact .inl hlater
  | ended => exact .inl hlater

/-- An export whose task runs after a step is where it was, and its task ran or had not begun. -/
theorem StepsTo.running (hsteps : t.StepsTo settings now slotFree h later)
    (hlater : later.phase = .running) :
    later.execution.stage = t.execution.stage ∧
      (t.phase = .running ∨ t.phase = .created ∨ t.phase = .granted) := by
  cases hsteps with
  | unstarted => cases hlater
  | wait => cases hlater
  | enter hphase =>
    obtain ⟨-, heq⟩ | heq := t.enter_eq settings
    · rw [heq] at hlater
      cases hlater
    · exact ⟨by rw [heq], .inr (hphase.imp_left And.left)⟩
  | giveUp => cases hlater
  | settle => cases (phase_settleOutcome _ _).symm.trans hlater
  | cancel => cases hlater
  | idle => exact ⟨rfl, .inl hlater⟩
  | ended => exact ⟨rfl, .inl hlater⟩

/-- A step of its task ends an export only by cancelling it. -/
theorem StepsTo.ended_stage {outcome : ExportOutcome}
    (hsteps : t.StepsTo settings now slotFree h later)
    (hlater : later.execution.stage = .ended outcome) :
    t.execution.stage = .ended outcome ∨ outcome = .cancelled ∧ later.phase ≠ .running := by
  cases hsteps with
  | enter =>
    obtain ⟨-, heq⟩ | heq := t.enter_eq settings <;> rw [heq] at hlater ⊢
    · cases hlater
      exact .inr ⟨rfl, nofun⟩
    · exact .inl hlater
  | giveUp => exact .inl ((t.stage_failJob now _).symm.trans hlater)
  | @settle reason =>
    obtain ⟨job, heq⟩ := t.settleOutcome_eq settings now reason _
    rw [heq] at hlater
    exact .inl hlater
  | cancel =>
    change (t.execution.cancel h).2.stage = .ended outcome at hlater
    unfold Execution.cancel at hlater
    split at hlater
    · cases hlater
      exact .inr ⟨rfl, nofun⟩
    · exact .inl hlater
    · cases hlater
  | _ => exact .inl hlater

end StepsTo

/-! ### Jobs that fail -/

/-- The job has not failed before its task ends. -/
def FailsWithTask (t : Supervised) : Prop := t.job.status = .failed → t.phase = .ended

/-- **A job fails with its task**, and not before. -/
theorem FailsWithTask.of_moves {s : Orchestrator} {event : OrchestratorEvent}
    (h : t.FailsWithTask) (hmove : t.Moves s event later) : later.FailsWithTask := by
  intro hfailed
  by_cases hbefore : t.job.status = .failed
  · exact hmove.phase_ended (h hbefore)
  · cases hmove with
    | stay => exact absurd hfailed hbefore
    | ask => exact absurd hfailed hbefore
    | grant => exact absurd hfailed hbefore
    | overdue => exact absurd hfailed hbefore
    | forget => exact absurd hfailed hbefore
    | step =>
      have hsteps := (t.stepsTo_step s.settings s.now s.mayEnter s.host).steps
      generalize (t.step _ _ _ _).2 = later at *
      cases hsteps with
      | onward _ hjob => exact absurd (hjob ▸ hfailed) hbefore
      | ended => exact absurd hfailed hbefore
      | unstarted => rfl
      | completed => rfl
      | failed => rfl
    | work =>
      obtain heq | heq := t.carry_eq (Execution.step s.settings s.now) s.host
      · rw [work, heq] at hfailed
        exact absurd hfailed hbefore
      · rw [work, heq] at hfailed
        exact absurd hfailed ((Execution.leads_step _ _ _ _).status_ne_failed hbefore)
    | breakOff outcome =>
      obtain heq | heq := t.carry_eq (Execution.breakOff s.settings outcome) s.host
      · rw [breakOff, heq] at hfailed
        exact absurd hfailed hbefore
      · rw [breakOff, heq] at hfailed
        exact absurd hfailed ((Execution.leads_breakOff _ _ _ _).status_ne_failed hbefore)

end Supervised

namespace Orchestrator

variable {s : Orchestrator} {events : List OrchestratorEvent} {event : OrchestratorEvent}
  {id : String} {t later : Supervised}

/-- What is true of new exports, and what moves keep, is true of every export after a run. -/
theorem forall_mem_run (settings : ServiceSettings) (host : Host)
    {P : List OrchestratorEvent → Supervised → Prop}
    (hnew : ∀ {events t}, t.IsNew → P events t)
    (hmoves : ∀ {events event t later}, t.Sound → t ∈ ((start settings host).run events).exports →
      later ∈ ((start settings host).run (events ++ [event])).exports →
      t.Moves ((start settings host).run events) event later → P events t →
        P (events ++ [event]) later)
    (events : List OrchestratorEvent) :
    ∀ t ∈ ((start settings host).run events).exports, P events t := by
  -- from the last event back, since a move is judged by the state before it
  induction events using List.reverseRecOn with
  | nil => simp [run, start]
  | append_singleton events event ih =>
    intro later hlater
    have hs := sound_run settings host events
    have hrun : (start settings host).run (events ++ [event]) =
        ((start settings host).run events).apply event := run_append _ _ _
    obtain ⟨t, ht, -, hmove⟩ | ⟨-, hnewer⟩ := hs.of_mem_apply (hrun ▸ hlater)
    · exact hmoves (hs.exports t ht) ht hlater hmove (ih t ht)
    · exact hnew hnewer

/-! ### How exports end -/

/-- **An export ends at an event** with an outcome: its next step meets a fault of that outcome, or
something unforeseen happens to it. -/
structure EndsAt (s : Orchestrator) (event : OrchestratorEvent) (id : String)
    (outcome : ExportOutcome) : Prop where
  ended : ∃ later ∈ (s.apply event).exports, later.id = id ∧
    later.execution.stage = .ended outcome
  cause : event = .breakOff id outcome ∨
    event = .work id ∧ ∃ t ∈ s.exports, t.id = id ∧
      ∃ fault, t.execution.Raises s.settings s.now s.host fault ∧ fault.outcome = outcome

/-- **An export has ended** in a run. -/
def Ends (s : Orchestrator) (events : List OrchestratorEvent) (id : String)
    (outcome : ExportOutcome) : Prop :=
  ∃ before event after, events = before ++ event :: after ∧
    (s.run before).EndsAt event id outcome

/-- What has ended stays so. -/
theorem Ends.append {outcome : ExportOutcome} (h : s.Ends events id outcome)
    (more : List OrchestratorEvent) : s.Ends (events ++ more) id outcome := by
  obtain ⟨before, event, after, rfl, hends⟩ := h
  exact ⟨before, event, after ++ more, by rw [List.append_assoc, List.cons_append], hends⟩

/-- **The end of an export is traced back**: unless it was completed, or cancelled by its task, it
has ended in the run. -/
structure Traced (s : Orchestrator) (events : List OrchestratorEvent) (t : Supervised) : Prop where
  going : t.phase = .running → t.execution.stage ≠ .stopping
  ended : ∀ outcome, t.execution.stage = .ended outcome → outcome ≠ .completed →
    (outcome = .cancelled → t.phase = .running) → s.Ends events t.id outcome

namespace Traced

theorem of_still (h : s.Traced events t) (event : OrchestratorEvent) (hid : later.id = t.id)
    (hstage : later.execution.stage = t.execution.stage)
    (hphase : later.phase = .running → t.phase = .running) :
    s.Traced (events ++ [event]) later where
  going hrunning := hstage ▸ h.going (hphase hrunning)
  ended outcome hended hne hcancelled := hid ▸
    (h.ended outcome (hstage ▸ hended) hne fun heq => hphase (hcancelled heq)).append [event]

/-- A new export has not ended. -/
theorem of_isNew (h : t.IsNew) : s.Traced events t := by
  obtain ⟨job, request, rfl, -⟩ := h
  refine ⟨fun hrunning => ?_, fun _ hended => ?_⟩
  · cases hrunning
  · cases hended

/-- A step of its task leaves the end of an export traced. -/
theorem of_stepsTo (h : s.Traced events t) (hsound : t.Sound) (event : OrchestratorEvent)
    {settings : ServiceSettings} {now : Instant} {slotFree : Bool} {host : Host}
    (hid : later.id = t.id) (hsteps : t.StepsTo settings now slotFree host later) :
    s.Traced (events ++ [event]) later where
  going hrunning := by
    obtain ⟨hstage, hphase | hunstarted⟩ := hsteps.running hrunning
    · exact hstage ▸ h.going hphase
    · rw [hstage, (hsound.unstarted (hunstarted.imp_right .inr)).1]
      nofun
  ended outcome hended hne hcancelled := by
    obtain hbefore | ⟨rfl, hnot⟩ := hsteps.ended_stage hended
    · refine hid ▸ (h.ended outcome hbefore hne fun heq => ?_).append [event]
      obtain ⟨-, hphase | hunstarted⟩ := hsteps.running (hcancelled heq)
      · exact hphase
      · cases hbefore.symm.trans (hsound.unstarted (hunstarted.imp_right .inr)).1
    · exact absurd (hcancelled rfl) hnot

/-- An export that ends at the last event has ended in the run. -/
theorem of_endsAt (hlater : later ∈ (s.run (events ++ [event])).exports) {outcome : ExportOutcome}
    (hstage : later.execution.stage = .ended outcome)
    (hcause : event = .breakOff later.id outcome ∨
      event = .work later.id ∧ ∃ t ∈ (s.run events).exports, t.id = later.id ∧
        ∃ fault, t.execution.Raises (s.run events).settings (s.run events).now (s.run events).host
          fault ∧ fault.outcome = outcome) :
    s.Traced (events ++ [event]) later where
  going _ hstopping := by cases hstage.symm.trans hstopping
  ended outcome' hended _ _ := by
    obtain rfl := ExportStage.ended.inj (hstage.symm.trans hended)
    rw [run_append] at hlater
    exact ⟨events, event, [], rfl, ⟨later, hlater, rfl, hstage⟩, hcause⟩

/-- **A step of an export** leaves its end traced. -/
theorem work (h : s.Traced events t) (ht : t ∈ (s.run events).exports)
    (hlater : later ∈ (s.run (events ++ [.work t.id])).exports) (hid : later.id = t.id)
    (hphase : later.phase = t.phase)
    (hstep : later.execution = (t.execution.step (s.run events).settings (s.run events).now
      (s.run events).host).2) :
    s.Traced (events ++ [.work t.id]) later := by
  cases hstage : t.execution.stage with
  | ended outcome =>
    refine h.of_still _ hid ?_ fun hrunning => hphase ▸ hrunning
    simp only [hstep, Execution.step, hstage]
  | stopping =>
    -- only a task that has cancelled its export does not run, and it does so still
    have hcancelled : later.execution.stage = .ended .cancelled := by
      simp only [hstep, Execution.step, hstage, Execution.finish]
    have hnot : later.phase ≠ .running := fun hrunning => h.going (hphase ▸ hrunning) hstage
    refine ⟨fun hrunning => absurd hrunning hnot, fun outcome hended _ hrunning => ?_⟩
    exact absurd (hrunning (ExportStage.ended.inj (hended.symm.trans hcancelled))) hnot
  | _ =>
    have hgets : t.execution.GetsTo (s.run events).settings (s.run events).now (s.run events).host
        later.execution.stage := hstep ▸ Execution.getsTo_step (by rw [hstage]; rfl)
    generalize hend : later.execution.stage = stage at hgets
    cases hgets with
    | onward hgoing =>
      refine ⟨fun _ hstopping => ?_, fun outcome hended => ?_⟩
      · rw [← hend, hstopping] at hgoing
        cases hgoing
      · rw [← hend, hended] at hgoing
        cases hgoing
    | completed =>
      refine ⟨fun _ hstopping => ?_, fun outcome hended hne => ?_⟩
      · cases hend.symm.trans hstopping
      · exact absurd (ExportStage.ended.inj (hended.symm.trans hend)) hne
    | raised hraises houtcome =>
      exact .of_endsAt hlater hend (.inr ⟨by rw [hid], t, ht, hid.symm, _, hraises, houtcome⟩)

/-- **A move leaves the end of an export traced.** -/
theorem of_moves (h : s.Traced events t) (hsound : t.Sound) (ht : t ∈ (s.run events).exports)
    (hlater : later ∈ (s.run (events ++ [event])).exports)
    (hmove : t.Moves (s.run events) event later) : s.Traced (events ++ [event]) later := by
  have hid := hmove.id_eq hsound
  cases hmove with
  | stay => exact h.of_still event hid rfl id
  | ask => exact h.of_still event hid rfl id
  | step => exact h.of_stepsTo hsound event hid (t.stepsTo_step _ _ _ _)
  | work hevent =>
    subst hevent
    obtain heq | heq := t.carry_eq (Execution.step (s.run events).settings (s.run events).now)
      (s.run events).host
    · rw [Supervised.work, heq]
      exact h.of_still _ rfl rfl id
    · rw [Supervised.work, heq] at hid hlater ⊢
      exact h.work ht hlater hid rfl rfl
  | breakOff outcome hevent =>
    subst hevent
    obtain heq | heq := t.carry_eq (Execution.breakOff (s.run events).settings outcome)
      (s.run events).host
    · rw [Supervised.breakOff, heq]
      exact h.of_still _ rfl rfl id
    · rw [Supervised.breakOff, heq] at hid hlater ⊢
      obtain heq' | ⟨-, engine, heq'⟩ :=
        t.execution.breakOff_eq (s.run events).settings outcome (s.run events).host
      · rw [heq'] at hid ⊢
        exact h.of_still _ hid rfl id
      · rw [heq'] at hid hlater ⊢
        exact .of_endsAt hlater rfl (.inl (by rw [hid]))
  | grant hphase =>
    refine h.of_still event hid rfl fun hrunning => ?_
    cases hrunning
  | overdue => exact h.of_still event hid rfl id
  | forget => exact h.of_still event hid rfl id

end Traced

/-! ### Why tasks end -/

/-- **The events of a run brought a cause about.** An export that has no time at all is overdue
without any event. -/
def IsDue (s : Orchestrator) (events : List OrchestratorEvent) (id : String) : EndCause → Prop
  | .cancelled => ∃ event ∈ events, event.Asks id
  | .abandoned => s.Ends events id .cancelled
  | .overdue => .deadline id ∈ events ∨ s.settings.jobTimeoutS ≤ 0
  | .failed failure => s.Ends events id (.failed failure)

theorem IsDue.append {cause : EndCause} (h : s.IsDue events id cause)
    (more : List OrchestratorEvent) : s.IsDue (events ++ more) id cause := by
  cases cause with
  | cancelled =>
    obtain ⟨event, hmem, hasks⟩ := h
    exact ⟨event, List.mem_append_left _ hmem, hasks⟩
  | abandoned => exact Ends.append h more
  | overdue => exact h.imp_left (List.mem_append_left _)
  | failed failure => exact Ends.append h more

/-- **A task knows nothing that did not happen.** -/
structure Grounded (s : Orchestrator) (events : List OrchestratorEvent) (t : Supervised) :
    Prop where
  asked : t.asked = true → s.IsDue events t.id .cancelled
  overdue : t.overdue = true → .deadline t.id ∈ events
  cancelling : ∀ reason, t.phase = .cancelling reason → s.IsDue events t.id reason.cause

namespace Grounded

/-- What has happened stays so. -/
theorem of_still (h : s.Grounded events t) (event : OrchestratorEvent) (hid : later.id = t.id)
    (hasked : later.asked = true → t.asked = true) (hoverdue : later.overdue = t.overdue)
    (hphase : ∀ reason, later.phase = .cancelling reason → t.phase = .cancelling reason) :
    s.Grounded (events ++ [event]) later where
  asked hlater := hid ▸ (h.asked (hasked hlater)).append [event]
  overdue hlater := hid ▸ List.mem_append_left _ (h.overdue (hoverdue ▸ hlater))
  cancelling reason hlater := hid ▸ (h.cancelling reason (hphase reason hlater)).append [event]

theorem of_moves (h : s.Grounded events t) (hsound : t.Sound)
    (hmove : t.Moves (s.run events) event later) : s.Grounded (events ++ [event]) later := by
  have hid := hmove.id_eq hsound
  cases hmove with
  | stay => exact h.of_still event hid id rfl fun _ => id
  | ask hasks =>
    refine ⟨fun _ => ⟨event, by simp, hasks⟩, fun hoverdue => ?_, fun reason hphase => ?_⟩
    · exact List.mem_append_left _ (h.overdue hoverdue)
    · exact (h.cancelling reason hphase).append [event]
  | step =>
    have hsteps := t.stepsTo_step (s.run events).settings (s.run events).now
      (s.run events).mayEnter (s.run events).host
    refine ⟨fun hasked => ?_, fun hlater => ?_, fun reason hphase => ?_⟩ <;> rw [hid]
    · exact (h.asked (hsteps.asked hasked)).append [event]
    · exact List.mem_append_left _ (h.overdue (hsteps.overdue_eq ▸ hlater))
    · refine IsDue.append ?_ [event]
      obtain hphase | ⟨rfl, hasked⟩ | ⟨rfl, hoverdue | hnever⟩ := hsteps.cancelling hphase
      · exact h.cancelling reason hphase
      · exact h.asked hasked
      · exact .inl (h.overdue hoverdue)
      · exact .inr (settings_run s events ▸ hnever)
  | work =>
    obtain heq | heq := t.carry_eq (Execution.step (s.run events).settings (s.run events).now)
      (s.run events).host <;> rw [Supervised.work, heq] at hid ⊢ <;>
        exact h.of_still event hid id rfl fun _ => id
  | breakOff outcome =>
    obtain heq | heq := t.carry_eq (Execution.breakOff (s.run events).settings outcome)
      (s.run events).host <;> rw [Supervised.breakOff, heq] at hid ⊢ <;>
        exact h.of_still event hid id rfl fun _ => id
  | grant =>
    refine h.of_still event hid id rfl fun reason hphase => ?_
    cases hphase
  | overdue hevent =>
    refine ⟨fun hasked => ?_, fun _ => ?_, fun reason hphase => ?_⟩
    · exact (h.asked hasked).append [event]
    · rw [hevent]
      exact List.mem_append_right _ (List.mem_singleton_self _)
    · exact (h.cancelling reason hphase).append [event]
  | forget => exact h.of_still event hid id rfl fun _ => id

/-- A cause for which a task ends has come about. -/
theorem isDue (h : s.Grounded events t) (htraced : s.Traced events t) {cause : EndCause}
    (hcause : t.EndsBy cause) : s.IsDue events t.id cause := by
  cases hcause with
  | asked _ hasked => exact h.asked hasked
  | cancelled hphase => exact h.cancelling .asked hphase
  | abandoned hphase hstage => exact htraced.ended .cancelled hstage nofun fun _ => hphase
  | overdue hphase => exact h.cancelling .deadline hphase
  | failed _ hstage => exact htraced.ended _ hstage nofun nofun

end Grounded

theorem grounded_run (settings : ServiceSettings) (host : Host)
    (events : List OrchestratorEvent) :
    ∀ t ∈ ((start settings host).run events).exports, (start settings host).Grounded events t := by
  refine forall_mem_run settings host ?_ (fun ht _ _ hmove h => h.of_moves ht hmove) events
  rintro events _ ⟨job, request, rfl, -⟩
  exact ⟨nofun, nofun, nofun⟩

/-- **A task ended for a cause** in a run. -/
def EndedBy (s : Orchestrator) (events : List OrchestratorEvent) (id : String) (cause : EndCause) :
    Prop :=
  ∃ before after, events = before ++ .supervise id :: after ∧
    ∃ t ∈ (s.run before).exports, t.id = id ∧ t.phase ≠ .ended ∧ t.EndsBy cause

theorem EndedBy.append {cause : EndCause} (h : s.EndedBy events id cause)
    (more : List OrchestratorEvent) : s.EndedBy (events ++ more) id cause := by
  obtain ⟨before, after, rfl, ht⟩ := h
  exact ⟨before, after ++ more, by rw [List.append_assoc, List.cons_append], ht⟩

end Orchestrator

end TimelineExport
