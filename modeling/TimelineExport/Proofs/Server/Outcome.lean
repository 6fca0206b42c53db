import TimelineExport.Proofs.Job.Record
import TimelineExport.Proofs.Server.Cause

/-!
# How jobs end

A job is completed only by an export that has passed all milestones, one after another
(`Orchestrator.Passed`). If the task of a job has begun and ends in another way, the job fails, and
the kind of its failure is that of the cause (`Orchestrator.EndedBy`), which goes back to what
happened in the run (`Orchestrator.IsDue`): the task was asked to cancel, the export took too long,
or a stage met a fault. Whatever happens afterwards, a job that has ended keeps its outcome. These
are the parts of `Orchestrator.job_outcome`.
-/

namespace TimelineExport

namespace Orchestrator

variable {s : Orchestrator} {events : List OrchestratorEvent} {event : OrchestratorEvent}
  {id : String} {t later : Supervised}

/-! ### The way to completion -/

/-- **An export passes a milestone** at a moment of a run: it is the step at that moment. -/
def PassesAt (s : Orchestrator) (events : List OrchestratorEvent) (id : String) (moment : Nat)
    (m : Milestone) : Prop :=
  events[moment]? = some (.work id) ∧
    let before := s.run (events.take moment)
    ∃ t ∈ before.exports, t.id = id ∧ t.execution.Passes before.settings before.host m

/-- **An export has passed milestones** in a run, one after another or several in one step. -/
def Passed (s : Orchestrator) (events : List OrchestratorEvent) (id : String)
    (ms : List Milestone) : Prop :=
  ∃ moments : List Nat, moments.Pairwise (· ≤ ·) ∧ List.Forall₂ (s.PassesAt events id) moments ms

namespace Passed

theorem nil (s : Orchestrator) (events : List OrchestratorEvent) (id : String) :
    s.Passed events id [] :=
  ⟨[], .nil, .nil⟩

/-- What has been passed stays so. -/
theorem append {ms : List Milestone} (h : s.Passed events id ms)
    (more : List OrchestratorEvent) : s.Passed (events ++ more) id ms := by
  obtain ⟨moments, hordered, hpasses⟩ := h
  refine ⟨moments, hordered, hpasses.imp fun moment m ⟨hevent, hat⟩ => ?_⟩
  have hlt := (List.getElem?_eq_some_iff.mp hevent).1
  refine ⟨by rw [List.getElem?_append_left hlt, hevent], ?_⟩
  rwa [List.take_append_of_le_length hlt.le]

/-- The last step of a run passes one more milestone. -/
theorem concat {ms : List Milestone} (h : s.Passed (events ++ [.work id]) id ms) {m : Milestone}
    (ht : t ∈ (s.run events).exports) (hid : t.id = id)
    (hpasses : t.execution.Passes (s.run events).settings (s.run events).host m) :
    s.Passed (events ++ [.work id]) id (ms ++ [m]) := by
  obtain ⟨moments, hordered, hall⟩ := h
  have hlast : s.PassesAt (events ++ [.work id]) id events.length m := by
    refine ⟨by simp, ?_⟩
    rw [List.take_left]
    exact ⟨t, ht, hid, hpasses⟩
  have hle : ∀ moment ∈ moments, moment ≤ events.length := by
    refine ((List.forall₂_and_left (R := fun _ _ => True) _ _).mp
      (hall.imp fun moment m hat => ⟨?_, trivial⟩)).1
    have hlt := (List.getElem?_eq_some_iff.mp hat.1).1
    rw [List.length_append, List.length_singleton] at hlt
    exact Nat.le_of_lt_succ hlt
  refine ⟨moments ++ [events.length], List.pairwise_append.mpr ⟨hordered,
    List.pairwise_singleton _ _, fun moment hmoment last hmem => ?_⟩,
    List.rel_append hall (.cons hlast .nil)⟩
  rw [List.mem_singleton.mp hmem]
  exact hle moment hmoment

theorem concat_all {ms new : List Milestone} (h : s.Passed (events ++ [.work id]) id ms)
    (ht : t ∈ (s.run events).exports) (hid : t.id = id)
    (hpasses : ∀ m ∈ new, t.execution.Passes (s.run events).settings (s.run events).host m) :
    s.Passed (events ++ [.work id]) id (ms ++ new) := by
  induction new generalizing ms with
  | nil => rwa [List.append_nil]
  | cons m new ih =>
    obtain ⟨hm, hnew⟩ := List.forall_mem_cons.mp hpasses
    rw [List.append_cons ms]
    exact ih (h.concat ht hid hm) hnew

end Passed

/-- **An export on its course**: it has passed the milestones that lie before its stage, and all of
them if its job is completed. -/
structure OnCourse (s : Orchestrator) (events : List OrchestratorEvent) (t : Supervised) :
    Prop where
  passed : s.Passed events t.id t.execution.stage.passed
  completed : t.job.status = .completed → ∃ url, url ≠ "" ∧ t.job.downloadUrl = some url ∧
    s.Passed events t.id (Milestone.upTo url)

namespace OnCourse

/-- An export stays on its course if it stands still or stops, and its job is not completed. -/
theorem of_still (h : s.OnCourse events t) (event : OrchestratorEvent) (hid : later.id = t.id)
    (hstage : later.execution.stage = t.execution.stage ∨ later.execution.stage.passed = [])
    (hjob : later.job = t.job ∨ later.job.status ≠ .completed) :
    s.OnCourse (events ++ [event]) later where
  passed := by
    obtain hstage | hstage := hstage
    · rw [hid, hstage]
      exact h.passed.append [event]
    · rw [hstage]
      exact .nil _ _ _
  completed hcompleted := by
    obtain hjob | hjob := hjob
    · obtain ⟨url, hne, hurl, hpassed⟩ := h.completed (hjob ▸ hcompleted)
      exact ⟨url, hne, hjob ▸ hurl, hid ▸ hpassed.append [event]⟩
    · exact absurd hcompleted hjob

/-- **A step of an export keeps it on its course.** -/
theorem of_leads (h : s.OnCourse events t) (ht : t ∈ (s.run events).exports) {e : Execution}
    (hlater : later = { t with execution := e })
    (hleads : t.execution.Leads (s.run events).settings (s.run events).host e) :
    s.OnCourse (events ++ [.work t.id]) later := by
  subst hlater
  cases hleads with
  | still => exact h.of_still _ rfl (.inl rfl) (.inl rfl)
  | onward hjob hopen hreached =>
    have hid : e.job.id = t.id := hjob.1.id_eq
    refine ⟨?_, fun hcompleted => ?_⟩
    · change s.Passed _ e.job.id _
      rw [hid]
      obtain hpassed | ⟨new, hpassed, hnew⟩ := hreached
      · rw [hpassed]
        exact .nil _ _ _
      · rw [hpassed]
        exact (h.passed.append _).concat_all ht rfl hnew
    · -- the step ended no job, so the job was completed before
      have hterminal : t.job.isTerminal = true := hjob.2 (by
        change e.job.status = .completed at hcompleted
        rw [Job.isTerminal, hcompleted]
        rfl)
      obtain ⟨url, hne, hurl, hpassed⟩ :=
        h.completed ((hjob.1.status_eq hterminal).symm.trans hcompleted)
      refine ⟨url, hne, ?_, ?_⟩
      · change e.job.downloadUrl = some url
        rw [hjob.1.ended hterminal]
        exact hurl
      · change s.Passed _ e.job.id _
        rw [hid]
        exact hpassed.append _
  | @completed _ url hpasses hjob hstatus hurl hstage =>
    have hid : e.job.id = t.id := hjob.id_eq
    refine ⟨?_, fun _ => ⟨url, hpasses.2.1, hurl, ?_⟩⟩
    · change s.Passed _ e.job.id _
      rw [hstage]
      exact .nil _ _ _
    · change s.Passed _ e.job.id _
      have hbefore := h.passed
      rw [hpasses.1] at hbefore
      rw [hid]
      exact (hbefore.append _).concat ht rfl hpasses

/-- A new export has nothing behind it. -/
theorem of_isNew (h : t.IsNew) : s.OnCourse events t := by
  obtain ⟨job, request, rfl, hstatus⟩ := h
  refine ⟨.nil _ _ _, fun hcompleted => ?_⟩
  cases hstatus.symm.trans hcompleted

/-- A step of its task keeps an export on its course. -/
theorem of_steps (h : s.OnCourse events t) (event : OrchestratorEvent) (hid : later.id = t.id)
    {settings : ServiceSettings} {now : Instant} (hsteps : t.Steps settings now later) :
    s.OnCourse (events ++ [event]) later := by
  cases hsteps with
  | onward _ hjob hstage => exact h.of_still event hid hstage (.inl hjob)
  | ended => exact h.of_still event hid (.inl rfl) (.inl rfl)
  | unstarted => exact h.of_still event hid (.inl rfl) (.inl rfl)
  | completed => exact h.of_still event hid (.inl rfl) (.inl rfl)
  | failed hcause =>
    refine h.of_still event hid (.inl ?_) ?_
    · exact Supervised.stage_failJob _ _ _
    · exact Supervised.job_failJob _ _ _

/-- **A move keeps an export on its course.** -/
theorem of_moves (h : s.OnCourse events t) (hsound : t.Sound) (ht : t ∈ (s.run events).exports)
    (hmove : t.Moves (s.run events) event later) : s.OnCourse (events ++ [event]) later := by
  have hid := hmove.id_eq hsound
  cases hmove with
  | stay => exact h.of_still event hid (.inl rfl) (.inl rfl)
  | ask => exact h.of_still event hid (.inl rfl) (.inl rfl)
  | step => exact h.of_steps event hid (t.stepsTo_step _ _ _ _).steps
  | work hevent =>
    subst hevent
    obtain heq | heq := t.carry_eq (Execution.step (s.run events).settings (s.run events).now)
      (s.run events).host
    · rw [Supervised.work, heq]
      exact h.of_still _ rfl (.inl rfl) (.inl rfl)
    · exact h.of_leads ht heq (Execution.leads_step _ _ _ _)
  | breakOff outcome hevent =>
    obtain heq | heq := t.carry_eq (Execution.breakOff (s.run events).settings outcome)
      (s.run events).host
    · rw [Supervised.breakOff, heq]
      exact h.of_still event rfl (.inl rfl) (.inl rfl)
    · rw [Supervised.breakOff, heq] at hid ⊢
      obtain heq' | ⟨-, engine, heq'⟩ :=
        t.execution.breakOff_eq (s.run events).settings outcome (s.run events).host
      · rw [heq'] at hid ⊢
        exact h.of_still event hid (.inl rfl) (.inl rfl)
      · rw [heq'] at hid ⊢
        exact h.of_still event hid (.inr rfl) (.inl rfl)
  | grant => exact h.of_still event hid (.inl rfl) (.inl rfl)
  | overdue => exact h.of_still event hid (.inl rfl) (.inl rfl)
  | forget => exact h.of_still event hid (.inl rfl) (.inl rfl)

end OnCourse

/-- **Every export is on its course.** -/
theorem onCourse_run (settings : ServiceSettings) (host : Host) (events : List OrchestratorEvent) :
    ∀ t ∈ ((start settings host).run events).exports, (start settings host).OnCourse events t :=
  forall_mem_run settings host .of_isNew (fun ht hmem _ hmove h => h.of_moves ht hmem hmove) events

/-- **A job that has failed** in a run, with the cause of its failure. -/
structure HasFailed (s : Orchestrator) (events : List OrchestratorEvent) (t : Supervised) :
    Prop where
  status : t.job.status = .failed
  error : ∃ message, t.job.error = some message ∧ message ≠ ""
  kind : ∃ cause, s.EndedBy events t.id cause ∧ s.IsDue events t.id cause ∧
    t.job.errorKind = some cause.kind.name

/-- A failed job stays so. -/
theorem HasFailed.of_reaches (h : s.HasFailed events t) (hreaches : Job.Reaches t.job later.job)
    (event : OrchestratorEvent) : s.HasFailed (events ++ [event]) later := by
  have hid : later.id = t.id := hreaches.id_eq
  have hjob := hreaches.ended (by rw [Job.isTerminal, h.status]; rfl)
  obtain ⟨cause, hcause, hdue, hkind⟩ := h.kind
  refine ⟨?_, ?_, cause, hid ▸ hcause.append [event], hid ▸ hdue.append [event], ?_⟩
  · rw [hjob, h.status]
  · rw [hjob]
    exact h.error
  · rw [hjob, hkind]

/-- **A task that ends fails its job**, unless the job is completed or is lost. -/
theorem hasFailed_of_moves (ht : t.Sound) (hmem : t ∈ (s.run events).exports)
    (hmove : t.Moves (s.run events) event later) (hopen : t.FailsWithTask)
    (hgrounded : s.Grounded events t) (htraced : s.Traced events t)
    (h : t.phase = .ended → t.job.status ≠ .completed → t.IsLost ∨ s.HasFailed events t)
    (hphase : later.phase = .ended) (hne : later.job.status ≠ .completed) :
    later.IsLost ∨ s.HasFailed (events ++ [event]) later := by
  obtain ⟨hreaches, -, hlost⟩ := hmove.spec ht
  have hid : later.id = t.id := hreaches.id_eq
  by_cases hended : t.phase = .ended
  · by_cases htlost : t.IsLost
    · exact .inl (hlost.mpr (.inl htlost))
    · have hterminal : t.job.isTerminal = true := by
        by_contra hactive
        exact htlost (.inr ⟨hended, Bool.not_eq_true _ ▸ hactive⟩)
      have hstatus := hreaches.status_eq hterminal
      exact .inr (((h hended (hstatus ▸ hne)).resolve_left htlost).of_reaches hreaches event)
  · cases hmove with
    | stay => exact absurd hphase hended
    | ask => exact absurd hphase hended
    | work => exact absurd ((Supervised.phase_carry _ _).symm.trans hphase) hended
    | breakOff => exact absurd ((Supervised.phase_carry _ _).symm.trans hphase) hended
    | grant => cases hphase
    | overdue => exact absurd hphase hended
    | forget => exact absurd hphase hended
    | step hevent =>
      have hsteps := (t.stepsTo_step (s.run events).settings (s.run events).now
        (s.run events).mayEnter (s.run events).host).steps
      generalize (t.step _ _ _ _).2 = later at *
      cases hsteps with
      | onward hgoing => exact absurd hphase hgoing
      | ended hphase => exact absurd hphase hended
      | unstarted hcreated => exact .inl (.inr ⟨rfl, (ht.unstarted (.inl hcreated)).2⟩)
      | completed hstage => exact absurd (ht.execution hstage) hne
      | @failed cause hcause =>
        have hactive : t.job.isTerminal = false := by
          by_contra hnot
          have hterminal := Bool.not_eq_false _ ▸ hnot
          -- a job that had ended keeps its status, and had not failed before its task ended
          rw [Supervised.failJob_of_isTerminal hterminal] at hne
          exact hended (hopen (JobStatus.eq_failed_of_isTerminal hterminal hne))
        obtain ⟨hstatus, herror, hkind⟩ := Supervised.failJob_of_active ht hactive
          (s.run events).now (cause.error (s.run events).settings)
        refine .inr ⟨hstatus, herror, cause, ?_, ?_, hkind.trans (by rw [cause.kind_error])⟩
        · exact ⟨events, [], by rw [hevent, hid], t, hmem, hid.symm, hended, hcause⟩
        · exact hid ▸ (hgrounded.isDue htraced hcause).append [event]

theorem hasFailed_run (settings : ServiceSettings) (host : Host)
    (events : List OrchestratorEvent) :
    ∀ t ∈ ((start settings host).run events).exports, t.phase = .ended →
      t.job.status ≠ .completed → t.IsLost ∨ (start settings host).HasFailed events t := by
  refine fun t ht => (forall_mem_run settings host (P := fun events t => t.FailsWithTask ∧
    (start settings host).Grounded events t ∧ (start settings host).Traced events t ∧
      (t.phase = .ended → t.job.status ≠ .completed →
        t.IsLost ∨ (start settings host).HasFailed events t)) ?_ ?_ events t ht).2.2.2
  · intro events t hnew
    have htraced : (start settings host).Traced events t := .of_isNew hnew
    obtain ⟨job, request, rfl, hstatus⟩ := hnew
    refine ⟨fun hfailed => ?_, ⟨nofun, nofun, nofun⟩, htraced, nofun⟩
    cases hstatus.symm.trans hfailed
  · intro events event t later hsound hmem hlater hmove ⟨hopen, hgrounded, htraced, h⟩
    exact ⟨hopen.of_moves hmove, hgrounded.of_moves hsound hmove,
      htraced.of_moves hsound hmem hlater hmove,
      hasFailed_of_moves hsound hmem hmove hopen hgrounded htraced h⟩

/-! ### Tasks that have begun -/

/-- **The task of a job has taken its first step** in a run, without having been asked to cancel
before. -/
def HasBegun (s : Orchestrator) (events : List OrchestratorEvent) (id : String) : Prop :=
  ∃ before after, events = before ++ .supervise id :: after ∧
    ∃ t ∈ (s.run before).exports, t.id = id ∧ t.phase = .created ∧ t.asked = false

/-- The job of a task that has begun is not lost. -/
theorem not_isLost_of_hasBegun (hs : s.Sound) (h : s.HasBegun events t.id)
    (ht : t ∈ (s.run events).exports) : ¬ t.IsLost := by
  obtain ⟨before, after, rfl, first, hfirst, hid, hphase, hasked⟩ := h
  have hbefore := hs.run before
  obtain ⟨next, hnext, hid', hmove⟩ := hbefore.exists_apply (.supervise t.id) hfirst
  have hlost : ¬ next.IsLost := by
    rw [(hmove.spec (hbefore.exports first hfirst)).2.2]
    rintro ((⟨-, h⟩ | ⟨h, -⟩) | ⟨h | h, -⟩)
    · cases hasked.symm.trans h
    · cases hphase.symm.trans h
    · cases h
    · cases h
  have hcreated : next.phase ≠ .created := by
    obtain rfl := Supervised.Moves.of_supervise (hid.symm ▸ hmove)
    exact (Supervised.stepsTo_step _ _ _ _ _).phase_ne_created
  obtain ⟨last, hlast, hid'', -, hkept, -⟩ :=
    (spec_apply hbefore (.supervise t.id)).1.exists_run
      (P := fun t => t.Sound ∧ ¬ t.IsLost ∧ t.phase ≠ .created)
      (fun hmove ⟨hsound, hlost, hcreated⟩ => by
        obtain ⟨-, hsound', hiff⟩ := hmove.spec hsound
        refine ⟨hsound', fun hlost' => ?_, ?_⟩
        · obtain hlost' | ⟨-, hphase⟩ := hiff.mp hlost'
          · exact hlost hlost'
          · exact hcreated hphase
        · exact hmove.keeps (P := fun t => t.phase ≠ .created) hcreated hcreated
            (Supervised.stepsTo_step _ _ _ _ _).phase_ne_created
            ((Supervised.phase_carry _ _).symm ▸ hcreated)
            (fun _ => (Supervised.phase_carry _ _).symm ▸ hcreated) nofun hcreated hcreated)
      after ⟨next, hnext, hid'.trans hid, (spec_apply hbefore _).1.exports next hnext, hlost,
        hcreated⟩
  have hrun : s.run (before ++ .supervise t.id :: after) =
      ((s.run before).apply (.supervise t.id)).run after := run_append _ _ _
  rw [hrun] at ht
  have hsound := (spec_apply hbefore (.supervise t.id)).1.run after
  have heq : t = last := hsound.eq_of_id ht hlast hid''.symm
  rwa [heq]

/-! ### The outcome -/

/-- **A job that has ended is changed in nothing but its warnings** by whatever follows. -/
theorem Sound.exists_run_of_isTerminal (hs : s.Sound) (ht : t ∈ s.exports)
    (hterminal : t.job.isTerminal = true) (more : List OrchestratorEvent) :
    ∃ later ∈ (s.run more).exports, later.id = t.id ∧
      later.job = { t.job with warnings := later.job.warnings } := by
  obtain ⟨later, hlater, hid, -, hreaches⟩ := hs.exists_run
    (P := fun later => later.Sound ∧ Job.Reaches t.job later.job)
    (fun hmove ⟨hsound, hreaches⟩ =>
      ⟨(hmove.spec hsound).2.1, hreaches.trans (hmove.spec hsound).1⟩)
    more ⟨t, ht, rfl, hs.exports t ht, .refl⟩
  exact ⟨later, hlater, hid, hreaches.ended hterminal⟩

/-- **The outcome of a job.** After any list of events:

* a job is completed only if its export has passed all milestones in their order, and its URL is
  the one that was signed;
* a job whose task has begun and has ended is completed, or it has failed, with an error and the
  kind of the cause for which the task ended;
* a job that has ended keeps its outcome, whatever follows. -/
theorem job_outcome (settings : ServiceSettings) (host : Host) (events : List OrchestratorEvent) :
    let s := start settings host
    ∀ t ∈ (s.run events).exports,
      (t.job.status = .completed → ∃ url, url ≠ "" ∧ t.job.downloadUrl = some url ∧
        s.Passed events t.id (Milestone.upTo url)) ∧
      (s.HasBegun events t.id → t.phase = .ended → t.job.status ≠ .completed →
        s.HasFailed events t) ∧
      (t.job.isTerminal = true → ∀ more, ∃ later ∈ (s.run (events ++ more)).exports,
        later.id = t.id ∧ later.job = { t.job with warnings := later.job.warnings }) := by
  intro s t ht
  have hsound : s.Sound := sound_start settings host
  refine ⟨(onCourse_run settings host events t ht).completed, fun hbegun hphase hne => ?_,
    fun hterminal more => ?_⟩
  · exact (hasFailed_run settings host events t ht hphase hne).resolve_left
      (not_isLost_of_hasBegun hsound hbegun ht)
  · rw [run_append]
    exact (hsound.run events).exists_run_of_isTerminal ht hterminal more

/-- A request to show one picture. -/
def stillRequest : ExportRequest :=
  { clips := [.plain .image "still" "main" "a.png" 0 1000], tracks := [{ id := "main" }] }

/-- A host with the picture, on which the engine makes a file. -/
def stillHost : Host :=
  { files := { nodes := [(["a.png"], .file { size := 10 })] }
    outside := { probe := fun _ => .notStarted "" }
    storage := .directory ⟨["store"], "http://localhost"⟩
    engines := [{ closing := [.streamsEnd, .exit 0 (some 10)] }] }

/-- The host without the picture. -/
def pictureless : Host := { stillHost with files := {} }

/-- The steps of an undisturbed export. -/
def completingSteps : List OrchestratorEvent :=
  .submit stillRequest :: .supervise "job-1" :: List.replicate 7 (.work "job-1") ++
    [.supervise "job-1"]

/-- The steps of an export that waits in vain for something while its sources are resolved. -/
def timedOutSteps : List OrchestratorEvent :=
  [.submit stillRequest, .supervise "job-1", .work "job-1",
    .breakOff "job-1" (.failed .timedOut), .supervise "job-1"]

/-- An undisturbed export passes all milestones; one that times out fails, and so does one whose
picture is not found. -/
theorem still_outcomes :
    (∀ t ∈ ((start {} stillHost).run completingSteps).exports, t.phase = .ended ∧
      (∃ url, url ≠ "" ∧ t.job.downloadUrl = some url ∧
        (start {} stillHost).Passed completingSteps t.id (Milestone.upTo url)) ∧
      ∃ later ∈ ((start {} stillHost).run (completingSteps ++ [.shutdown])).exports,
        later.id = t.id ∧ later.job = { t.job with warnings := later.job.warnings }) ∧
    (∀ t ∈ ((start {} stillHost).run timedOutSteps).exports,
      (start {} stillHost).HasFailed timedOutSteps t ∧ t.job.errorKind = some "timeout") ∧
    ∀ t ∈ ((start {} pictureless).run completingSteps).exports,
      (start {} pictureless).HasFailed completingSteps t ∧
        t.job.errorKind = some "asset-resolution" := by
  refine ⟨fun t ht => ?_, fun t ht => ?_, fun t ht => ?_⟩
  · have hend : ∀ t ∈ ((start {} stillHost).run completingSteps).exports,
        t.phase = .ended ∧ t.job.status = .completed := by decide +kernel
    obtain ⟨hphase, hstatus⟩ := hend t ht
    obtain ⟨hcompleted, -, hkept⟩ := job_outcome {} stillHost completingSteps t ht
    refine ⟨hphase, hcompleted hstatus, hkept ?_ [.shutdown]⟩
    rw [Job.isTerminal, hstatus]
    rfl
  · have hend : ∀ t ∈ ((start {} stillHost).run timedOutSteps).exports, t.id = "job-1" ∧
        t.phase = .ended ∧ t.job.status ≠ .completed ∧ t.job.errorKind = some "timeout" := by
      decide +kernel
    have hbegun : (start {} stillHost).HasBegun timedOutSteps "job-1" :=
      ⟨[.submit stillRequest], _, rfl, by decide +kernel⟩
    obtain ⟨hid, hphase, hne, hkind⟩ := hend t ht
    exact ⟨(job_outcome {} stillHost timedOutSteps t ht).2.1 (hid ▸ hbegun) hphase hne, hkind⟩
  · have hend : ∀ t ∈ ((start {} pictureless).run completingSteps).exports, t.id = "job-1" ∧
        t.phase = .ended ∧ t.job.status ≠ .completed ∧
          t.job.errorKind = some "asset-resolution" := by decide +kernel
    have hbegun : (start {} pictureless).HasBegun completingSteps "job-1" :=
      ⟨[.submit stillRequest], _, rfl, by decide +kernel⟩
    obtain ⟨hid, hphase, hne, hkind⟩ := hend t ht
    exact ⟨(job_outcome {} pictureless completingSteps t ht).2.1 (hid ▸ hbegun) hphase hne, hkind⟩

end Orchestrator

end TimelineExport
