import Mathlib.Data.List.Sort
import TimelineExport.Proofs.Server.Orchestrator
import TimelineExport.Proofs.Server.Outcome

/-!
# How long a job is known

A job that was submitted can be looked up under its id, and stands in the list of jobs once, until
a submit forgets it. Only an accepted submit does so, and it forgets exactly the jobs that have
ended and are older than jobs are kept (`Orchestrator.Sweeps`). So a job is known after a run if and
only if no submit of the run has swept it (`Orchestrator.IsSwept`); this is shown of one event first
(`Orchestrator.Sound.exists_apply_known_iff`), and then along a run. What is found is always the job
that was submitted, as its operations have left it.

If jobs are kept so long that the calendar does not reach back so far, a submit is refused. No sweep
is missed then, since no job is older than the calendar (`Orchestrator.InCalendar`).
-/

namespace TimelineExport

theorem Job.Change.createdAt_eq {α : Type} [Scalar α] {j later : Job α} (h : Change j later) :
    later.createdAt = j.createdAt := by
  cases h with
  | processing _ h => exact (markProcessing_eq_ok h).2 ▸ rfl
  | progress value stage =>
    unfold updateProgress
    split <;> rfl
  | stage =>
    unfold setStage
    split <;> rfl
  | warning => rfl
  | completed _ _ h => exact (markCompleted_eq_ok h).2 ▸ rfl
  | failed _ _ _ h => exact (markFailed_eq_ok h).2 ▸ rfl

theorem Job.Reaches.createdAt_eq {α : Type} [Scalar α] {j later : Job α} (h : Reaches j later) :
    later.createdAt = j.createdAt := by
  induction h with
  | refl => rfl
  | tail _ hchange ih => exact hchange.createdAt_eq.trans ih

namespace Supervised

variable {settings : ServiceSettings} {now : Instant} {t later : Supervised}

/-! ### What tasks and exports do not forget -/

theorem StepsTo.known_eq {slotFree : Bool} {h : Host}
    (hsteps : t.StepsTo settings now slotFree h later) : later.known = t.known := by
  cases hsteps with
  | enter => obtain ⟨-, heq⟩ | heq := t.enter_eq settings <;> rw [heq]
  | giveUp => obtain ⟨job, heq⟩ := t.giveUp_eq now; rw [heq]; rfl
  | @settle reason outcome =>
    obtain ⟨job, heq⟩ := t.settleOutcome_eq settings now reason outcome
    rw [heq]
    rfl
  | _ => rfl

theorem known_carry (f : Host → Execution → Host × Execution) (h : Host) :
    (t.carry f h).2.known = t.known := by
  unfold carry
  split <;> rfl

/-- **Only a submit forgets a job.** -/
theorem Moves.known {s : Orchestrator} {event : OrchestratorEvent} (h : Moves s event t later) :
    later.known = t.known ∨ (∃ request, event = .submit request) ∧ later.known = false := by
  cases h with
  | stay => exact .inl rfl
  | ask => exact .inl rfl
  | step => exact .inl (t.stepsTo_step _ _ _ _).known_eq
  | work => exact .inl (known_carry _ _)
  | breakOff => exact .inl (known_carry _ _)
  | grant => exact .inl rfl
  | overdue => exact .inl rfl
  | forget _ request h => exact .inr ⟨⟨request, h⟩, rfl⟩

end Supervised

namespace Orchestrator

variable {s : Orchestrator} {t : Supervised} {id : String} {request : ExportRequest}

/-! ### Looking jobs up -/

/-- A known job is found under its id. -/
theorem Sound.job_eq_ok (hs : s.Sound) (ht : t ∈ s.exports) (hknown : t.known = true) :
    s.job t.id = .ok t.job := by
  rw [job, hs.export?_eq ht hknown]

/-- What is found under an id is the job of a known export. -/
theorem exists_of_job_eq_ok {job : Job Float} (h : s.job id = .ok job) :
    ∃ t ∈ s.exports, t.known = true ∧ t.id = id ∧ t.job = job := by
  unfold Orchestrator.job at h
  split at h
  · next t hsome =>
    obtain ⟨ht, hknown, hid⟩ := mem_of_export? hsome
    exact ⟨t, ht, hknown, hid, Except.ok.inj h⟩
  · cases h

/-- A job that was forgotten is not found. -/
theorem Sound.job_eq_error (hs : s.Sound) (ht : t ∈ s.exports) (hknown : t.known = false) :
    s.job t.id = .error (.jobNotFound t.id) := by
  unfold Orchestrator.job
  split
  · next found hsome =>
    obtain ⟨hfound, hknown', hid⟩ := mem_of_export? hsome
    rw [hs.eq_of_id hfound ht hid, hknown] at hknown'
    cases hknown'
  · rfl

/-- A known job is listed once, and a job that was forgotten is not listed. -/
theorem Sound.filter_jobs (hs : s.Sound) (ht : t ∈ s.exports) :
    s.jobs.filter (·.id = t.id) = if t.known then [t.job] else [] := by
  have hperm : (s.jobs.filter (·.id = t.id)).Perm
      ((s.knownExports.filter (·.id = t.id)).map (·.job)) := by
    have hmap : (s.knownExports.map (·.job)).filter (·.id = t.id) =
        (s.knownExports.filter (·.id = t.id)).map (·.job) := List.filter_map
    rw [← hmap]
    exact (List.mergeSort_perm _ _).filter _
  split
  · next hknown =>
    have hnodup : (s.knownExports.filter (·.id = t.id)).Nodup :=
      (hs.nodup_ids.of_map.filter _).filter _
    have hmem : ∀ x, x ∈ s.knownExports.filter (·.id = t.id) ↔ x ∈ [t] := fun x => by
      simp only [knownExports, List.mem_filter, decide_eq_true_eq, List.mem_singleton]
      refine ⟨fun ⟨⟨hx, _⟩, hid⟩ => hs.eq_of_id hx ht hid, ?_⟩
      rintro rfl
      exact ⟨⟨ht, hknown⟩, rfl⟩
    have hsingle := (List.perm_ext_iff_of_nodup hnodup (List.nodup_singleton t)).mpr hmem
    exact List.perm_singleton.mp (hperm.trans (hsingle.map (·.job)))
  · next hunknown =>
    have hnone : s.knownExports.filter (·.id = t.id) = [] := by
      refine List.filter_eq_nil_iff.mpr fun x hx hid => ?_
      obtain ⟨hmem, hknown⟩ := List.mem_filter.mp hx
      exact hunknown (hs.eq_of_id hmem ht (of_decide_eq_true hid) ▸ hknown)
    rw [hnone] at hperm
    exact hperm.eq_nil

/-- **The newest job is listed first.** -/
theorem pairwise_jobs (s : Orchestrator) :
    s.jobs.Pairwise fun a b => b.createdAt ≤ a.createdAt := by
  have hsorted : s.jobs.Pairwise fun a b => decide (b.createdAt ≤ a.createdAt) = true :=
    List.pairwise_mergeSort
      (fun a b c hab hbc => by
        simp only [decide_eq_true_eq] at hab hbc ⊢
        exact hbc.trans hab)
      (fun a b => by
        simp only [Bool.or_eq_true, decide_eq_true_eq]
        exact le_total _ _)
      _
  exact hsorted.imp of_decide_eq_true

/-! ### The calendar -/

/-- A moment before another one is to be had if and only if it is in the calendar. -/
theorem hoursAgo_eq_ok_iff {now cutoff hours : Int} (hnow : now ≤ Instant.latest)
    (hhours : 0 < hours) :
    Instant.hoursAgo now hours = .ok cutoff ↔
      cutoff = now - hours * microsecondsPerHour ∧ Instant.earliest ≤ cutoff := by
  have hearliest : Instant.earliest = -62135596800000000 := rfl
  have hlatest : Instant.latest = 253402300799999999 := rfl
  have hspan : hours * microsecondsPerHour = 3600000000 * hours := Int.mul_comm _ _
  have hdays : maxSpanDays = 999999999 := rfl
  have hmachine : machineLimit = 2147483648 := rfl
  unfold Instant.hoursAgo
  dsimp only
  -- spans of too many days lead out of the calendar
  split
  · exact iff_of_false nofun (by omega)
  · split
    · exact iff_of_false nofun (by omega)
    · split
      · exact iff_of_false nofun (by omega)
      · rw [Except.ok.injEq, eq_comm]
        exact (and_iff_left_of_imp fun h => by rw [h]; omega).symm

/-- A clock stays in the calendar. -/
theorem later_mem_calendar {now : Instant} (hfirst : Instant.earliest ≤ now) (microseconds : Nat) :
    Instant.earliest ≤ now.later microseconds ∧ now.later microseconds ≤ Instant.latest :=
  ⟨le_min (hfirst.trans (Int.le_add_of_nonneg_right (Int.natCast_nonneg _))) (by decide),
    min_le_right _ _⟩

/-- **The clock shows a moment of the calendar**, and jobs were made at such moments. -/
structure InCalendar (s : Orchestrator) : Prop where
  first : Instant.earliest ≤ s.now
  last : s.now ≤ Instant.latest
  created : ∀ t ∈ s.exports, Instant.earliest ≤ t.job.createdAt

/-- One event leaves the clock in the calendar, and a new job is made at the moment it shows. -/
theorem InCalendar.apply (hc : s.InCalendar) (hs : s.Sound) (event : OrchestratorEvent) :
    (s.apply event).InCalendar := by
  have hcreated : ∀ t ∈ (s.apply event).exports, Instant.earliest ≤ t.job.createdAt := by
    obtain ⟨f, fresh, hexports, hmoves, hfresh⟩ := (spec_apply hs event).2
    intro later hlater
    rw [hexports, List.mem_append] at hlater
    obtain hlater | hlater := hlater
    · obtain ⟨t, ht, rfl⟩ := List.mem_map.mp hlater
      have hreaches := ((hmoves t ht).spec (hs.exports t ht)).1
      exact hreaches.createdAt_eq ▸ hc.created t ht
    · exact (hfresh later hlater).2 ▸ hc.first
  obtain hnow | ⟨microseconds, hnow⟩ := (s.settings_now_apply event).2
  · exact ⟨hnow ▸ hc.first, hnow ▸ hc.last, hcreated⟩
  · obtain ⟨hfirst, hlast⟩ := later_mem_calendar hc.first microseconds
    exact ⟨hnow ▸ hfirst, hnow ▸ hlast, hcreated⟩

theorem InCalendar.run (hc : s.InCalendar) (hs : s.Sound) (events : List OrchestratorEvent) :
    (s.run events).InCalendar := by
  induction events generalizing s with
  | nil => exact hc
  | cons event events ih => exact ih (hc.apply hs event) (spec_apply hs event).1

theorem inCalendar_start (settings : ServiceSettings) (host : Host) :
    (start settings host).InCalendar where
  first := show Instant.earliest ≤ 0 by decide
  last := show 0 ≤ Instant.latest by decide
  created _ ht := absurd ht List.not_mem_nil

/-- The calendar reaches back as far as jobs are kept. -/
def ReachesBack (s : Orchestrator) : Prop :=
  s.settings.jobRetentionHours ≤ 0 ∨
    Instant.earliest ≤ s.now - s.settings.jobRetentionHours * microsecondsPerHour

/-- A sweep is possible if and only if the calendar reaches back. -/
theorem InCalendar.exists_sweep_eq_ok_iff (hc : s.InCalendar) :
    (∃ swept, s.sweep = .ok swept) ↔ s.ReachesBack := by
  simp only [sweep_eq_ok_iff]
  constructor
  · rintro ⟨swept, ⟨hever, -⟩ | ⟨hkeeps, cutoff, hcutoff, -⟩⟩
    · exact .inl hever
    · obtain ⟨rfl, hfirst⟩ := (hoursAgo_eq_ok_iff hc.last hkeeps).mp hcutoff
      exact .inr hfirst
  · intro hback
    by_cases hkeeps : 0 < s.settings.jobRetentionHours
    · have hfirst := hback.resolve_left (not_le.mpr hkeeps)
      have hcutoff := (hoursAgo_eq_ok_iff hc.last hkeeps).mpr ⟨rfl, hfirst⟩
      exact ⟨_, .inr ⟨hkeeps, _, hcutoff, rfl⟩⟩
    · exact ⟨s, .inl ⟨not_lt.mp hkeeps, rfl⟩⟩

/-- What a sweep makes of the exports. -/
theorem InCalendar.exports_of_sweep (hc : s.InCalendar) {swept : Orchestrator}
    (h : s.sweep = .ok swept) :
    swept.exports = s.exports.map fun t => { t with
      known := t.known && !(decide (0 < s.settings.jobRetentionHours) &&
        isExpired (s.now - s.settings.jobRetentionHours * microsecondsPerHour) t) } := by
  obtain ⟨hever, rfl⟩ | ⟨hkeeps, cutoff, hcutoff, rfl⟩ := sweep_eq_ok_iff.mp h
  · simp [not_lt.mpr hever]
  · obtain ⟨rfl, -⟩ := (hoursAgo_eq_ok_iff hc.last hkeeps).mp hcutoff
    simp [hkeeps]

/-! ### Sweeps -/

/-- **A submit sweeps a job**: the timeline is valid, jobs are not kept for ever, and the job has
ended and was made longer ago than jobs are kept. -/
structure Sweeps (s : Orchestrator) (request : ExportRequest) (job : Job Float) : Prop where
  valid : validate request.clips request.tracks request.settings = .ok ()
  keeps : 0 < s.settings.jobRetentionHours
  terminal : job.isTerminal = true
  old : job.createdAt < s.now - s.settings.jobRetentionHours * microsecondsPerHour

/-- **A job is swept in a run**: at some moment of the run, an event is a submit that sweeps the job
that is known by the id then. -/
def IsSwept (s : Orchestrator) (events : List OrchestratorEvent) (id : String) : Prop :=
  ∃ before event after, events = before ++ event :: after ∧ ∃ request job,
    event = .submit request ∧ (s.run before).job id = .ok job ∧ (s.run before).Sweeps request job

theorem not_isSwept_nil : ¬ s.IsSwept [] id := by
  rintro ⟨before, event, after, heq, -⟩
  simp at heq

/-- Of a longer run the last event may be the one. -/
theorem isSwept_append_singleton {events : List OrchestratorEvent} {event : OrchestratorEvent} :
    s.IsSwept (events ++ [event]) id ↔ s.IsSwept events id ∨
      ∃ request job, event = .submit request ∧ (s.run events).job id = .ok job ∧
        (s.run events).Sweeps request job :=
  exists_split_append_singleton

/-- A submit that is refused changes nothing. -/
theorem submit_eq_self {fault : SubmitFault} (h : (s.submit request).1 = .error fault) :
    (s.submit request).2 = s := by
  obtain ⟨_, -, heq⟩ | ⟨-, ⟨_, -, heq⟩ | ⟨f, -, -, -, heq⟩⟩ := s.submit_cases request
  · rw [heq]
  · rw [heq]
  · rw [heq] at h
    cases h

/-- The export of a job that has just been submitted. -/
theorem exists_of_submit_eq_ok (h : (s.submit request).1 = .ok id) :
    ∃ t ∈ (s.submit request).2.exports, t.id = id ∧ t.known = true ∧
      t.job = { id, settings := request.settings, durationMs := outputDuration request.clips
                createdAt := s.now } := by
  obtain ⟨_, -, heq⟩ | ⟨-, ⟨_, -, heq⟩ | ⟨f, -, -, -, heq⟩⟩ := s.submit_cases request
  · rw [heq] at h
    cases h
  · rw [heq] at h
    cases h
  · rw [heq] at h ⊢
    obtain rfl := Except.ok.inj h
    exact ⟨_, List.mem_append_right _ (List.mem_singleton_self _), rfl, rfl, rfl⟩

/-- **A submit gives a job** if and only if the timeline is valid and the calendar reaches back as far
as jobs are kept. -/
theorem InCalendar.exists_submit_eq_ok_iff (hs : s.InCalendar) :
    (∃ id, (s.submit request).1 = .ok id) ↔
      validate request.clips request.tracks request.settings = .ok () ∧ s.ReachesBack := by
  obtain ⟨_, hfault, heq⟩ | ⟨hvalid, ⟨_, hfault, heq⟩ | ⟨f, hswept, -, -, heq⟩⟩ :=
    s.submit_cases request
  · rw [heq, hfault]
    exact iff_of_false nofun nofun
  · rw [heq]
    refine iff_of_false nofun fun ⟨_, hback⟩ => ?_
    obtain ⟨swept, hswept⟩ := hs.exists_sweep_eq_ok_iff.mpr hback
    cases hfault.symm.trans hswept
  · rw [heq]
    exact iff_of_true ⟨_, rfl⟩ ⟨hvalid, hs.exists_sweep_eq_ok_iff.mp ⟨_, hswept⟩⟩

/-- **A submit forgets exactly the jobs that it sweeps**, and leaves every job as it is. -/
theorem InCalendar.exists_submit_of_known (hs : s.InCalendar) (ht : t ∈ s.exports)
    (hknown : t.known = true) (request : ExportRequest) :
    ∃ later ∈ (s.submit request).2.exports, later.id = t.id ∧ later.job = t.job ∧
      (later.known = true ↔ ¬ s.Sweeps request t.job) := by
  obtain ⟨fault, hfault, heq⟩ | ⟨hvalid, ⟨fault, hfault, heq⟩ | ⟨f, hswept, -, -, heq⟩⟩ :=
    s.submit_cases request
  · rw [heq]
    refine ⟨t, ht, rfl, rfl, iff_of_true hknown fun hsweeps => ?_⟩
    cases hfault.symm.trans hsweeps.valid
  · -- no job is older than the calendar
    rw [heq]
    refine ⟨t, ht, rfl, rfl, iff_of_true hknown fun hsweeps => ?_⟩
    have hback : ¬ s.ReachesBack := fun hback => by
      obtain ⟨swept, hswept⟩ := hs.exists_sweep_eq_ok_iff.mpr hback
      cases hfault.symm.trans hswept
    have hold := hsweeps.old.trans_le (not_le.mp fun h => hback (.inr h)).le
    exact absurd (hs.created t ht) (not_le.mpr hold)
  · rw [heq]
    have hexports : s.exports.map f = _ := hs.exports_of_sweep hswept
    rw [hexports]
    refine ⟨_, List.mem_append_left _ (List.mem_map_of_mem ht), rfl, rfl, ?_⟩
    rw [hknown, Bool.true_and, Bool.not_eq_true', Bool.and_eq_false_iff, decide_eq_false_iff_not,
      isExpired, Bool.and_eq_false_iff, decide_eq_false_iff_not]
    constructor
    · rintro (h | h | h) hsweeps
      · exact h hsweeps.keeps
      · exact absurd hsweeps.terminal (by simp [h])
      · exact h hsweeps.old
    · intro hkept
      by_contra hall
      simp only [not_or, not_not, Bool.not_eq_false] at hall
      exact hkept ⟨hvalid, hall.1, hall.2.1, hall.2.2⟩

/-- **One event**: a job is known afterwards if it was known, unless the event is a submit that
sweeps it. -/
theorem Sound.exists_apply_known_iff (hs : s.Sound) (hc : s.InCalendar) (ht : t ∈ s.exports)
    (event : OrchestratorEvent) :
    ∃ later ∈ (s.apply event).exports, later.id = t.id ∧ Job.Reaches t.job later.job ∧
      (later.known = true ↔
        t.known = true ∧ ¬ ∃ request, event = .submit request ∧ s.Sweeps request t.job) := by
  by_cases hswept : t.known = true ∧ ∃ request, event = .submit request
  · obtain ⟨hknown, request, rfl⟩ := hswept
    obtain ⟨later, hlater, hid, hjob, hiff⟩ := hc.exists_submit_of_known ht hknown request
    refine ⟨later, hlater, hid, hjob ▸ .refl, hiff.trans ?_⟩
    rw [and_iff_right hknown]
    refine not_congr ⟨fun h => ⟨request, rfl, h⟩, ?_⟩
    rintro ⟨_, ⟨⟩, h⟩
    exact h
  · -- no job is forgotten that was known, and none is found again
    obtain ⟨later, hlater, hid, hmove⟩ := hs.exists_apply event ht
    refine ⟨later, hlater, hid, (hmove.spec (hs.exports t ht)).1, ?_⟩
    obtain hsame | ⟨hsubmit, hforgotten⟩ := hmove.known
    · rw [hsame]
      refine ⟨fun hknown => ⟨hknown, fun ⟨request, heq, _⟩ => ?_⟩, And.left⟩
      exact hswept ⟨hknown, request, heq⟩
    · exact iff_of_false (by simp [hforgotten]) fun ⟨hknown, _⟩ => hswept ⟨hknown, hsubmit⟩

/-- **A run**: a known job is known afterwards if and only if no submit of the run has swept it. -/
theorem Sound.exists_run_known_iff (hs : s.Sound) (hc : s.InCalendar) (ht : t ∈ s.exports)
    (hknown : t.known = true) (events : List OrchestratorEvent) :
    ∃ later ∈ (s.run events).exports, later.id = t.id ∧ Job.Reaches t.job later.job ∧
      (later.known = true ↔ ¬ s.IsSwept events t.id) := by
  -- from the last event back, since a submit judges a job by the state before it
  induction events using List.reverseRecOn with
  | nil => exact ⟨t, ht, rfl, .refl, iff_of_true hknown not_isSwept_nil⟩
  | append_singleton events event ih =>
    obtain ⟨t', ht', hid', hreaches', hiff'⟩ := ih
    have hrun := hs.run events
    obtain ⟨later, hlater, hid, hreaches, hiff⟩ := hrun.exists_apply_known_iff (hc.run hs events) ht' event
    have happly : s.run (events ++ [event]) = (s.run events).apply event := run_append _ _ _
    rw [happly, isSwept_append_singleton, not_or, ← hiff']
    refine ⟨later, hlater, hid.trans hid', hreaches'.trans hreaches, hiff.trans ?_⟩
    refine and_congr_right fun hknown' => not_congr ?_
    have hfound : (s.run events).job t.id = .ok t'.job := hid' ▸ hrun.job_eq_ok ht' hknown'
    constructor
    · rintro ⟨request, heq, hsweeps⟩
      exact ⟨request, t'.job, heq, hfound, hsweeps⟩
    · rintro ⟨request, job, heq, hjob, hsweeps⟩
      obtain rfl := Except.ok.inj (hfound.symm.trans hjob)
      exact ⟨request, heq, hsweeps⟩

/-- **How long jobs are known.** At every submit, after any events and followed by any others:

* a submit that is refused changes nothing, and one gives a job if and only if the timeline is valid
  and the calendar reaches back as far as jobs are kept;
* a job whose id was given is found under it, and listed once, until a later submit sweeps it, and
  it is the job that was submitted, as its operations have left it; once it has been swept it is
  neither found nor listed;
* of the jobs that were known, exactly those are not found any more that the submit sweeps, and the
  others are as they were;
* the newest job is listed first. -/
theorem jobs_known_until_swept (settings : ServiceSettings) (host : Host)
    (before : List OrchestratorEvent) (request : ExportRequest) (after : List OrchestratorEvent) :
    let s := (start settings host).run before
    let given := s.submit request
    let later := given.2.run after
    (∀ fault, given.1 = .error fault → given.2 = s) ∧
      ((∃ id, given.1 = .ok id) ↔
        validate request.clips request.tracks request.settings = .ok () ∧ s.ReachesBack) ∧
      (∀ id, given.1 = .ok id →
        (¬ given.2.IsSwept after id → ∃ job, later.job id = .ok job ∧
          later.jobs.filter (·.id = id) = [job] ∧ job.createdAt = s.now ∧
          Job.Reaches { id, settings := request.settings, createdAt := s.now
                        durationMs := outputDuration request.clips } job) ∧
        (given.2.IsSwept after id →
          later.job id = .error (.jobNotFound id) ∧ later.jobs.filter (·.id = id) = [])) ∧
      (∀ id job, s.job id = .ok job →
        (s.Sweeps request job → given.2.job id = .error (.jobNotFound id)) ∧
        (¬ s.Sweeps request job → given.2.job id = .ok job)) ∧
      later.jobs.Pairwise fun a b => b.createdAt ≤ a.createdAt := by
  intro s given later
  have hs : s.Sound := sound_run settings host before
  have hc : s.InCalendar := (inCalendar_start settings host).run (sound_start settings host) before
  have hgiven : given.2.Sound := (spec_submit hs request).1
  have hgivenCalendar : given.2.InCalendar := hc.apply hs (.submit request)
  have hlater : later.Sound := hgiven.run after
  refine ⟨fun fault => submit_eq_self, hc.exists_submit_eq_ok_iff, fun id hid => ?_,
    fun id job hjob => ?_, pairwise_jobs later⟩
  · obtain ⟨t, ht, rfl, hknown, hnew⟩ := exists_of_submit_eq_ok hid
    obtain ⟨t', ht', hid', hreaches, hiff⟩ := hgiven.exists_run_known_iff hgivenCalendar ht hknown after
    have hlisted := hlater.filter_jobs ht'
    rw [hnew] at hreaches
    rw [hid'] at hlisted
    refine ⟨fun hkept => ?_, fun hswept => ?_⟩
    · have hknown' : t'.known = true := hiff.mpr hkept
      rw [if_pos hknown'] at hlisted
      exact ⟨t'.job, hid' ▸ hlater.job_eq_ok ht' hknown', hlisted, hreaches.createdAt_eq, hreaches⟩
    · have hforgotten : t'.known = false := Bool.not_eq_true _ ▸ mt hiff.mp (not_not.mpr hswept)
      rw [hforgotten] at hlisted
      exact ⟨hid' ▸ hlater.job_eq_error ht' hforgotten, hlisted⟩
  · obtain ⟨t, ht, hknown, rfl, rfl⟩ := exists_of_job_eq_ok hjob
    obtain ⟨t', ht', hid', hsame, hiff⟩ := hc.exists_submit_of_known ht hknown request
    refine ⟨fun hsweeps => ?_, fun hkept => ?_⟩
    · have hforgotten : t'.known = false := Bool.not_eq_true _ ▸ mt hiff.mp (not_not.mpr hsweeps)
      exact hid' ▸ hgiven.job_eq_error ht' hforgotten
    · rw [← hid', ← hsame]
      exact hgiven.job_eq_ok ht' (hiff.mpr hkept)

/-- **A job that has ended is swept by the next submit after a day**, and the new one is known. -/
theorem still_job_is_swept_after_a_day :
    let s := (start {} stillHost).run (completingSteps ++ [.tick 86400000001])
    let given := s.submit stillRequest
    (∃ job, s.job "job-1" = .ok job ∧ job.status = .completed) ∧
      given.2.job "job-1" = .error (.jobNotFound "job-1") ∧
      ∃ job, given.2.job "job-2" = .ok job ∧ given.2.jobs.filter (·.id = "job-2") = [job] := by
  intro s given
  have hfound : (s.job "job-1").toOption.any (fun job => job.status = .completed ∧
      job.createdAt < s.now - s.settings.jobRetentionHours * microsecondsPerHour) := by
    decide +kernel
  have hvalid : (validate stillRequest.clips stillRequest.tracks stillRequest.settings).toOption =
      some () := by decide +kernel
  have hgiven : given.1.toOption = some "job-2" := by decide +kernel
  obtain ⟨job, hjob, hold⟩ := (Option.any_eq_true _ _).mp hfound
  obtain ⟨hstatus, hold⟩ := of_decide_eq_true hold
  have hjob : s.job "job-1" = .ok job := eq_ok_of_toOption hjob
  have hsweeps : s.Sweeps stillRequest job :=
    ⟨eq_ok_of_toOption hvalid, by decide +kernel, by rw [Job.isTerminal, hstatus]; rfl, hold⟩
  obtain ⟨-, -, hreturned, hswept, -⟩ := jobs_known_until_swept {} stillHost
    (completingSteps ++ [.tick 86400000001]) stillRequest []
  obtain ⟨new, hnew, hlisted, -⟩ :=
    (hreturned "job-2" (eq_ok_of_toOption hgiven)).1 not_isSwept_nil
  exact ⟨⟨job, hjob, hstatus⟩, (hswept "job-1" job hjob).1 hsweeps, new, hnew, hlisted⟩

end Orchestrator

end TimelineExport
