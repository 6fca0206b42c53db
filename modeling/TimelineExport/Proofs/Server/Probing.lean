import TimelineExport.Proofs.Media.Probe
import TimelineExport.Server.Stage

/-!
# What exports make of a probe

An export probes the sources that may have sound, and its result. Whoever probes takes the fault
`ProbeFault.failed` for what it is: a source that cannot be read, or a result of unknown duration.
Any other fault is none that the policy for sources is asked about, and it ends an export whose
result is finished and only has to be stored (`probes_answered_iff`).
-/

namespace TimelineExport

open ProbeRun (IsAnswered IsSeconds IsSecondsOrText GivesDuration GivesStreams)

/-- A source is refused with a fault of the probe itself exactly if the probe is not answered. -/
theorem inspect_eq_probe_iff (source path : String) (content : StoredFile) (downloaded : Bool)
    (run : ProbeRun) :
    (∃ fault, inspect source path content downloaded (some run) = .error (.probe fault)) ↔
      ¬ IsAnswered (run.readMedia path) := by
  unfold inspect
  dsimp only
  rcases run.readMedia path with fault | info
  · cases fault <;> simp [IsAnswered]
  · simp [IsAnswered]

namespace Execution

/-- The result is stored after its probe exactly if that is answered. -/
theorem check_stage_eq_storing_iff (settings : ServiceSettings) (h : Host) (e : Execution) :
    (check settings h e).2.stage = .storing ↔
      IsAnswered ((h.outside.probe (resultPath settings e.job.id)).readDuration
        (resultPath settings e.job.id)) := by
  unfold check
  dsimp only
  rcases (h.outside.probe (resultPath settings e.job.id)).readDuration
    (resultPath settings e.job.id) with fault | durationMs
  · cases fault <;> simp [IsAnswered, fail, finish]
  · simp [IsAnswered]

/-- An export whose probe is not answered fails as nobody expected. -/
theorem check_stage_of_not_isAnswered {settings : ServiceSettings} {h : Host} {e : Execution}
    (hprobe : ¬ IsAnswered ((h.outside.probe (resultPath settings e.job.id)).readDuration
      (resultPath settings e.job.id))) :
    ∃ message, (check settings h e).2.stage = .ended (.failed (.unexpected message)) := by
  unfold check
  dsimp only
  generalize (h.outside.probe (resultPath settings e.job.id)).readDuration
    (resultPath settings e.job.id) = result at hprobe ⊢
  rcases result with fault | durationMs
  · cases fault with
    | failed m => exact absurd (ProbeRun.isAnswered_failed m) hprobe
    | _ => exact ⟨_, rfl⟩
  · exact absurd (ProbeRun.isAnswered_ok durationMs) hprobe

end Execution

/-- **Which probes are answered**, and what becomes of the others: a source is not refused as one
that cannot be read, and an export fails although the engine has finished its result. -/
theorem probes_answered_iff (path : String) (run : ProbeRun) :
    (IsAnswered (run.readMedia path) ↔
      run.Prints fun v => GivesDuration IsSecondsOrText v ∧ GivesStreams v) ∧
    (IsAnswered (run.readDuration path) ↔ run.Prints (GivesDuration IsSeconds)) ∧
    (∀ source content downloaded,
      (∃ fault, inspect (γ := StoredFile) source path content downloaded (some run) =
        .error (.probe fault)) ↔
        ¬ run.Prints fun v => GivesDuration IsSecondsOrText v ∧ GivesStreams v) ∧
    ∀ (settings : ServiceSettings) (now : Instant) (h : Host) (e : Execution),
      let printed := h.outside.probe (Execution.resultPath settings e.job.id)
      let later := (Execution.step settings now h { e with stage := .checking }).2.stage
      (later = .storing ↔ printed.Prints (GivesDuration IsSeconds)) ∧
      ((∃ message, later = .ended (.failed (.unexpected message))) ↔
        ¬ printed.Prints (GivesDuration IsSeconds)) := by
  have hmedia := ProbeRun.isAnswered_readMedia_iff path run
  refine ⟨hmedia, ProbeRun.isAnswered_readDuration_iff path run, ?_, ?_⟩
  · intro source content downloaded
    rw [inspect_eq_probe_iff, hmedia]
  · intro settings now h e printed later
    have hstored : later = .storing ↔ printed.Prints (GivesDuration IsSeconds) :=
      (Execution.check_stage_eq_storing_iff settings h _).trans
        (ProbeRun.isAnswered_readDuration_iff _ _)
    refine ⟨hstored, ?_, fun hprints => ?_⟩
    · rintro ⟨message, hend⟩ hprints
      cases hend.symm.trans (hstored.mpr hprints)
    · refine Execution.check_stage_of_not_isAnswered (e := { e with stage := .checking }) ?_
      exact fun hanswer => hprints ((ProbeRun.isAnswered_readDuration_iff _ _).mp hanswer)

/-- A run that does not know the duration, and says so. -/
def unknownDuration : ProbeRun :=
  .exited 0 "\x7b\"format\": \x7b\"duration\": \"N/A\"\x7d\x7d" ""

/-- **What nobody is prepared for**: a list is no description to either reader, and an export whose
result is rendered fails when its duration is said to be unknown. -/
theorem unknown_duration_fails_export :
    let listed : ProbeRun := .exited 0 "[]" ""
    let host : Host :=
      { outside := { probe := fun _ => unknownDuration }, storage := .directory ⟨[], ""⟩ }
    let rendered : Execution :=
      { job := { id := "job-1", durationMs := 1000, createdAt := 0 }
        request := { clips := [], tracks := [] }, stage := .checking }
    ¬ IsAnswered (listed.readMedia "clip.mp4") ∧ ¬ IsAnswered (listed.readDuration "clip.mp4") ∧
    ¬ IsAnswered (unknownDuration.readDuration "clip.mp4") ∧
    (Execution.step {} 0 host rendered).2.stage =
      .ended (.failed (.unexpected (ProbeFault.notNumber "N/A").message)) := by
  intro listed host rendered
  have hmedia : listed.readMedia "clip.mp4" =
      .error (.noMembers "'list' object has no attribute 'get'") := rfl
  have hduration : listed.readDuration "clip.mp4" =
      .error (.noMembers "'list' object has no attribute 'get'") := rfl
  have hunknown : unknownDuration.readDuration "clip.mp4" = .error (.notNumber "N/A") := rfl
  refine ⟨?_, ?_, ?_, rfl⟩
  · simp [hmedia, IsAnswered]
  · simp [hduration, IsAnswered]
  · simp [hunknown, IsAnswered]

end TimelineExport
