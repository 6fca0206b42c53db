import Mathlib.Data.List.Induction
import Mathlib.Order.MinMax
import TimelineExport.Proofs.Job.Change

/-!
# What the record of a job says

`Job.Coherent` ties the record of a job to its status: how far it is, whether there is a URL or an
error, and when it ended. Every change keeps it (`Job.Coherent.change`), progress never falls
(`Job.Change.progress_le`), and a job that has ended is changed in nothing but its warnings
(`Job.Change.ended`).

A `Job.Call` is one use of an operation, and `Job.after` says what a list of them makes of a job; a
call that is refused leaves the job as it is. `Job.lawful_after` reads the laws along such a list.
-/

namespace TimelineExport

theorem percentOf_le {α : Type} [Scalar α] (x : α) : percentOf x ≤ 99 := by
  unfold percentOf
  split
  · exact (List.length_filter_le _ _).trans_eq List.length_range
  · exact le_rfl

namespace JobStatus

variable {s target : JobStatus}

/-- Only a job that has not ended may move. -/
theorem isTerminal_of_allows (h : s.allows target = true) : s.isTerminal = false := by
  by_contra hterminal
  cases h.symm.trans (allows_eq_false_of_isTerminal (Bool.not_eq_false _ ▸ hterminal) target)

theorem ne_completed_of_isTerminal (h : s.isTerminal = false) : s ≠ .completed := by
  rintro rfl
  cases h

theorem ne_failed_of_isTerminal (h : s.isTerminal = false) : s ≠ .failed := by
  rintro rfl
  cases h

/-- A job that has ended without a result has failed. -/
theorem eq_failed_of_isTerminal (h : s.isTerminal = true) (hne : s ≠ .completed) :
    s = .failed := by
  cases s with
  | completed => exact absurd rfl hne
  | failed => rfl
  | queued => cases h
  | processing => cases h
  | downloading => cases h

end JobStatus

namespace Job

variable {α : Type} {j later : Job α}

/-- **A record that agrees with the status of its job.** -/
structure Coherent (j : Job α) : Prop where
  progress_le : j.progress ≤ 100
  progress_eq_iff : j.progress = 100 ↔ j.status = .completed
  isSome_downloadUrl_iff : j.downloadUrl.isSome ↔ j.status = .completed
  downloadUrl_ne : ∀ url ∈ j.downloadUrl, url ≠ ""
  isSome_error_iff : j.error.isSome ↔ j.status = .failed
  error_ne : ∀ message ∈ j.error, message ≠ ""
  isSome_errorKind_iff : j.errorKind.isSome ↔ j.status = .failed
  isSome_completedAt_iff : j.completedAt.isSome ↔ j.isTerminal = true

namespace Coherent

/-- A job that goes on has not made all of its progress. -/
theorem progress_lt (h : j.Coherent) (hactive : j.isTerminal = false) : j.progress < 100 :=
  lt_of_le_of_ne h.progress_le fun heq =>
    JobStatus.ne_completed_of_isTerminal hactive (h.progress_eq_iff.mp heq)

/-- A job that goes on has neither a URL nor an error. -/
theorem outcome_eq_none (h : j.Coherent) (hactive : j.isTerminal = false) :
    j.downloadUrl = none ∧ j.error = none ∧ j.errorKind = none := by
  have hcompleted := JobStatus.ne_completed_of_isTerminal hactive
  have hfailed := JobStatus.ne_failed_of_isTerminal hactive
  refine ⟨?_, ?_, ?_⟩
  · exact Option.not_isSome_iff_eq_none.mp fun hsome =>
      hcompleted (h.isSome_downloadUrl_iff.mp hsome)
  · exact Option.not_isSome_iff_eq_none.mp fun hsome => hfailed (h.isSome_error_iff.mp hsome)
  · exact Option.not_isSome_iff_eq_none.mp fun hsome => hfailed (h.isSome_errorKind_iff.mp hsome)

/-- A record without an outcome is coherent as long as the job goes on. -/
theorem of_active (hactive : j.isTerminal = false) (hprogress : j.progress < 100)
    (houtcome : j.downloadUrl = none ∧ j.error = none ∧ j.errorKind = none)
    (hend : j.completedAt = none) : j.Coherent := by
  have hcompleted := JobStatus.ne_completed_of_isTerminal hactive
  have hfailed := JobStatus.ne_failed_of_isTerminal hactive
  obtain ⟨hurl, herror, hkind⟩ := houtcome
  exact {
    progress_le := hprogress.le
    progress_eq_iff := iff_of_false hprogress.ne hcompleted
    isSome_downloadUrl_iff := iff_of_false (by simp [hurl]) hcompleted
    downloadUrl_ne := by simp [hurl]
    isSome_error_iff := iff_of_false (by simp [herror]) hfailed
    error_ne := by simp [herror]
    isSome_errorKind_iff := iff_of_false (by simp [hkind]) hfailed
    isSome_completedAt_iff := iff_of_false (by simp [hend]) (by simp [hactive]) }

theorem completedAt_eq_none (h : j.Coherent) (hactive : j.isTerminal = false) :
    j.completedAt = none := by
  refine Option.not_isSome_iff_eq_none.mp fun hsome => ?_
  cases hactive.symm.trans (h.isSome_completedAt_iff.mp hsome)

end Coherent

section Changes

variable [Scalar α]

/-- **A job that has ended is changed in nothing but its warnings.** -/
theorem Change.ended (h : Change j later) (hterminal : j.isTerminal = true) :
    later = { j with warnings := later.warnings } := by
  have hmoves : ∀ target, j.status.allows target = true → False := fun target hallows => by
    cases hterminal.symm.trans (JobStatus.isTerminal_of_allows hallows)
  cases h with
  | processing _ h => exact (hmoves _ (markProcessing_eq_ok h).1).elim
  | progress value stage => rw [updateProgress, if_pos hterminal]
  | stage stage => rw [setStage, if_pos hterminal]
  | warning message => rfl
  | completed _ _ h => exact (hmoves _ (markCompleted_eq_ok h).1.2).elim
  | failed _ _ _ h => exact (hmoves _ (markFailed_eq_ok h).1).elim

/-- **Progress never falls.** -/
theorem Change.progress_le (h : Change j later) (hj : j.Coherent) :
    j.progress ≤ later.progress := by
  cases h with
  | processing _ h => exact (markProcessing_eq_ok h).2 ▸ le_rfl
  | progress value stage =>
    unfold updateProgress
    split
    · exact le_rfl
    · exact le_max_left _ _
  | stage stage =>
    unfold setStage
    split <;> exact le_rfl
  | warning message => exact le_rfl
  | completed _ _ h => exact (markCompleted_eq_ok h).2 ▸ hj.progress_le
  | failed _ _ _ h => exact (markFailed_eq_ok h).2 ▸ le_rfl

/-- **A change keeps the record in agreement with the status.** -/
theorem Coherent.change (hj : j.Coherent) (h : Change j later) : later.Coherent := by
  cases h with
  | processing _ h =>
    obtain ⟨hallows, rfl⟩ := markProcessing_eq_ok h
    have hactive := JobStatus.isTerminal_of_allows hallows
    exact .of_active rfl (hj.progress_lt hactive) (hj.outcome_eq_none hactive)
      (hj.completedAt_eq_none hactive)
  | progress value stage =>
    unfold updateProgress
    split
    · exact hj
    · next hactive =>
      have hactive := Bool.not_eq_true _ ▸ hactive
      exact .of_active hactive
        (max_lt (hj.progress_lt hactive) (Nat.lt_succ_of_le (percentOf_le value)))
        (hj.outcome_eq_none hactive) (hj.completedAt_eq_none hactive)
  | stage stage =>
    unfold setStage
    split
    · exact hj
    · next hactive =>
      have hactive := Bool.not_eq_true _ ▸ hactive
      exact .of_active hactive (hj.progress_lt hactive) (hj.outcome_eq_none hactive)
        (hj.completedAt_eq_none hactive)
  | warning message => exact { hj with }
  | completed _ _ h =>
    obtain ⟨⟨hurl, hallows⟩, rfl⟩ := markCompleted_eq_ok h
    have houtcome := hj.outcome_eq_none (JobStatus.isTerminal_of_allows hallows)
    exact {
      progress_le := le_rfl
      progress_eq_iff := iff_of_true rfl rfl
      isSome_downloadUrl_iff := iff_of_true rfl rfl
      downloadUrl_ne := by simpa using hurl
      isSome_error_iff := iff_of_false (by simp [houtcome]) nofun
      error_ne := hj.error_ne
      isSome_errorKind_iff := iff_of_false (by simp [houtcome]) nofun
      isSome_completedAt_iff := iff_of_true rfl rfl }
  | failed _ error kind h =>
    obtain ⟨hallows, rfl⟩ := markFailed_eq_ok h
    have hactive := JobStatus.isTerminal_of_allows hallows
    exact {
      progress_le := hj.progress_le
      progress_eq_iff := iff_of_false (hj.progress_lt hactive).ne nofun
      isSome_downloadUrl_iff := iff_of_false (by simp [hj.outcome_eq_none hactive]) nofun
      downloadUrl_ne := hj.downloadUrl_ne
      isSome_error_iff := iff_of_true rfl rfl
      error_ne := by
        rintro message ⟨⟩
        split
        · simp
        · next hne => exact hne
      isSome_errorKind_iff := iff_of_true rfl rfl
      isSome_completedAt_iff := iff_of_true rfl rfl }

end Changes

/-! ### Calls -/

/-- One use of an operation of a job. -/
inductive Call (α : Type) where
  | markProcessing (now : Instant)
  | updateProgress (value : α) (stage : Option String)
  | setStage (stage : String)
  | addWarning (message : String)
  | markCompleted (now : Instant) (url : String)
  | markFailed (now : Instant) (error kind : String)

/-- Whether a call asks for a move that the status does not allow, or for an end without a URL. -/
def Refuses (j : Job α) : Call α → Prop
  | .markProcessing _ => j.status.allows .processing = false
  | .markCompleted _ url => url = "" ∨ j.status.allows .completed = false
  | .markFailed _ _ _ => j.status.allows .failed = false
  | _ => False

theorem moveTo_eq_error_iff {target : JobStatus} :
    (∃ fault, j.moveTo target = .error fault) ↔ j.status.allows target = false := by
  unfold moveTo
  split
  · next h => exact iff_of_false nofun (by simp [h])
  · next h => exact iff_of_true ⟨_, rfl⟩ (Bool.not_eq_true _ ▸ h)

/-- What follows a move does not fail. -/
theorem moveTo_bind_eq_error_iff {target : JobStatus} {f : Job α → Job α} :
    (∃ fault, (j.moveTo target >>= fun j => pure (f j)) = .error fault) ↔
      j.status.allows target = false := by
  rw [← moveTo_eq_error_iff]
  cases j.moveTo target with
  | ok moved => exact iff_of_false nofun nofun
  | error fault => exact Iff.rfl

variable [Scalar α]

/-- What a call makes of a job, or why it is refused. -/
def perform (j : Job α) : Call α → Except JobFault (Job α)
  | .markProcessing now => j.markProcessing now
  | .updateProgress value stage => .ok (j.updateProgress value stage)
  | .setStage stage => .ok (j.setStage stage)
  | .addWarning message => .ok (j.addWarning message)
  | .markCompleted now url => j.markCompleted now url
  | .markFailed now error kind => j.markFailed now error kind

/-- A job after a list of calls. -/
def after (j : Job α) (calls : List (Call α)) : Job α :=
  calls.foldl (fun j call => (j.perform call).toOption.getD j) j

theorem after_append (j : Job α) (before more : List (Call α)) :
    j.after (before ++ more) = (j.after before).after more :=
  List.foldl_append

theorem change_of_perform {call : Call α} (h : j.perform call = .ok later) : Change j later := by
  cases call with
  | markProcessing now => exact .processing now h
  | updateProgress value stage => exact Except.ok.inj h ▸ .progress j value stage
  | setStage stage => exact Except.ok.inj h ▸ .stage j stage
  | addWarning message => exact Except.ok.inj h ▸ .warning j message
  | markCompleted now url => exact .completed now url h
  | markFailed now error kind => exact .failed now error kind h

/-- **Which calls are refused.** -/
theorem perform_eq_error_iff {call : Call α} :
    (∃ fault, j.perform call = .error fault) ↔ j.Refuses call := by
  cases call with
  | markProcessing now => exact moveTo_bind_eq_error_iff
  | updateProgress value stage => exact iff_of_false nofun not_false
  | setStage stage => exact iff_of_false nofun not_false
  | addWarning message => exact iff_of_false nofun not_false
  | markCompleted now url =>
    simp only [perform, markCompleted, Refuses]
    split
    · next hurl => exact iff_of_true ⟨_, rfl⟩ (.inl hurl)
    · next hurl => exact moveTo_bind_eq_error_iff.trans (or_iff_right hurl).symm
  | markFailed now error kind => exact moveTo_bind_eq_error_iff

/-- A call changes the job, or is refused and leaves it as it is. -/
theorem after_singleton (j : Job α) (call : Call α) :
    (j.perform call = .ok (j.after [call]) ∧ Change j (j.after [call])) ∨
      (∃ fault, j.perform call = .error fault) ∧ j.after [call] = j := by
  have hafter : j.after [call] = (j.perform call).toOption.getD j := rfl
  rw [hafter]
  cases h : j.perform call with
  | ok later => exact .inl ⟨rfl, change_of_perform h⟩
  | error fault => exact .inr ⟨⟨fault, rfl⟩, rfl⟩

theorem reaches_after (j : Job α) (calls : List (Call α)) : Reaches j (j.after calls) := by
  induction calls using List.reverseRecOn with
  | nil => exact .refl
  | append_singleton calls call ih =>
    rw [after_append]
    obtain ⟨-, hchange⟩ | ⟨-, hsame⟩ := (j.after calls).after_singleton call
    · exact ih.tail hchange
    · rwa [hsame]

/-! ### Any number of changes -/

theorem Coherent.reaches (hj : j.Coherent) (h : Reaches j later) : later.Coherent := by
  induction h with
  | refl => exact hj
  | tail _ hchange ih => exact ih.change hchange

theorem Reaches.progress_le (h : Reaches j later) (hj : j.Coherent) :
    j.progress ≤ later.progress := by
  induction h with
  | refl => exact le_rfl
  | tail hreaches hchange ih => exact ih.trans (hchange.progress_le (hj.reaches hreaches))

theorem Reaches.ended (h : Reaches j later) (hterminal : j.isTerminal = true) :
    later = { j with warnings := later.warnings } := by
  induction h with
  | refl => rfl
  | @tail k l hreaches hchange ih =>
    have hl := hchange.ended (by rw [ih]; exact hterminal)
    rw [ih] at hl
    exact hl

/-- **The laws of a job.** Of a job that has just been made, after any list of calls and then one
more:

* the call succeeds, or it is refused and changes nothing; it is refused if it asks for a move that
  the status does not allow, or for an end without a URL;
* the status moves only where it may, and the record agrees with it;
* whatever follows, progress does not fall, and once the job has ended nothing but its warnings is
  changed. -/
theorem lawful_after (id : String) (settings : ExportSettings) (durationMs : α)
    (createdAt : Instant) (before : List (Call α)) (call : Call α) (more : List (Call α)) :
    let fresh : Job α := { id, settings, durationMs, createdAt }
    let j := fresh.after before
    let next := fresh.after (before ++ [call])
    let later := fresh.after (before ++ call :: more)
    (j.perform call = .ok next ∨ (∃ fault, j.perform call = .error fault) ∧ next = j) ∧
      ((∃ fault, j.perform call = .error fault) ↔ j.Refuses call) ∧
      (next.status = j.status ∨ j.status.allows next.status = true) ∧
      next.Coherent ∧
      j.progress ≤ later.progress ∧
      (j.isTerminal = true → later = { j with warnings := later.warnings }) := by
  intro fresh j next later
  have hfresh : fresh.Coherent := .of_active rfl (Nat.succ_pos 99) ⟨rfl, rfl, rfl⟩ rfl
  have hj : j.Coherent := hfresh.reaches (reaches_after fresh before)
  have hnext : next = j.after [call] := after_append fresh before [call]
  have hlater : Reaches j later := by
    have heq : later = j.after (call :: more) := after_append fresh before (call :: more)
    exact heq ▸ reaches_after j (call :: more)
  have hsplit := j.after_singleton call
  rw [← hnext] at hsplit
  refine ⟨hsplit.imp_left And.left, perform_eq_error_iff, ?_, ?_, hlater.progress_le hj,
    hlater.ended⟩
  · obtain ⟨-, hchange⟩ | ⟨-, hsame⟩ := hsplit
    · exact hchange.status
    · exact .inl (by rw [hsame])
  · exact hfresh.reaches (reaches_after fresh (before ++ [call]))

/-- A completed job takes nothing but warnings. -/
theorem completed_job_takes_warnings :
    let fresh : Job Rat := { id := "job-1", durationMs := 8000, createdAt := 0 }
    let j := fresh.after [.markProcessing 1, .updateProgress 140 (some "encoding"),
      .markCompleted 2 "/job-1.mp4"]
    let later := j.after [.markFailed 3 "late" "timeout", .updateProgress 7 none,
      .addWarning "late"]
    j.isTerminal = true ∧ later = { j with warnings := ["late"] } := by
  intro fresh j later
  have hterminal : j.isTerminal = true := by decide +kernel
  have hwarnings : later.warnings = ["late"] := by decide +kernel
  have hlawful := lawful_after "job-1" {} (8000 : Rat) 0
    [.markProcessing 1, .updateProgress 140 (some "encoding"), .markCompleted 2 "/job-1.mp4"]
    (.markFailed 3 "late" "timeout") [.updateProgress 7 none, .addWarning "late"]
  refine ⟨hterminal, ?_⟩
  rw [← hwarnings]
  exact hlawful.2.2.2.2.2 hterminal

end Job

end TimelineExport
