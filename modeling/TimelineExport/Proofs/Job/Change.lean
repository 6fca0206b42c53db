import Mathlib.Logic.Relation
import TimelineExport.Job.Basic
import TimelineExport.Proofs.Outcome

/-!
# How jobs change

`Job.Change` is one use of an operation of a job, and `Job.Reaches` any number of them. Whatever
the operations are, a job keeps its id, its status moves only where it may, and a job that has
ended keeps its status. What changes a job only through its operations inherits these laws.
`Job.Proceeds` are changes that leave the outcome of the job open.
-/

namespace TimelineExport

variable {α : Type}

namespace JobStatus

theorem allows_eq_false_of_isTerminal {s : JobStatus} (h : s.isTerminal = true)
    (target : JobStatus) : s.allows target = false := by
  cases s <;> cases h <;> cases target <;> rfl

theorem allows_downloading (s : JobStatus) : s.allows .downloading = false := by
  cases s <;> rfl

/-- A job that has not ended may fail. -/
theorem allows_failed {s : JobStatus} (h : s.isTerminal = false) (hne : s ≠ .downloading) :
    s.allows .failed = true := by
  cases s with
  | queued => rfl
  | processing => rfl
  | completed => cases h
  | failed => cases h
  | downloading => exact absurd rfl hne

end JobStatus

namespace Job

section
variable {j j' : Job α}

/-- A status moves only where it may. -/
theorem moveTo_eq_ok {target : JobStatus} (h : j.moveTo target = .ok j') :
    j.status.allows target = true ∧ j' = { j with status := target } := by
  unfold moveTo at h
  split at h
  · next hallows =>
    cases h
    exact ⟨hallows, rfl⟩
  · cases h

theorem markProcessing_eq_ok {now : Instant} (h : j.markProcessing now = .ok j') :
    j.status.allows .processing = true ∧
      j' = { j with status := .processing, startedAt := some now, stage := some "rendering" } := by
  obtain ⟨moved, hmove, h⟩ := bind_eq_ok.mp h
  obtain ⟨hallows, rfl⟩ := moveTo_eq_ok hmove
  cases h
  exact ⟨hallows, rfl⟩

theorem markCompleted_eq_ok {now : Instant} {url : String} (h : j.markCompleted now url = .ok j') :
    (url ≠ "" ∧ j.status.allows .completed = true) ∧
      j' = { j with status := .completed, progress := 100, stage := some "completed"
                    downloadUrl := some url, completedAt := some now } := by
  unfold markCompleted at h
  split at h
  · cases h
  · next hurl =>
    obtain ⟨moved, hmove, h⟩ := bind_eq_ok.mp h
    obtain ⟨hallows, rfl⟩ := moveTo_eq_ok hmove
    cases h
    exact ⟨⟨hurl, hallows⟩, rfl⟩

theorem markFailed_eq_ok {now : Instant} {error kind : String}
    (h : j.markFailed now error kind = .ok j') :
    j.status.allows .failed = true ∧
      j' = { j with
        status := .failed
        error := some (if error = "" then "Export failed (" ++ kind ++ ")" else error)
        errorKind := some kind, stage := some "failed", completedAt := some now } := by
  obtain ⟨moved, hmove, h⟩ := bind_eq_ok.mp h
  obtain ⟨hallows, rfl⟩ := moveTo_eq_ok hmove
  cases h
  exact ⟨hallows, rfl⟩

/-- A job that may fail can be failed. -/
theorem succeeds_markFailed (hallows : j.status.allows .failed = true) (now : Instant)
    (error kind : String) : Succeeds (j.markFailed now error kind) := by
  unfold markFailed moveTo
  rw [if_pos hallows]
  exact ⟨_, rfl⟩

end

variable [Scalar α]

/-- **One change of a job**: an operation that is allowed. -/
inductive Change : Job α → Job α → Prop
  | processing {j j' : Job α} (now : Instant) (h : j.markProcessing now = .ok j') : Change j j'
  | progress (j : Job α) (value : α) (stage : Option String) :
      Change j (j.updateProgress value stage)
  | stage (j : Job α) (stage : String) : Change j (j.setStage stage)
  | warning (j : Job α) (message : String) : Change j (j.addWarning message)
  | completed {j j' : Job α} (now : Instant) (url : String)
      (h : j.markCompleted now url = .ok j') : Change j j'
  | failed {j j' : Job α} (now : Instant) (error kind : String)
      (h : j.markFailed now error kind = .ok j') : Change j j'

/-- Any number of changes of a job. -/
abbrev Reaches : Job α → Job α → Prop := Relation.ReflTransGen Change

variable {j j' : Job α}

theorem Change.id_eq (h : Change j j') : j'.id = j.id := by
  cases h with
  | processing _ h => exact (markProcessing_eq_ok h).2 ▸ rfl
  | progress value stage =>
    unfold updateProgress
    split <;> rfl
  | stage =>
    unfold setStage
    split <;> rfl
  | warning => rfl
  | completed _ _ h => exact (markCompleted_eq_ok h).2 ▸ rfl
  | failed _ _ _ h => exact (markFailed_eq_ok h).2 ▸ rfl

/-- A change keeps the status or moves it where it may. -/
theorem Change.status (h : Change j j') :
    j'.status = j.status ∨ j.status.allows j'.status = true := by
  cases h with
  | processing _ h =>
    obtain ⟨hallows, rfl⟩ := markProcessing_eq_ok h
    exact .inr hallows
  | progress value stage =>
    unfold updateProgress
    split <;> exact .inl rfl
  | stage =>
    unfold setStage
    split <;> exact .inl rfl
  | warning => exact .inl rfl
  | completed _ _ h =>
    obtain ⟨⟨-, hallows⟩, rfl⟩ := markCompleted_eq_ok h
    exact .inr hallows
  | failed _ _ _ h =>
    obtain ⟨hallows, rfl⟩ := markFailed_eq_ok h
    exact .inr hallows

theorem Reaches.id_eq (h : Reaches j j') : j'.id = j.id := by
  induction h with
  | refl => rfl
  | tail _ hchange ih => exact hchange.id_eq.trans ih

/-- **A job that has ended keeps its status.** -/
theorem Reaches.status_eq (h : Reaches j j') (hterminal : j.isTerminal = true) :
    j'.status = j.status := by
  induction h with
  | refl => rfl
  | @tail k k' _ hchange ih =>
    obtain heq | hallows := hchange.status
    · exact heq.trans ih
    · rw [ih, JobStatus.allows_eq_false_of_isTerminal hterminal] at hallows
      cases hallows

/-- No job that is exported is ever shown as being downloaded. -/
theorem Reaches.status_ne_downloading (h : Reaches j j') (hne : j.status ≠ .downloading) :
    j'.status ≠ .downloading := by
  induction h with
  | refl => exact hne
  | @tail k k' _ hchange ih =>
    obtain heq | hallows := hchange.status
    · rwa [heq]
    · intro hdownloading
      rw [hdownloading, JobStatus.allows_downloading] at hallows
      cases hallows

/-! ### Changes on the way -/

/-- Any number of changes, none of which ends the job. -/
def Proceeds (j later : Job α) : Prop :=
  Reaches j later ∧ (later.isTerminal = true → j.isTerminal = true)

namespace Proceeds

theorem refl (j : Job α) : Proceeds j j := ⟨.refl, fun h => h⟩

theorem trans {k : Job α} (h : Proceeds j j') (h' : Proceeds j' k) : Proceeds j k :=
  ⟨h.1.trans h'.1, fun hterminal => h.2 (h'.2 hterminal)⟩

/-- A change that leaves the status alone does not end the job. -/
theorem of_change (h : Change j j') (hstatus : j'.status = j.status) : Proceeds j j' := by
  refine ⟨.single h, fun hterminal => ?_⟩
  rwa [isTerminal, hstatus] at hterminal

end Proceeds

theorem proceeds_updateProgress (j : Job α) (value : α) (stage : Option String) :
    Proceeds j (j.updateProgress value stage) := by
  refine .of_change (.progress j value stage) ?_
  unfold updateProgress
  split <;> rfl

theorem proceeds_setStage (j : Job α) (stage : String) : Proceeds j (j.setStage stage) := by
  refine .of_change (.stage j stage) ?_
  unfold setStage
  split <;> rfl

theorem proceeds_addWarning (j : Job α) (message : String) : Proceeds j (j.addWarning message) :=
  .of_change (.warning j message) rfl

theorem proceeds_markProcessing {now : Instant} (h : j.markProcessing now = .ok j') :
    Proceeds j j' := by
  refine ⟨.single (.processing now h), fun hterminal => ?_⟩
  rw [(markProcessing_eq_ok h).2] at hterminal
  cases hterminal

end Job

end TimelineExport
