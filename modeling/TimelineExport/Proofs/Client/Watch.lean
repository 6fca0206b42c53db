import Mathlib.Data.List.Destutter
import Mathlib.Data.List.Sort
import TimelineExport.Job.View
import TimelineExport.Proofs.Client.Poll
import TimelineExport.Proofs.Job.Record

/-!
# What a poller sees of a job

A job goes on while a poller looks at it. A `Watch` says what is asked of the job before each look,
and which looks fail, so every interleaving of the two is one. The jobs that are seen are then
moments of one job, later ones after earlier ones (`Watch.pairwise_seen`), and what a poller reports
are their differences. What rises along a job therefore rises along the reports as well:
`poll_follows_job`.
-/

namespace TimelineExport

/-- What is left of values that rise when repetitions are left out rises strictly. -/
theorem pairwise_lt_destutter {β : Type} [PartialOrder β] [DecidableEq β] {l : List β}
    (h : l.Pairwise (· ≤ ·)) : (l.destutter (· ≠ ·)).Pairwise (· < ·) := by
  have hle := (h.sublist (l.destutter_sublist (· ≠ ·))).isChain
  have hne := l.isChain_destutter (· ≠ ·)
  rw [List.isChain_iff_getElem] at hle hne
  exact (List.isChain_iff_getElem.mpr fun k hk => lt_of_le_of_ne (hle k hk) (hne k hk)).pairwise

/-! ### The order of the statuses -/

namespace JobStatus

/-- One status is before another if a job may come from it to the other. -/
instance : PartialOrder JobStatus where
  le s t := s = t ∨ s.allows t = true ∨ s = .queued ∧ t = .completed
  le_refl _ := .inl rfl
  le_trans s t u := by cases s <;> cases t <;> cases u <;> decide
  le_antisymm s t := by cases s <;> cases t <;> decide

instance : DecidableLE JobStatus := fun s t =>
  inferInstanceAs (Decidable (s = t ∨ s.allows t = true ∨ s = .queued ∧ t = .completed))

instance : DecidableLT JobStatus := decidableLTOfDecidableLE

theorem le_of_allows {s t : JobStatus} (h : s.allows t = true) : s ≤ t :=
  .inr (.inl h)

/-- Statuses that follow one another are among those of a job that is completed, or of one that
fails, in their order. -/
theorem sublist_of_pairwise_lt {l : List JobStatus} (h : l.Pairwise (· < ·))
    (hne : .downloading ∉ l) :
    l.Sublist [.queued, .processing, .completed] ∨ l.Sublist [.queued, .processing, .failed] := by
  have hsublist (last : JobStatus) (hlast : last = .completed ∨ last = .failed)
      (hsubset : l ⊆ [.queued, .processing, last]) : l.Sublist [.queued, .processing, last] := by
    have hpath : [.queued, .processing, last].Pairwise (· < · : JobStatus → JobStatus → Prop) := by
      obtain rfl | rfl := hlast <;> decide
    exact List.sublist_of_subperm_of_pairwise (List.subperm_of_subset h.nodup hsubset) h hpath
  by_cases hfailed : .failed ∈ l
  · -- a job that fails is never completed
    have hcompleted : .completed ∉ l := fun hcompleted => by
      let comparable (s t : JobStatus) : Prop := s < t ∨ t < s
      have : Std.Symm comparable := ⟨fun _ _ => Or.symm⟩
      have hcomparable : l.Pairwise comparable := h.imp Or.inl
      exact absurd (hcomparable.forall hcompleted hfailed nofun) (by decide)
    refine .inr (hsublist .failed (.inr rfl) fun s hs => ?_)
    cases s with
    | queued => decide
    | processing => decide
    | failed => decide
    | completed => exact absurd hs hcompleted
    | downloading => exact absurd hs hne
  · refine .inl (hsublist .completed (.inl rfl) fun s hs => ?_)
    cases s with
    | queued => decide
    | processing => decide
    | completed => decide
    | failed => exact absurd hs hfailed
    | downloading => exact absurd hs hne

end JobStatus

namespace Job

variable {α : Type} {j later : Job α}

/-! ### What is reported of a job -/

/-- What is reported of a job that is seen after another one: what differs. -/
def changes (last : Option (Job α)) (j : Job α) : List PollReport :=
  (if last.map (·.status) = some j.status then [] else [.status (.text j.status.name)]) ++
    if last.map (·.progress) = some j.progress then [] else [.progress j.progress]

/-- What is reported of jobs that are seen one after another. -/
def reports : (last : Option (Job α)) → List (Job α) → List PollReport
  | _, [] => []
  | last, j :: jobs => j.changes last ++ reports (some j) jobs

/-- What is reported of one value of a job are the values without repetitions. -/
theorem filterMap_reports {β γ : Type} [DecidableEq β] {read : PollReport → Option γ}
    {value : Job α → β} {write : β → γ}
    (hread : ∀ last (j : Job α), (j.changes last).filterMap read =
      if last.map value = some (value j) then [] else [write (value j)])
    (jobs : List (Job α)) :
    (reports none jobs).filterMap read = ((jobs.map value).destutter (· ≠ ·)).map write := by
  -- the value that was reported last is that of the job that was seen last, whether or not it was
  -- reported for that job
  have hafter (j : Job α) (jobs : List (Job α)) :
      write (value j) :: (reports (some j) jobs).filterMap read =
        ((jobs.map value).destutter' (· ≠ ·) (value j)).map write := by
    induction jobs generalizing j with
    | nil => rfl
    | cons next jobs ih =>
      rw [reports, List.filterMap_append, hread, List.map_cons, List.destutter'_cons]
      by_cases hsame : value j = value next
      · simp [hsame, ih]
      · simp [hsame, ih]
  cases jobs with
  | nil => rfl
  | cons j jobs =>
    rw [reports, List.filterMap_append, hread, List.map_cons, List.destutter_cons', ← hafter]
    rfl

end Job

namespace PollReport

/-- The status that a report tells. -/
def status? : PollReport → Option Json
  | .status name => some name
  | .progress _ => none

/-- The progress that a report tells. -/
def progress? : PollReport → Option Int
  | .status _ => none
  | .progress n => some n

end PollReport

namespace Job

variable {α : Type}

theorem statuses_reports (jobs : List (Job α)) :
    (reports none jobs).filterMap PollReport.status? =
      ((jobs.map (·.status)).destutter (· ≠ ·)).map fun s => .text s.name :=
  filterMap_reports (fun last j => by simp only [changes]; split <;> split <;> rfl) jobs

theorem progress_reports (jobs : List (Job α)) :
    (reports none jobs).filterMap PollReport.progress? =
      ((jobs.map (·.progress)).destutter (· ≠ ·)).map fun n : Nat => (n : Int) :=
  filterMap_reports (fun last j => by simp only [changes]; split <;> split <;> rfl) jobs

/-- A status moves forward, along whatever changes. -/
theorem Reaches.status_le [Scalar α] {j later : Job α} (h : Reaches j later) :
    j.status ≤ later.status := by
  induction h with
  | refl => exact le_rfl
  | tail _ hchange ih =>
    obtain hsame | hallows := hchange.status
    · exact hsame ▸ ih
    · exact ih.trans (JobStatus.le_of_allows hallows)

/-! ### What a look at a job brings -/

/-- The snapshot of a job. -/
def snapshot (time : Instant → Json) (j : Job Float) : JobSnapshot :=
  { status := .text j.status.name, progress := j.progress, source := j.toJson time }

theorem read_toJson (time : Instant → Json) (j : Job Float) :
    JobSnapshot.read (j.toJson time) = .ok (j.snapshot time) :=
  JobSnapshot.read_eq_ok rfl rfl

/-- The names of two statuses are the same status only if the statuses are. -/
theorem sameStatus_name (s t : JobStatus) :
    sameStatus (.text s.name) (.text t.name) = decide (t = s) := by
  cases s <;> cases t <;> decide

theorem changes_snapshot (time : Instant → Json) (last : Option (Job Float)) (j : Job Float) :
    (j.snapshot time).changes (last.map (snapshot time)) = j.changes last := by
  cases last with
  | none => rfl
  | some last =>
    simp only [JobSnapshot.changes, changes, snapshot, Option.map_some, Option.getD_some,
      sameStatus_name, Option.some.injEq, Int.natCast_inj, Bool.not_eq_true',
      decide_eq_false_iff_not, ite_not]

theorem reportsOf_map_snapshot (time : Instant → Json) (last : Option (Job Float))
    (jobs : List (Job Float)) :
    reportsOf (last.map (snapshot time)) (jobs.map (snapshot time)) = reports last jobs := by
  induction jobs generalizing last with
  | nil => rfl
  | cons j jobs ih =>
    rw [List.map_cons, reportsOf, reports, changes_snapshot]
    exact congrArg _ (ih (some j))

/-- A job that is seen ends a poll as completed only if it is completed, and gives its URL. -/
theorem completed_of_verdict {time : Instant → Json} {j : Job Float} {id : String} {url : Json}
    (h : verdict id (.ok (j.toJson time)) = .ok (some (.completed url))) :
    j.status = .completed ∧ url = .ofOption .text j.downloadUrl := by
  have hending : (j.snapshot time).ending? = .ok (some (.completed url)) := by
    rw [verdict, read_toJson] at h
    exact mapError_eq_ok.mp h
  cases hstatus : j.status <;> rw [JobSnapshot.ending?, snapshot, hstatus] at hending
  · cases hending
  · cases hending
  · cases hending
    exact ⟨rfl, rfl⟩
  · cases hending
  · cases hending

end Job

/-- A look that fails does not end a poll as completed. -/
theorem verdict_error_ne {id : String} {fault : ClientFault} {url : Json} :
    verdict id (.error fault) ≠ .ok (some (.completed url)) := by
  intro h
  cases fault with
  | status code =>
    rw [verdict] at h
    split at h
    · cases h
    · split at h <;> cases h
  | fetch fault => cases fault <;> cases h
  | notJson => cases h
  | shape fault => cases h
  | files fault => cases h

/-! ### A job that is watched -/

/-- What happens while a poller looks at a job. -/
structure Watch where
  /-- What is asked of the job before a look, and after the look before it. -/
  calls : Nat → List (Job.Call Float)
  /-- Why a look fails, if it does. -/
  fault? : Nat → Option ClientFault
  stopsInFetch : Nat → Bool
  stopsInWait : Nat → Bool

namespace Watch

variable (w : Watch) (j : Job Float) (time : Instant → Json)

/-- The job at a look. -/
def jobAt (k : Nat) : Job Float :=
  j.after ((List.range (k + 1)).flatMap w.calls)

/-- The job as a look brings it, if it does not fail. -/
def seen? (k : Nat) : Option (Job Float) :=
  match w.fault? k with
  | some _ => none
  | none => some (w.jobAt j k)

/-- The job as the first so many looks bring it. -/
def seen (looks : Nat) : List (Job Float) :=
  (List.range looks).filterMap (w.seen? j)

/-- The rounds of a poller that looks at the job. -/
def round (k : Nat) : PollRound where
  fetched :=
    match w.fault? k with
    | some fault => .error fault
    | none => .ok ((w.jobAt j k).toJson time)
  stopsInFetch := w.stopsInFetch k
  stopsInWait := w.stopsInWait k

theorem snapshot?_round (k : Nat) :
    snapshot? (w.round j time k).fetched = (w.seen? j k).map (Job.snapshot time) := by
  unfold round seen?
  cases w.fault? k with
  | some fault => rfl
  | none =>
    simp only [snapshot?, Except.toOption, Option.bind_some, Job.read_toJson, Option.map_some]

theorem snapshots_round (looks : Nat) :
    snapshots (w.round j time) looks = (w.seen j looks).map (Job.snapshot time) := by
  rw [snapshots, seen, List.map_filterMap]
  exact List.filterMap_congr fun k _ => w.snapshot?_round j time k

theorem reaches_jobAt {k l : Nat} (h : k ≤ l) : Job.Reaches (w.jobAt j k) (w.jobAt j l) := by
  induction l, h using Nat.le_induction with
  | base => exact .refl
  | succ l _ ih =>
    have hnext : w.jobAt j (l + 1) = (w.jobAt j l).after (w.calls (l + 1)) := by
      rw [jobAt, List.range_succ, List.flatMap_append, Job.after_append, List.flatMap_singleton]
      rfl
    rw [hnext]
    exact ih.trans (Job.reaches_after _ _)

/-- A job that a look brings is the job at that look. -/
theorem seen?_eq_some {k : Nat} {seen : Job Float} (h : w.seen? j k = some seen) :
    seen = w.jobAt j k := by
  unfold seen? at h
  split at h
  · cases h
  · exact (Option.some.inj h).symm

/-- **Jobs that are seen one after another are moments of one job.** -/
theorem pairwise_seen (looks : Nat) : (w.seen j looks).Pairwise Job.Reaches := by
  rw [seen, List.pairwise_filterMap]
  refine List.pairwise_lt_range.imp fun {k l} hlt earlier hearlier later hlater => ?_
  rw [w.seen?_eq_some j hearlier, w.seen?_eq_some j hlater]
  exact w.reaches_jobAt j hlt.le

/-- What is seen is the job after some calls. -/
theorem reaches_of_mem_seen {looks : Nat} {seen : Job Float} (h : seen ∈ w.seen j looks) :
    Job.Reaches j seen := by
  obtain ⟨k, -, hk⟩ := List.mem_filterMap.mp h
  rw [w.seen?_eq_some j hk]
  exact Job.reaches_after _ _

/-- A look that ends a poll as completed brings a completed job. -/
theorem completed_of_verdict {id : String} {k : Nat} {url : Json}
    (h : verdict id (w.round j time k).fetched = .ok (some (.completed url))) :
    (w.jobAt j k).status = .completed ∧ url = .ofOption .text (w.jobAt j k).downloadUrl := by
  unfold round at h
  cases hfault : w.fault? k with
  | none =>
    simp only [hfault] at h
    exact Job.completed_of_verdict h
  | some fault =>
    simp only [hfault] at h
    exact absurd h verdict_error_ne

/-- A poll that ends as completed saw the completed job in its last look. -/
theorem completed_of_success {id : String} {stopped : Bool} {limit : Int}
    {result : Except ClientFault PollResult} {looks waits : Nat}
    (h : PollEnds id stopped (w.round j time) limit result looks waits) {r : PollResult}
    (hr : result = .ok r) (hsuccess : r.isSuccess = true) :
    ∃ k, looks = k + 1 ∧ (w.jobAt j k).status = .completed ∧
      r.ending = .completed (.ofOption .text (w.jobAt j k).downloadUrl) := by
  cases h with
  | unlooked =>
    cases hr
    cases stopped <;> cases hsuccess
  | stopped =>
    cases hr
    cases hsuccess
  | failed => cases hr
  | gaveUp =>
    cases hr
    cases hstopped : (w.round j time waits).stopsInFetch <;>
      rw [hstopped] at hsuccess <;> cases hsuccess
  | @ended _ ending _ hverdict =>
    cases hr
    cases ending with
    | completed url =>
      obtain ⟨hstatus, rfl⟩ := w.completed_of_verdict j time hverdict
      exact ⟨waits, rfl, hstatus, rfl⟩
    | failed => cases hsuccess
    | unknownJob => cases hsuccess
    | timedOut => cases hsuccess
    | stopped => cases hsuccess

/-! ### What is reported of it -/

section
variable {j} (hj : j.Coherent) (looks : Nat)
include hj

theorem pairwise_reported_progress :
    ((Job.reports none (w.seen j looks)).filterMap PollReport.progress?).Pairwise (· < ·) := by
  have hrises : ((w.seen j looks).map (·.progress)).Pairwise (· ≤ ·) := by
    rw [List.pairwise_map]
    exact (w.pairwise_seen j looks).imp_of_mem fun hseen _ hlater =>
      hlater.progress_le (hj.reaches (w.reaches_of_mem_seen j hseen))
  rw [Job.progress_reports, List.pairwise_map]
  exact (pairwise_lt_destutter hrises).imp fun hlt => Int.ofNat_lt.mpr hlt

theorem reported_progress_le {n : Int}
    (hn : n ∈ (Job.reports none (w.seen j looks)).filterMap PollReport.progress?) :
    0 ≤ n ∧ n ≤ 100 := by
  rw [Job.progress_reports] at hn
  obtain ⟨percent, hpercent, rfl⟩ := List.mem_map.mp hn
  obtain ⟨seen, hseen, rfl⟩ := List.mem_map.mp ((List.destutter_sublist _ _).subset hpercent)
  have hle : seen.progress ≤ 100 := (hj.reaches (w.reaches_of_mem_seen j hseen)).progress_le
  omega

omit hj in
theorem reported_statuses_sublist (hne : j.status ≠ .downloading) :
    ∃ statuses : List JobStatus,
      (Job.reports none (w.seen j looks)).filterMap PollReport.status? =
        statuses.map (fun s => .text s.name) ∧
      (statuses.Sublist [.queued, .processing, .completed] ∨
        statuses.Sublist [.queued, .processing, .failed]) := by
  have hrises : ((w.seen j looks).map (·.status)).Pairwise (· ≤ ·) := by
    rw [List.pairwise_map]
    exact (w.pairwise_seen j looks).imp Job.Reaches.status_le
  refine ⟨_, Job.statuses_reports _, ?_⟩
  refine JobStatus.sublist_of_pairwise_lt (pairwise_lt_destutter hrises) fun hdownloading => ?_
  obtain ⟨seen, hseen, hstatus⟩ :=
    List.mem_map.mp ((List.destutter_sublist _ _).subset hdownloading)
  exact (w.reaches_of_mem_seen j hseen).status_ne_downloading hne hstatus

/-- A job that is completed at a look has a URL, and keeps it. -/
theorem exists_downloadUrl {k : Nat} (hstatus : (w.jobAt j k).status = .completed) :
    ∃ url, url ≠ "" ∧ ∀ l, k ≤ l → (w.jobAt j l).downloadUrl = some url := by
  have hlast : (w.jobAt j k).Coherent := hj.reaches (Job.reaches_after _ _)
  obtain ⟨url, hurl⟩ := Option.isSome_iff_exists.mp (hlast.isSome_downloadUrl_iff.mpr hstatus)
  refine ⟨url, hlast.downloadUrl_ne url hurl, fun l hl => ?_⟩
  rw [(w.reaches_jobAt j hl).ended (by rw [Job.isTerminal, hstatus]; rfl)]
  exact hurl

end

end Watch

/-- **A poller follows its job.** Whatever is asked of a new job while a poller looks at it, and
whichever looks fail:

* a look that brings the job is reported as what differs from the job that was seen before it;
* the progress that is reported rises, and is never above 100;
* the statuses that are reported differ, and stand in the order of those of a job that is completed
  or fails;
* a poll that is a success gives the URL of the job, which is not empty and stays as it is. -/
theorem poll_follows_job {α : Type} [Scalar α] (p : PollPolicy α) (pollId : String)
    (stopped : Bool) (w : Watch) (time : Instant → Json) (id : String) (settings : ExportSettings)
    (durationMs : Float) (createdAt : Instant) :
    let fresh : Job Float := { id, settings, durationMs, createdAt }
    let outcome := poll p pollId stopped (w.round fresh time)
    let reports := outcome.2.reports
    reports = Job.reports none (w.seen fresh outcome.2.polls) ∧
      (reports.filterMap PollReport.progress?).Pairwise (· < ·) ∧
      (∀ n ∈ reports.filterMap PollReport.progress?, 0 ≤ n ∧ n ≤ 100) ∧
      (∃ statuses : List JobStatus,
        reports.filterMap PollReport.status? = statuses.map (fun s => .text s.name) ∧
          (statuses.Sublist [.queued, .processing, .completed] ∨
            statuses.Sublist [.queued, .processing, .failed])) ∧
      ∀ r, outcome.1 = .ok r → r.isSuccess = true → ∃ url, url ≠ "" ∧
        r.ending = .completed (.text url) ∧
        ∀ k, outcome.2.polls ≤ k + 1 → (w.jobAt fresh k).downloadUrl = some url := by
  intro fresh outcome reports
  have hfresh : fresh.Coherent := .of_active rfl (Nat.succ_pos 99) ⟨rfl, rfl, rfl⟩ rfl
  obtain ⟨hends, hnoted⟩ := pollEnds_poll p pollId stopped (w.round fresh time)
  have hreports : reports = Job.reports none (w.seen fresh outcome.2.polls) := by
    rw [← Job.reportsOf_map_snapshot time, ← w.snapshots_round]
    exact hnoted.reports
  rw [hreports]
  refine ⟨rfl, w.pairwise_reported_progress hfresh _, fun n => w.reported_progress_le hfresh _,
    w.reported_statuses_sublist _ nofun, fun r hr hsuccess => ?_⟩
  obtain ⟨k, hlooks, hstatus, hending⟩ := w.completed_of_success fresh time hends hr hsuccess
  obtain ⟨url, hne, hurl⟩ := w.exists_downloadUrl hfresh hstatus
  have hlast : outcome.2.polls = k + 1 := hlooks
  refine ⟨url, hne, ?_, fun l hl => hurl l (by omega)⟩
  rw [hending, hurl k le_rfl]
  rfl

/-- A job that is worked on while a look fails, and then completed, is followed to its URL. -/
theorem poll_follows_completed_job :
    let fresh : Job Float := { id := "job-1", durationMs := 8000, createdAt := 0 }
    let policy : PollPolicy Rat :=
      { shortWait := 2, mediumWait := 5, longWait := 20, jitter := 0, spread := fun _ => 0 }
    let w : Watch :=
      { calls := fun k => ([[], [.markProcessing 1, .updateProgress 120 (some "encoding")],
          [.markProcessing 2, .markCompleted 2 ""],
          [.markCompleted 3 "/job-1.mp4", .markFailed 4 "late" "timeout"]][k]?).getD []
        fault? := fun k => if k = 1 then some (.status 503) else none
        stopsInFetch := fun _ => false
        stopsInWait := fun _ => false }
    let outcome := poll policy "job-1" false (w.round fresh fun now => .int now)
    (∃ r, outcome.1 = .ok r ∧ r.ending = .completed (.text "/job-1.mp4")) ∧
      outcome.2.reports.filterMap PollReport.progress? = [0, 99, 100] := by
  intro fresh policy w outcome
  have hlooks : outcome.2.polls ≤ 3 + 1 := by decide +kernel
  have hurl : (w.jobAt fresh 3).downloadUrl = some "/job-1.mp4" := by decide +kernel
  have hsuccess : outcome.1.toOption.any (·.isSuccess) = true := by decide +kernel
  obtain ⟨-, -, -, -, hcompleted⟩ := poll_follows_job policy "job-1" false w
    (fun now => .int now) "job-1" {} 8000 0
  refine ⟨?_, by decide +kernel⟩
  cases hr : outcome.1 with
  | error fault =>
    rw [hr] at hsuccess
    cases hsuccess
  | ok r =>
    rw [hr] at hsuccess
    obtain ⟨url, -, hending, hkept⟩ := hcompleted r hr hsuccess
    have hsame : some url = some "/job-1.mp4" := (hkept 3 hlooks).symm.trans hurl
    exact ⟨r, rfl, Option.some.inj hsame ▸ hending⟩

end TimelineExport
