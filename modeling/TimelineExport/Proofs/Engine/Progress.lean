import Mathlib.Algebra.Order.Floor.Semiring
import Mathlib.Data.List.Chain
import Mathlib.Data.List.Intervals
import Mathlib.Data.Rat.Floor
import TimelineExport.Proofs.Engine.Process
import TimelineExport.Proofs.Number.Rational
import TimelineExport.Proofs.Server.Execution
import TimelineExport.Proofs.Timeline.Windows

/-!
# The progress that a run reports

Three layers lie between a line that the engine prints and the progress of a job. A line gives a
fraction between zero and one, or none (`exists_readProgress_eq_ok`); a run reports a fraction only
if it is a step above the last one; a job takes a share of it and counts whole percents
(`percentOf_rat`).

`EngineRun.Paced` is the invariant of a run: what it has reported are its start, fractions that lie
a step apart, and at most one more report at its end. It holds of every run, whatever the engine
prints (`EngineRun.exists_paced_run`). Values between zero and one that lie a hundredth apart are at
most a hundred and one (`length_le_of_spaced`), and what a job hears in this way never lowers its
progress nor lifts it above the share of the engine.
-/

namespace TimelineExport

/-! ### Fractions and percents -/

theorem reportStep_rat : (reportStep : Rat) = 1 / 100 := by
  unfold reportStep
  norm_num

/-- **A line gives a fraction between zero and one**, or none. -/
theorem exists_readProgress_eq_ok (durationMs : Rat) (line : String) :
    ∃ fraction? : Option Rat, readProgress durationMs line = .ok fraction? ∧
      ∀ x ∈ fraction?, 0 ≤ x ∧ x ≤ 1 := by
  unfold readProgress
  cases ProgressLine.ofText line with
  | other => exact ⟨none, rfl, nofun⟩
  | finished => exact ⟨some 1, rfl, by simp⟩
  | elapsed us =>
    dsimp only
    split
    · exact ⟨none, rfl, nofun⟩
    · refine ⟨_, rfl, ?_⟩
      rintro x ⟨⟩
      rw [Scalar.greatest_rat, Scalar.least_rat, Scalar.zero_rat, Scalar.ofNat_rat 1, Nat.cast_one]
      exact ⟨le_max_left _ _, max_le zero_le_one (min_le_left _ _)⟩

/-- The number of whole percents is the integer part, at most 99. -/
theorem percentOf_rat (x : Rat) : percentOf x = min 99 ⌊x⌋₊ := by
  have hreached : ∀ n : Nat, Scalar.ofInt (n + 1) ≤ x ↔ n < ⌊x⌋₊ := fun n => by
    rw [← Nat.add_one_le_iff, Nat.le_floor_iff' n.succ_ne_zero]
    change (((n + 1 : Int)) : Rat) ≤ x ↔ _
    push_cast
    rfl
  unfold percentOf
  rw [Scalar.ofNat_rat]
  split
  · simp only [hreached]
    rw [← List.Ico.zero_bot, List.Ico.filter_lt, List.Ico.length, Nat.sub_zero]
  · next hlarge =>
    exact (min_eq_left (Nat.le_floor (not_lt.mp hlarge))).symm

/-! ### Steps between reports -/

/-- Values that lie a hundredth apart get so far at least. -/
theorem le_getLast_of_spaced {x : Rat} {xs : List Rat}
    (hspaced : (x :: xs).IsChain (fun a b => a + 1 / 100 ≤ b)) :
    x + xs.length / 100 ≤ (x :: xs).getLast (List.cons_ne_nil x xs) := by
  induction xs generalizing x with
  | nil => simp
  | cons y ys ih =>
    obtain ⟨hstep, hrest⟩ := List.isChain_cons_cons.mp hspaced
    have hlast : y + ys.length / 100 ≤ _ := ih hrest
    rw [List.getLast_cons (List.cons_ne_nil y ys), List.length_cons]
    push_cast
    linarith

/-- **At most a hundred and one** values between zero and one lie a hundredth apart. -/
theorem length_le_of_spaced {xs : List Rat} (hspaced : xs.IsChain (fun a b => a + 1 / 100 ≤ b))
    (hunit : ∀ x ∈ xs, 0 ≤ x ∧ x ≤ 1) : xs.length ≤ 101 := by
  cases xs with
  | nil => exact Nat.zero_le 101
  | cons x xs =>
    have hfar := le_getLast_of_spaced hspaced
    have hfirst := (hunit x List.mem_cons_self).1
    have hlast := (hunit _ (List.getLast_mem (List.cons_ne_nil x xs))).2
    have hcount : (xs.length : Rat) ≤ 100 := by linarith
    exact Nat.succ_le_succ (by exact_mod_cast hcount)

/-! ### The reports of a run -/

namespace EngineRun

/-- **What a run has reported** that someone listens to: its start, then fractions while it reads
lines, and in the end one more report of `1` if its process has exited with code zero. -/
structure Paced (r : EngineRun Rat) (fractions closing : List Rat) : Prop where
  reports_eq : r.reports = .started :: (fractions ++ closing).map .progress
  mem_unit : ∀ x ∈ fractions, 0 ≤ x ∧ x ≤ 1
  spaced : fractions.IsChain (fun a b => a + 1 / 100 ≤ b)
  lastReported_eq : r.lastReported = fractions.getLast?.getD (-1)
  closing_eq : closing = [] ∨ closing = [1] ∧ r.process = .exited 0 ∧ r.reading = false
  /-- As long as a run has not ended, it has not reported its end. -/
  open_ended : r.result = none → closing = []
  returned : r.result = some (.ok ()) → closing = [1]

namespace Paced

variable {task : EngineTask Rat} {raises : EngineListener Rat} {r r' : EngineRun Rat}
  {fractions closing : List Rat}

/-- What changes neither the reports nor the last fraction keeps a run paced, unless it makes the
run return. -/
theorem congr (h : Paced r fractions closing) (hreports : r'.reports = r.reports)
    (hlast : r'.lastReported = r.lastReported)
    (hprocess : r.process = .exited 0 → r'.process = .exited 0)
    (hreading : r.reading = false → r'.reading = false)
    (hresult : r'.result = r.result ∨ ∃ fault, r'.result = some (.error fault)) :
    Paced r' fractions closing := by
  refine ⟨hreports.trans h.reports_eq, h.mem_unit, h.spaced, hlast.trans h.lastReported_eq,
    h.closing_eq.imp_right (And.imp_right (And.imp hprocess hreading)), fun hnone => ?_,
    fun hok => ?_⟩
  · obtain hsame | ⟨fault, hfault⟩ := hresult
    · exact h.open_ended (hsame.symm.trans hnone)
    · cases hfault.symm.trans hnone
  · obtain hsame | ⟨fault, hfault⟩ := hresult
    · exact h.returned (hsame.symm.trans hok)
    · cases hfault.symm.trans hok

/-- No report goes beyond the whole output. -/
theorem le_one (h : Paced r fractions closing) {x : Rat} (hx : .progress x ∈ r.reports) :
    x ≤ 1 := by
  have hmem : x ∈ fractions ++ closing := by simpa [h.reports_eq] using hx
  obtain hmem | hmem := List.mem_append.mp hmem
  · exact (h.mem_unit x hmem).2
  · obtain rfl | ⟨rfl, -⟩ := h.closing_eq
    · cases hmem
    · exact (List.mem_singleton.mp hmem).le

/-- A fault ends a run without a report. -/
theorem fail (h : Paced r fractions closing) (fault : EngineFault) :
    Paced (r.finish (.error fault)) fractions closing :=
  h.congr rfl rfl id id (.inr ⟨fault, rfl⟩)

theorem kill (h : Paced r fractions closing) : Paced r.kill fractions closing := by
  unfold EngineRun.kill
  split
  · next hrunning =>
    exact h.congr rfl rfl (fun hexited => by cases hrunning.symm.trans hexited) id (.inl rfl)
  · exact h

theorem interrupt (h : Paced r fractions closing) (raised : Raised) :
    Paced (r.interrupt task raised) fractions closing := by
  cases raised with
  | timeout => exact h.kill.fail _
  | cancelled => exact h.kill.fail _
  | other message => exact h.fail _

/-- A report is made, whatever is done if the listener raises. -/
theorem report (hlistener : task.listener = some raises)
    {ending : Raised → EngineRun Rat → EngineRun Rat} {entry : EngineReport Rat}
    (h : Paced { r with reports := r.reports ++ [entry] } fractions closing)
    (hending : ∀ raised r', Paced r' fractions closing →
      Paced (ending raised r') fractions closing) :
    Paced (r.report task ending entry) fractions closing := by
  unfold EngineRun.report
  rw [hlistener]
  dsimp only
  split
  · exact h
  · exact hending _ _ h

/-- A fraction that lies a step above the last one goes to the end of the fractions. -/
theorem snoc (h : Paced r fractions []) {x : Rat} (hunit : 0 ≤ x ∧ x ≤ 1)
    (hstep : r.lastReported + 1 / 100 ≤ x) (hresult : r.result = none) :
    Paced { r with lastReported := x, reports := r.reports ++ [.progress x] }
      (fractions ++ [x]) [] := by
  refine ⟨?_, ?_, ?_, ?_, .inl rfl, fun _ => rfl, fun hok => ?_⟩
  · rw [h.reports_eq]
    simp
  · exact List.forall_mem_append.mpr ⟨h.mem_unit, List.forall_mem_singleton.mpr hunit⟩
  · -- the new fraction follows the one that was reported last
    refine List.isChain_append.mpr ⟨h.spaced, List.isChain_singleton x, fun a ha b hb => ?_⟩
    obtain rfl : x = b := by simpa using hb
    rwa [h.lastReported_eq, Option.mem_def.mp ha] at hstep
  · simp
  · cases hresult.symm.trans hok

theorem readOutput (hlistener : task.listener = some raises) (h : Paced r fractions [])
    (hresult : r.result = none) (line : String) :
    ∃ fractions, Paced (r.readOutput task line) fractions [] := by
  obtain ⟨fraction?, hread, hunit⟩ := exists_readProgress_eq_ok task.durationMs (trimText line)
  unfold EngineRun.readOutput
  rw [hread]
  cases fraction? with
  | none => exact ⟨fractions, h⟩
  | some x =>
    dsimp only
    split
    · next hstep =>
      rw [reportStep_rat] at hstep
      exact ⟨fractions ++ [x], (h.snoc (hunit x rfl) hstep.2 hresult).report hlistener
        fun raised r' hr' => hr'.interrupt raised⟩
    · exact ⟨fractions, h⟩

theorem readDiagnostic (h : Paced r fractions closing) (line : String) :
    Paced (r.readDiagnostic line) fractions closing := by
  unfold EngineRun.readDiagnostic
  dsimp only
  split
  · exact h
  · exact h.congr rfl rfl id id (.inl rfl)

/-- The last report comes with the end of the run. -/
theorem close (h : Paced r fractions []) (hexited : r.process = .exited 0)
    (hreading : r.reading = false) (result : Except EngineFault Unit) :
    Paced { r with reports := r.reports ++ [.progress 1], result := some result }
      fractions [1] := by
  refine ⟨?_, h.mem_unit, h.spaced, h.lastReported_eq, .inr ⟨rfl, hexited, hreading⟩, nofun,
    fun _ => rfl⟩
  rw [h.reports_eq]
  simp

/-- A run makes its last report when its process has exited and its output has been looked at,
whether the listener raises then or not. -/
theorem conclude (hlistener : task.listener = some raises) (h : Paced r fractions closing) :
    ∃ closing, Paced (r.conclude task) fractions closing := by
  unfold EngineRun.conclude
  split
  · next code hreading hresult hexited =>
    split
    · exact ⟨closing, h.fail _⟩
    · next hcode =>
      split
      · exact ⟨closing, h.fail _⟩
      · obtain rfl := h.open_ended hresult
        obtain rfl : code = 0 := Decidable.not_not.mp hcode
        have hclosed := h.close hexited hreading
        refine ⟨[1], ?_⟩
        unfold EngineRun.report
        rw [hlistener]
        dsimp only
        split
        · rw [hresult]
          exact hclosed (.ok ())
        · next raised _ => exact hclosed (.error (.listener raised))
  · exact ⟨closing, h⟩

/-- An event but the exit of the process keeps a run paced that has not ended. -/
theorem step_of_not_ended (hlistener : task.listener = some raises) (h : Paced r fractions [])
    (hresult : r.result = none) {event : EngineEvent}
    (hevent : ∀ code size, event ≠ .exit code size) :
    ∃ fractions closing, Paced (r.step task event) fractions closing := by
  unfold EngineRun.step
  rw [hresult]
  cases event with
  | output line =>
    dsimp only
    split
    · obtain ⟨fractions, hread⟩ := h.readOutput hlistener hresult line
      exact ⟨fractions, [], hread⟩
    · exact ⟨fractions, [], h⟩
  | diagnostic line =>
    dsimp only
    split
    · exact ⟨fractions, [], h.readDiagnostic line⟩
    · exact ⟨fractions, [], h⟩
  | overrun message =>
    dsimp only
    split
    · exact ⟨fractions, [], h.fail _⟩
    · exact ⟨fractions, [], h⟩
  | streamsEnd =>
    have hread : Paced { r with reading := false, result := none } fractions [] :=
      h.congr rfl rfl id (fun _ => rfl) (.inl hresult.symm)
    exact ⟨fractions, hread.conclude hlistener⟩
  | exit code size => exact absurd rfl (hevent code size)
  | deadline =>
    dsimp only
    split
    · exact ⟨fractions, [], h.kill.fail _⟩
    · exact ⟨fractions, [], h⟩
  | cancel => exact ⟨fractions, [], h.kill.fail _⟩

/-- **One event** keeps a run paced. -/
theorem step (hlistener : task.listener = some raises) (h : Paced r fractions closing)
    (event : EngineEvent) : ∃ fractions closing, Paced (r.step task event) fractions closing := by
  by_cases hevent : ∀ code size, event ≠ .exit code size
  · cases hresult : r.result with
    | none =>
      obtain rfl := h.open_ended hresult
      exact h.step_of_not_ended hlistener hresult hevent
    | some result =>
      rw [step_of_ended hresult hevent]
      exact ⟨fractions, closing, h⟩
  · obtain ⟨code, size, rfl⟩ : ∃ code size, event = .exit code size := by
      simpa using hevent
    rw [step_exit]
    split
    · next hrunning =>
      have hexited : Paced { r with process := .exited code, outputBytes := size }
          fractions closing :=
        h.congr rfl rfl (fun hexit => by cases hrunning.symm.trans hexit) id (.inl rfl)
      exact ⟨fractions, hexited.conclude hlistener⟩
    · exact ⟨fractions, closing, h⟩

/-- A run that has been started has reported its start. -/
theorem start (hlistener : task.listener = some raises) : Paced (start task) [] [] := by
  have hnew : Paced { lastReported := -1, reports := [.started] } [] [] :=
    ⟨rfl, nofun, .nil, rfl, .inl rfl, fun _ => rfl, nofun⟩
  exact hnew.report hlistener fun raised r' hr' => hr'.fail _

end Paced

/-- **Every run is paced** that someone listens to. -/
theorem exists_paced_run {task : EngineTask Rat} {raises : EngineListener Rat}
    (hlistener : task.listener = some raises) (events : List EngineEvent) :
    ∃ fractions closing, Paced ((start task).run task events) fractions closing := by
  induction events using List.reverseRecOn with
  | nil => exact ⟨[], [], .start hlistener⟩
  | append_singleton events event ih =>
    obtain ⟨fractions, closing, hpaced⟩ := ih
    rw [EngineRun.run, List.foldl_append]
    exact hpaced.step hlistener event

end EngineRun

/-! ### What a job hears -/

namespace Execution

variable {α : Type} [Scalar α] {now : Instant}

/-- Reports may be heard in parts. -/
theorem hear_append (seen more : List (EngineReport α)) (job : Job α) :
    hear now (seen ++ more) job = hear now more (hear now seen job) :=
  List.foldl_append

/-- The start of a run leaves the progress alone. -/
theorem progress_hear_started (job : Job α) :
    (hear now [.started] job).progress = job.progress := by
  change ((job.markProcessing now).toOption.getD job).progress = _
  cases hmark : job.markProcessing now with
  | ok later => exact (Job.markProcessing_eq_ok hmark).2 ▸ rfl
  | error fault => rfl

theorem progress_hear_progress (x : α) (job : Job α) :
    (hear now [.progress x] job).progress =
      if job.isTerminal then job.progress else max job.progress (percentOf (x * engineShare)) := by
  change (job.updateProgress (x * engineShare) _).progress = _
  unfold Job.updateProgress
  split <;> rfl

/-- **Progress never falls** while a job hears of a run. -/
theorem progress_le_hear (reports : List (EngineReport α)) (job : Job α) :
    job.progress ≤ (hear now reports job).progress := by
  induction reports using List.reverseRecOn with
  | nil => exact le_rfl
  | append_singleton reports report ih =>
    rw [hear_append]
    refine ih.trans ?_
    cases report with
    | started => rw [progress_hear_started]
    | progress x =>
      rw [progress_hear_progress]
      split
      · exact le_rfl
      · exact le_max_left _ _

/-- A run lifts the progress of a job no further than the share of the engine. -/
theorem progress_hear_le {reports : List (EngineReport Rat)} {job : Job Rat}
    (hreports : ∀ x, .progress x ∈ reports → x ≤ 1) (hjob : job.progress ≤ 95) :
    (hear now reports job).progress ≤ 95 := by
  induction reports using List.reverseRecOn with
  | nil => exact hjob
  | append_singleton reports report ih =>
    have hseen := ih fun x hx => hreports x (List.mem_append_left _ hx)
    rw [hear_append]
    cases report with
    | started => rwa [progress_hear_started]
    | progress x =>
      have hx : x ≤ 1 := hreports x (List.mem_append_right _ (List.mem_singleton_self _))
      rw [progress_hear_progress]
      split
      · exact hseen
      · refine max_le hseen ?_
        have hshare : x * engineShare ≤ ((95 : Nat) : Rat) := by
          rw [engineShare, Scalar.ofNat_rat]
          push_cast
          linarith
        rw [percentOf_rat]
        exact (min_le_right _ _).trans (Nat.floor_le_of_le hshare)

end Execution

namespace EngineRun

/-- **The progress of a run.** Whatever happens to a run that someone listens to:

* while it reads lines it reports fractions between zero and one, each at least a hundredth above
  the one before, so at most a hundred and one of them;
* when it has read all lines and its process has exited with code zero it may make one more report,
  of `1`, and a run that returns has done so;
* whatever a job has heard of the run, hearing more does not lower its progress, and a job whose
  progress was no more than 95 percent stays there. -/
theorem reports_paced (task : EngineTask Rat) {raises : EngineListener Rat}
    (hlistener : task.listener = some raises) (events : List EngineEvent) :
    let r := (start task).run task events
    ∃ fractions closing : List Rat,
      r.reports = .started :: (fractions ++ closing).map .progress ∧
      ((∀ x ∈ fractions, 0 ≤ x ∧ x ≤ 1) ∧ fractions.IsChain (fun a b => a + 1 / 100 ≤ b) ∧
        fractions.length ≤ 101) ∧
      (closing = [] ∨ closing = [1] ∧ r.process = .exited 0 ∧ r.reading = false) ∧
      (r.result = some (.ok ()) → closing = [1]) ∧
      ∀ (now : Instant) (job : Job Rat) (seen more : List (EngineReport Rat)),
        seen ++ more <+: r.reports →
          (Execution.hear now seen job).progress ≤
              (Execution.hear now (seen ++ more) job).progress ∧
            (job.progress ≤ 95 → (Execution.hear now (seen ++ more) job).progress ≤ 95) := by
  intro r
  obtain ⟨fractions, closing, hpaced⟩ := exists_paced_run hlistener events
  refine ⟨fractions, closing, hpaced.reports_eq,
    ⟨hpaced.mem_unit, hpaced.spaced, length_le_of_spaced hpaced.spaced hpaced.mem_unit⟩,
    hpaced.closing_eq, hpaced.returned, fun now job seen more hheard => ⟨?_, fun hjob => ?_⟩⟩
  · rw [Execution.hear_append]
    exact Execution.progress_le_hear more _
  · exact Execution.progress_hear_le (fun x hx => hpaced.le_one (hheard.subset hx)) hjob

/-- A task of a second over the rationals that someone listens to. -/
def exactTask : EngineTask Rat :=
  { durationMs := 1000, outputPath := "out.mp4", timeoutS := 60, listener := some fun _ => none }

/-- Lines that come near to one another, go back, spell no time, or lie outside of the output. -/
def untidyEvents : List EngineEvent :=
  [.output "out_time_us=N/A", .output "out_time_us=250000", .output "out_time_us=255000",
    .output "out_time_us=-70000", .output "out_time_ms=9000000", .output "progress=end",
    .streamsEnd, .exit 0 (some 1)]

/-- Two of six untidy lines are reported, and then the end. -/
theorem reports_of_untidy_lines :
    let r := (start exactTask).run exactTask untidyEvents
    r.result = some (.ok ()) ∧
      (∃ fractions : List Rat, r.reports = .started :: (fractions ++ [1]).map .progress ∧
        fractions.length = 2 ∧ fractions.IsChain (fun a b => a + 1 / 100 ≤ b)) ∧
      ∀ job : Job Rat, job.progress ≤ 95 → (Execution.hear 0 r.reports job).progress ≤ 95 := by
  intro r
  have hreturned : r.result = some (.ok ()) := by decide +kernel
  have hlength : r.reports.length = 4 := by decide +kernel
  obtain ⟨fractions, closing, hreports, ⟨-, hspaced, -⟩, -, hclosing, hheard⟩ :=
    reports_paced exactTask rfl untidyEvents
  obtain rfl := hclosing hreturned
  refine ⟨hreturned, ⟨fractions, hreports, ?_, hspaced⟩, fun job hjob => ?_⟩
  · have hcount : (fractions ++ [1]).length + 1 = 4 := by
      rw [← hlength, hreports, List.length_cons, List.length_map]
    rw [List.length_append, List.length_singleton] at hcount
    omega
  · exact (hheard 0 job [] r.reports (List.prefix_refl _)).2 hjob

end EngineRun

end TimelineExport
