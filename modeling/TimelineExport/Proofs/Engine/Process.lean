import Mathlib.Control.Monad.Basic
import TimelineExport.Engine.Run

/-!
# The process of a run

A run that times out or is cancelled kills its process, and one that reads the streams to their ends
waits for it. Whatever else ends a run lets it go without a look at the process: a listener that
raises, except for a timeout or a cancellation while lines are read, a time that no number can hold,
and a line that is too long (`Escapes`). So the process of an ended run still runs exactly if one of
these has ended the run and the process has not exited by itself (`left_running_iff`). A run that
returns has seen its process exit with code zero and its output not empty.
-/

namespace TimelineExport

namespace EngineFault

/-- Whether a run that ends with a fault leaves its process as it is. -/
def leavesProcess : EngineFault → Bool
  | elapsedTooLarge | lineTooLong _ | listener _ => true
  | _ => false

end EngineFault

namespace EngineRun

variable {α : Type} [Scalar α] {task : EngineTask α} {events : List EngineEvent} {r : EngineRun α}

/-- **What escapes from a run** while its process may run: the listener raises at the start, or
anything but a timeout or a cancellation later on, or something printed cannot be read. -/
inductive Escapes (task : EngineTask α) (events : List EngineEvent) : EngineFault → Prop
  | atStart {raises : EngineListener α} {raised : Raised} (hlistener : task.listener = some raises)
      (hraised : raises [.started] = some raised) : Escapes task events (.listener raised)
  | atReport {raises : EngineListener α} {reports : List (EngineReport α)} {message : String}
      (hlistener : task.listener = some raises)
      (hraised : raises reports = some (.other message)) :
      Escapes task events (.listener (.other message))
  | elapsed {line : String} (hline : .output line ∈ events)
      (hread : readProgress task.durationMs (trimText line) = .error .elapsedTooLarge) :
      Escapes task events .elapsedTooLarge
  | overrun {message : String} (hline : .overrun message ∈ events) :
      Escapes task events (.lineTooLong message)

theorem Escapes.leavesProcess {fault : EngineFault} (h : Escapes task events fault) :
    fault.leavesProcess = true := by
  cases h <;> rfl

theorem Escapes.mono {fault : EngineFault} (h : Escapes task events fault)
    {more : List EngineEvent} (hsubset : events ⊆ more) : Escapes task more fault := by
  cases h with
  | atStart hlistener hraised => exact .atStart hlistener hraised
  | atReport hlistener hraised => exact .atReport hlistener hraised
  | elapsed hline hread => exact .elapsed (hsubset hline) hread
  | overrun hline => exact .overrun (hsubset hline)

theorem eq_elapsedTooLarge_of_readProgress {durationMs : α} {line : String} {fault : EngineFault}
    (h : readProgress durationMs line = .error fault) : fault = .elapsedTooLarge := by
  unfold readProgress at h
  split at h
  · cases h
  · cases h
  · split at h
    · cases h
    · split at h
      · exact (Except.error.inj h).symm
      · cases h

omit [Scalar α] in
theorem process_kill_ne_running (r : EngineRun α) : r.kill.process ≠ .running := by
  unfold kill
  split
  · nofun
  · next hne => exact hne

omit [Scalar α] in
theorem process_kill_eq_exited_iff {code : Int} :
    r.kill.process = .exited code ↔ r.process = .exited code := by
  unfold kill
  split
  · next hrunning => simp [hrunning]
  · rfl

omit [Scalar α] in
/-- A report at which nothing is done about the process changes the reports, and ends the run if the
listener raises. -/
theorem report_abandon (task : EngineTask α) (entry : EngineReport α) (r : EngineRun α) :
    ∃ reports, r.report task abandon entry = { r with reports } ∨
      ∃ raised, r.report task abandon entry =
        { r with reports, result := some (.error (.listener raised)) } := by
  unfold report
  split
  · exact ⟨r.reports, .inl rfl⟩
  · refine ⟨r.reports ++ [entry], ?_⟩
    dsimp only
    split
    · exact .inl rfl
    · next raised _ => exact .inr ⟨raised, rfl⟩

theorem step_exit (task : EngineTask α) (r : EngineRun α) (code : Int) (size : Option Nat) :
    r.step task (.exit code size) =
      if r.process = .running then
        conclude task { r with process := .exited code, outputBytes := size }
      else r := by
  unfold step
  cases r.result <;> rfl

/-- After its end a run takes notice of the exit of its process only. -/
theorem step_of_ended {result : Except EngineFault Unit} (hresult : r.result = some result)
    {event : EngineEvent} (hevent : ∀ code size, event ≠ .exit code size) :
    r.step task event = r := by
  unfold step
  rw [hresult]
  cases event with
  | exit code size => exact absurd rfl (hevent code size)
  | _ => rfl

/-- **What holds of a run** after some events. -/
structure Sound (task : EngineTask α) (events : List EngineEvent) (r : EngineRun α) : Prop where
  /-- The process has exited only if it was seen to. -/
  exited : ∀ code, r.process = .exited code → ∃ size, .exit code size ∈ events
  running : r.process = .running → ∀ code size, .exit code size ∉ events
  /-- As long as a run has not ended, its process is not killed. -/
  alive : r.result = none → r.process ≠ .killed
  /-- A run that has ended while its process runs has let something escape. -/
  left : ∀ result, r.result = some result → r.process = .running →
    ∃ fault, result = .error fault ∧ Escapes task events fault
  unharmed : ∀ fault, r.result = some (.error fault) → fault.leavesProcess = true →
    r.process ≠ .killed
  returned : r.result = some (.ok ()) →
    r.process = .exited 0 ∧ ∃ size, r.outputBytes = some size ∧ 0 < size

namespace Sound

/-- Only the process, the output and the result matter. -/
theorem congr {r' : EngineRun α} (h : Sound task events r) (hprocess : r'.process = r.process)
    (hbytes : r'.outputBytes = r.outputBytes) (hresult : r'.result = r.result) :
    Sound task events r' := by
  constructor <;> rw [hprocess]
  · exact h.exited
  · exact h.running
  · exact hresult ▸ h.alive
  · exact hresult ▸ h.left
  · exact hresult ▸ h.unharmed
  · rw [hresult, hbytes]
    exact h.returned

/-- An event may be passed over unless it is the exit of the running process. -/
theorem pass (h : Sound task events r) {event : EngineEvent}
    (hevent : ∀ code size, event = .exit code size → r.process ≠ .running) :
    Sound task (events ++ [event]) r := by
  have hsubset : events ⊆ events ++ [event] := List.subset_append_left _ _
  refine ⟨fun code hcode => ?_, fun hrunning code size hmem => ?_, h.alive,
    fun result hresult hrunning => ?_, h.unharmed, h.returned⟩
  · obtain ⟨size, hmem⟩ := h.exited code hcode
    exact ⟨size, hsubset hmem⟩
  · obtain hmem | hmem := List.mem_append.mp hmem
    · exact h.running hrunning code size hmem
    · exact hevent code size (List.mem_singleton.mp hmem).symm hrunning
  · obtain ⟨fault, hfault, hescapes⟩ := h.left result hresult hrunning
    exact ⟨fault, hfault, hescapes.mono hsubset⟩

/-- A fault that escapes ends the run and leaves the process alone. -/
theorem escape (h : Sound task events r) (hresult : r.result = none) {fault : EngineFault}
    (hescapes : Escapes task events fault) : Sound task events (r.finish (.error fault)) := by
  refine ⟨h.exited, h.running, nofun, ?_, fun _ _ _ => h.alive hresult, nofun⟩
  rintro _ ⟨⟩ -
  exact ⟨fault, rfl, hescapes⟩

/-- A fault that stops the process ends the run. -/
theorem stop (h : Sound task events r) {fault : EngineFault}
    (hfault : fault.leavesProcess = false) : Sound task events (r.kill.finish (.error fault)) := by
  have hstopped : r.kill.process ≠ .running := process_kill_ne_running r
  refine ⟨fun code hcode => h.exited code (process_kill_eq_exited_iff.mp hcode),
    fun hrunning => absurd hrunning hstopped, nofun,
    fun _ _ hrunning => absurd hrunning hstopped, ?_, nofun⟩
  rintro _ ⟨⟩ hleaves
  rw [hfault] at hleaves
  cases hleaves

/-- A report is heard, or the run ends as is done when a listener raises. -/
theorem report (h : Sound task events r) {ending : Raised → EngineRun α → EngineRun α}
    {entry : EngineReport α} (hending : ∀ raises, task.listener = some raises → ∀ raised,
      raises (r.reports ++ [entry]) = some raised → ∀ r', Sound task events r' →
        r'.result = r.result → Sound task events (ending raised r')) :
    Sound task events (r.report task ending entry) := by
  unfold EngineRun.report
  split
  · exact h
  · next raises hlistener =>
    have hheard : Sound task events { r with reports := r.reports ++ [entry] } :=
      h.congr rfl rfl rfl
    dsimp only
    split
    · exact hheard
    · next raised hraised => exact hending raises hlistener raised hraised _ hheard rfl

theorem interrupt (h : Sound task events r) (hresult : r.result = none)
    {raises : EngineListener α} (hlistener : task.listener = some raises) {raised : Raised}
    {reports : List (EngineReport α)} (hraised : raises reports = some raised) :
    Sound task events (r.interrupt task raised) := by
  cases raised with
  | timeout => exact h.stop rfl
  | cancelled => exact h.stop rfl
  | other message => exact h.escape hresult (.atReport hlistener hraised)

theorem readOutput (h : Sound task events r) (hresult : r.result = none) {line : String}
    (hline : .output line ∈ events) : Sound task events (r.readOutput task line) := by
  unfold EngineRun.readOutput
  split
  · next fault hread =>
    obtain rfl := eq_elapsedTooLarge_of_readProgress hread
    exact h.escape hresult (.elapsed hline hread)
  · exact h
  · next fraction hread =>
    split
    · have hreported : Sound task events { r with lastReported := fraction } :=
        h.congr rfl rfl rfl
      refine hreported.report fun raises hlistener raised hraised r' hr' hresult' => ?_
      exact hr'.interrupt (hresult'.trans hresult) hlistener hraised
    · exact h

theorem readDiagnostic (h : Sound task events r) (line : String) :
    Sound task events (r.readDiagnostic line) := by
  unfold EngineRun.readDiagnostic
  dsimp only
  split
  · exact h
  · exact h.congr rfl rfl rfl

/-- The process exits. -/
theorem exit (h : Sound task events r) (hrunning : r.process = .running) (code : Int)
    (size : Option Nat) : Sound task (events ++ [.exit code size])
      { r with process := .exited code, outputBytes := size } := by
  refine ⟨?_, nofun, nofun, fun _ _ => nofun, fun _ _ _ => nofun, fun hresult => ?_⟩
  · rintro _ ⟨⟩
    exact ⟨size, List.mem_append_right _ (List.mem_singleton_self _)⟩
  · -- a run that has returned has seen its process exit before
    have hexited := (h.returned hresult).1
    rw [hrunning] at hexited
    cases hexited

/-- A run that has ended while its process had exited is sound if its output was looked at. -/
theorem finish (h : Sound task events r) {code : Int} (hexited : r.process = .exited code)
    {result : Except EngineFault Unit}
    (hreturned : result = .ok () → code = 0 ∧ r.outputBytes.getD 0 ≠ 0) :
    Sound task events (r.finish result) := by
  refine ⟨h.exited, h.running, nofun, ?_, ?_, ?_⟩
  · intro _ _ hrunning
    have hrunning := hexited.symm.trans hrunning
    cases hrunning
  · intro _ _ _ hkilled
    have hkilled := hexited.symm.trans hkilled
    cases hkilled
  · intro hresult
    obtain ⟨rfl, hsize⟩ := hreturned (Option.some.inj hresult)
    refine ⟨hexited, ?_⟩
    cases hbytes : r.outputBytes with
    | none =>
      rw [hbytes] at hsize
      exact absurd rfl hsize
    | some size =>
      rw [hbytes] at hsize
      exact ⟨size, hbytes, Nat.pos_of_ne_zero hsize⟩

theorem conclude (h : Sound task events r) : Sound task events (r.conclude task) := by
  unfold EngineRun.conclude
  split
  · next code _ hresult hexited =>
    split
    · exact h.finish hexited nofun
    · next hcode =>
      split
      · exact h.finish hexited nofun
      · next hsize =>
        obtain ⟨reports, heq | ⟨raised, heq⟩⟩ := report_abandon task (.progress 1) r
        · have hreported : Sound task events { r with reports } := h.congr rfl rfl rfl
          rw [heq, hresult]
          exact hreported.finish hexited fun _ => ⟨Decidable.not_not.mp hcode, hsize⟩
        · have hreported : Sound task events { r with reports } := h.congr rfl rfl rfl
          rw [heq]
          exact hreported.finish hexited nofun
  · exact h

/-- An event but the exit of the process keeps a run sound that has not ended. -/
theorem step_of_not_ended (h : Sound task events r) (hresult : r.result = none)
    {event : EngineEvent} (hmem : event ∈ events) (hevent : ∀ code size, event ≠ .exit code size) :
    Sound task events (r.step task event) := by
  unfold EngineRun.step
  rw [hresult]
  cases event with
  | output line =>
    dsimp only
    split
    · exact h.readOutput hresult hmem
    · exact h
  | diagnostic line =>
    dsimp only
    split
    · exact h.readDiagnostic line
    · exact h
  | overrun message =>
    dsimp only
    split
    · exact h.escape hresult (.overrun hmem)
    · exact h
  | streamsEnd =>
    have hread : Sound task events { r with reading := false, result := none } :=
      h.congr rfl rfl hresult.symm
    exact hread.conclude
  | exit code size => exact absurd rfl (hevent code size)
  | deadline =>
    dsimp only
    split
    · exact h.stop rfl
    · exact h
  | cancel => exact h.stop rfl

/-- **One event** keeps a run sound. -/
theorem step (h : Sound task events r) (event : EngineEvent) :
    Sound task (events ++ [event]) (r.step task event) := by
  by_cases hevent : ∀ code size, event ≠ .exit code size
  · have hpassed := h.pass fun code size heq => absurd heq (hevent code size)
    cases hresult : r.result with
    | none =>
      have hmem : event ∈ events ++ [event] :=
        List.mem_append_right _ (List.mem_singleton_self _)
      exact hpassed.step_of_not_ended hresult hmem hevent
    | some result =>
      rw [step_of_ended hresult hevent]
      exact hpassed
  · obtain ⟨code, size, rfl⟩ : ∃ code size, event = .exit code size := by
      simpa using hevent
    rw [step_exit]
    split
    · next hrunning => exact (h.exit hrunning code size).conclude
    · next hstopped => exact h.pass fun _ _ _ => hstopped

/-- A run that has been started is sound. -/
theorem start (task : EngineTask α) : Sound task [] (start task) := by
  have hnew : Sound task [] ({ lastReported := -1 } : EngineRun α) :=
    ⟨nofun, fun _ _ _ => List.not_mem_nil, fun _ => nofun, nofun, nofun, nofun⟩
  exact hnew.report fun raises hlistener raised hraised r' hr' hresult =>
    hr'.escape hresult (.atStart hlistener hraised)

/-- **A run stays sound** through all events. -/
theorem run (h : Sound task events r) (more : List EngineEvent) :
    Sound task (events ++ more) (r.run task more) := by
  induction more generalizing events r with
  | nil =>
    rw [List.append_nil]
    exact h
  | cons event more ih =>
    have hrest := ih (h.step event)
    rwa [List.append_assoc, List.singleton_append] at hrest

end Sound

/-- **The process of an ended run still runs** exactly if something escaped from the run, and the
process has not exited by itself. A run returns only if its process has exited with code zero and
its output is not empty. -/
theorem left_running_iff (task : EngineTask α) (events : List EngineEvent)
    {result : Except EngineFault Unit}
    (hended : ((start task).run task events).result = some result) :
    (((start task).run task events).process = .running ↔
        (∃ fault, result = .error fault ∧ Escapes task events fault) ∧
          ∀ code size, .exit code size ∉ events) ∧
      (result = .ok () → ((start task).run task events).process = .exited 0 ∧
        ∃ size, ((start task).run task events).outputBytes = some size ∧ 0 < size) := by
  have hsound := (Sound.start task).run events
  rw [List.nil_append] at hsound
  generalize (start task).run task events = r at hended hsound
  refine ⟨⟨fun hrunning => ⟨hsound.left result hended hrunning, hsound.running hrunning⟩, ?_⟩, ?_⟩
  · rintro ⟨⟨fault, rfl, hescapes⟩, hexit⟩
    cases hprocess : r.process with
    | running => rfl
    | exited code =>
      obtain ⟨size, hmem⟩ := hsound.exited code hprocess
      exact absurd hmem (hexit code size)
    | killed => exact absurd hprocess (hsound.unharmed fault hended hescapes.leavesProcess)
  · rintro rfl
    exact hsound.returned hended

/-- A task of a second that someone listens to. -/
def secondTask : EngineTask Float :=
  { durationMs := 1000, outputPath := "out.mp4", timeoutS := 60, listener := some fun _ => none }

/-- A run that times out halfway leaves no process. -/
theorem timed_out_run_left_nothing :
    ((start secondTask).run secondTask
      [.output "out_time_us=500000", .deadline]).process ≠ .running := by
  have hended : ((start secondTask).run secondTask
      [.output "out_time_us=500000", .deadline]).result = some (.error (.timedOut 60 "")) := by
    decide +kernel
  rw [ne_eq, (left_running_iff secondTask _ hended).1]
  rintro ⟨⟨fault, hfault, hescapes⟩, -⟩
  obtain rfl := Except.error.inj hfault
  cases hescapes

/-- A line that spells a time after its key reports that time. -/
theorem ofText_eq_elapsed {cs value : List Char} {microseconds : Int}
    (hkey : "out_time_us=".toList.isPrefixOf? (trimBoth cs) = some value)
    (hshort : value.countP isDecimalDigit ≤ maxDigits)
    (hvalue : Numeral.int? (Numeral.foldDigits (trimWhile isSpace value)) = some microseconds) :
    ProgressLine.ofText (trimText (String.ofList cs)) = .elapsed microseconds := by
  have hread : Numeral.readInt? (String.ofList value) = some microseconds := by
    rw [Numeral.readInt?, String.toList_ofList, hvalue]
  have helapsed : ProgressLine.ofElapsed value = .elapsed microseconds := by
    rw [ProgressLine.ofElapsed, if_neg (Nat.not_lt.mpr hshort), hread]
  unfold ProgressLine.ofText trimText
  simp only [String.toList_ofList, hkey, Option.some_or, helapsed]

/-- A time that no number can hold cannot be read. -/
theorem readProgress_eq_error {durationMs : α} {line : String} {microseconds : Int}
    (htime : ProgressLine.ofText line = .elapsed microseconds) (hlasts : ¬ durationMs ≤ 0)
    (hlarge : (Scalar.thousandths microseconds : Option α) = none) :
    readProgress durationMs line = .error .elapsedTooLarge := by
  unfold readProgress
  simp only [htime, hlasts, hlarge, if_false]

/-- A line that cannot be read ends a run that reads, and its process goes on. -/
theorem run_of_unreadable_line {line : String} (hresult : r.result = none) (hreading : r.reading)
    (hread : readProgress task.durationMs (trimText line) = .error .elapsedTooLarge) :
    r.run task [.output line] = r.finish (.error .elapsedTooLarge) := by
  have hline : r.readOutput task line = r.finish (.error .elapsedTooLarge) := by
    unfold readOutput
    rw [hread]
  change r.step task (.output line) = _
  unfold step
  rw [hresult]
  dsimp only
  rw [if_pos hreading, hline]

/-- A time of four hundred digits, under its key. -/
def tooLargeTime : List Char := "out_time_us=".toList ++ List.replicate 400 '9'

/-- **A time of four hundred digits ends a run** while its process goes on. -/
theorem run_of_too_large_time_left_running :
    ((start secondTask).run secondTask [.output (String.ofList tooLargeTime)]).result =
        some (.error .elapsedTooLarge) ∧
      ((start secondTask).run secondTask [.output (String.ofList tooLargeTime)]).process =
        .running := by
  have hkey : "out_time_us=".toList.isPrefixOf? (trimBoth tooLargeTime) =
      some (List.replicate 400 '9') := by decide +kernel
  have htime : ProgressLine.ofText (trimText (String.ofList tooLargeTime)) =
      .elapsed (10 ^ 400 - 1) := ofText_eq_elapsed hkey (by decide +kernel) (by decide +kernel)
  have hlarge : (Scalar.thousandths (10 ^ 400 - 1) : Option Float) = none :=
    Option.isNone_iff_eq_none.mp (by decide +kernel)
  rw [run_of_unreadable_line rfl rfl (readProgress_eq_error htime (by decide +kernel) hlarge)]
  exact ⟨rfl, rfl⟩

end EngineRun

end TimelineExport
