import TimelineExport.Proofs.Engine.Process
import TimelineExport.Proofs.Files.Tree
import TimelineExport.Proofs.Server.Execution

/-!
# What exports leave behind

An export is over when it has no work directory any more, the process of its engine does not run,
and no worker thread is left (`Execution.IsOver`). `Execution.StepsTo` says what a step makes of
these three: the export goes on, or it ends and its directory is removed, or it lets the engine's
run go on first.

The process still runs after the end in two cases only: the run ended because something that the
engine printed cannot be read (`Execution.LosesEngine`), or the export broke off while it waited
for the engine, for another reason than those for which the engine is killed
(`Execution.DropsEngine`).
-/

namespace TimelineExport

/-- Whether an engine's run ended because something it printed cannot be read. -/
def EngineFault.isUnreadable : EngineFault → Bool
  | elapsedTooLarge | lineTooLong _ => true
  | _ => false

/-- Whether the process of the engine may run at a stage. -/
def ExportStage.mayHaveEngine : ExportStage → Bool
  | rendering .. | ended _ => true
  | _ => false

theorem ExportStage.hasEnded_eq_true_iff {stage : ExportStage} :
    stage.hasEnded = true ↔ ∃ outcome, stage = .ended outcome := by
  cases stage <;> simp [hasEnded]

namespace Execution

variable {settings : ServiceSettings} {now : Instant} {h : Host} {e : Execution}
  {task : EngineTask Float} {run : EngineRun Float} {script : EngineScript}

/-- **Nothing of an export goes on.** -/
structure IsOver (e : Execution) : Prop where
  directory : e.stage.ownsDirectory = false
  engine : e.engine ≠ some .running
  thread : e.strayThread = false

/-- An export has ended, and the process of its engine runs. -/
def HasStrayEngine (e : Execution) : Prop :=
  e.stage.hasEnded = true ∧ e.engine = some .running

/-- **The engine's run after the next step** of an export, if the step lets it go on. -/
inductive Feeds (settings : ServiceSettings) (h : Host) (e : Execution) :
    EngineTask Float → EngineRun Float → EngineScript → Prop
  | atOnce {elements : List (Element Float)} {audioSources : List (String × Bool)}
      {overlay : Option OverlaySequence} {program : Program Float}
      (hstage : e.stage = .compiling elements audioSources overlay)
      (hprogram : compilation settings elements audioSources overlay e = .ok program)
      (hfound : (EngineScript.next h.engines).1.missing = false) :
      Feeds settings h e (engineTask settings program e)
        ((EngineRun.start (engineTask settings program e)).run (engineTask settings program e)
          (openingEvents settings (EngineScript.next h.engines).1))
        (EngineScript.next h.engines).1
  | later {task : EngineTask Float} {run : EngineRun Float} {script : EngineScript}
      (hstage : e.stage = .rendering task run script)
      (hgoes : (script.blocks && !h.released) = false) :
      Feeds settings h e task (run.run task script.closing) script

/-- **A step that loses the engine**: the run ends because something that the engine printed cannot
be read, and its process runs. -/
def LosesEngine (settings : ServiceSettings) (h : Host) (e : Execution) : Prop :=
  ∃ task run script fault, Feeds settings h e task run script ∧
    run.result = some (.error fault) ∧ fault.isUnreadable = true ∧ run.process = .running

/-- **An end that drops the engine**: the export waits for it while its process runs, and breaks
off with a failure for which it is not killed. -/
def DropsEngine (outcome : ExportOutcome) (e : Execution) : Prop :=
  (∃ task run script, e.stage = .rendering task run script ∧ run.process = .running) ∧
    outcome.stopsEngine = false ∧ ∃ failure, outcome = .failed failure

/-- A run of the engine that reports to an export, which raises nothing. -/
def Reports (task : EngineTask Float) (run : EngineRun Float) : Prop :=
  (∃ raises, task.listener = some raises ∧ ∀ reports, raises reports = none) ∧
    ∃ printed, EngineRun.Sound task printed run

/-- **The process of the engine is known** to the export that waits for it, and there is none that
runs at another stage before the end. -/
structure Tends (e : Execution) : Prop where
  rendering : ∀ task run script, e.stage = .rendering task run script →
    e.engine = some run.process ∧ run.result = none ∧ Reports task run
  elsewhere : e.stage.mayHaveEngine = false → e.engine ≠ some .running

/-- **What a step makes of an export** and what it needs. -/
inductive StepsTo (settings : ServiceSettings) (h : Host) (e : Execution) : Host × Execution → Prop
  | still (hbegun : e.stage ≠ .ready) : StepsTo settings h e (h, e)
  /-- No work directory can be made. -/
  | unstarted {outcome : ExportOutcome} (hstage : e.stage = .ready) :
    StepsTo settings h e (h, { e with stage := .ended outcome })
  | onward {h' : Host} {later : Execution} (hidle : e.stage.mayHaveEngine = false)
    (howns : later.stage.ownsDirectory = true) (hquiet : later.stage.mayHaveEngine = false)
    (hengine : later.engine = e.engine) (hthread : later.strayThread = e.strayThread) :
    StepsTo settings h e (h', later)
  | finished {h' : Host} {later : Execution} (outcome : ExportOutcome)
    (hidle : e.stage.mayHaveEngine = false) (hengine : later.engine = e.engine)
    (hthread : later.strayThread = e.strayThread) :
    StepsTo settings h e (finish settings outcome h' later)
  | fed {h' : Host} {later : Execution} {task : EngineTask Float} {run : EngineRun Float}
    {script : EngineScript} (hfeeds : Feeds settings h e task run script)
    (hengine : later.engine = some run.process) (hthread : later.strayThread = e.strayThread) :
    StepsTo settings h e (afterEngine settings task run script h' later)

/-- A step that lets the engine's run go on looks at what has become of it. -/
theorem Feeds.step_eq (hfeeds : Feeds settings h e task run script) (now : Instant) :
    ∃ h' later, e.step settings now h = afterEngine settings task run script h' later ∧
      later.engine = some run.process ∧ later.strayThread = e.strayThread := by
  cases hfeeds with
  | atOnce hstage hprogram hfound =>
    simp only [step, hstage, compileAndStart, hprogram, hfound]
    exact ⟨_, _, rfl, rfl, rfl⟩
  | later hstage hgoes =>
    simp only [step, hstage, awaitEngine, hgoes]
    exact ⟨_, _, rfl, rfl, rfl⟩

/-! ### Each stage -/

theorem stepsTo_begin (hstage : e.stage = .ready) : StepsTo settings h e (begin settings h e) := by
  unfold begin
  split
  · exact .unstarted hstage
  · exact .onward (hstage ▸ rfl) rfl rfl rfl rfl

theorem stepsTo_resolve (hstage : e.stage = .resolving) :
    StepsTo settings h e (resolve settings h e) := by
  have hidle : e.stage.mayHaveEngine = false := hstage ▸ rfl
  unfold resolve
  dsimp only
  split
  · exact .finished _ hidle rfl rfl
  · exact .finished _ hidle rfl rfl
  · split
    · exact .finished _ hidle rfl rfl
    · exact .onward hidle rfl rfl rfl rfl

theorem stepsTo_draw {timeline : ResolvedTimeline Float} (hstage : e.stage = .drawing timeline) :
    StepsTo settings h e (draw settings timeline h e) := by
  have hidle : e.stage.mayHaveEngine = false := hstage ▸ rfl
  unfold draw
  dsimp only
  split
  · exact .onward hidle rfl rfl rfl rfl
  · split
    · exact .finished _ hidle rfl rfl
    · split
      · exact .finished _ hidle rfl rfl
      · exact .onward hidle rfl rfl rfl rfl
    · exact .onward hidle rfl rfl rfl rfl

/-- The engine is started unless there is nothing to start. -/
theorem stepsTo_compiling {elements : List (Element Float)} {audioSources : List (String × Bool)}
    {overlay : Option OverlaySequence}
    (hstage : e.stage = .compiling elements audioSources overlay) :
    StepsTo settings h e (e.step settings now h) := by
  have hidle : e.stage.mayHaveEngine = false := hstage ▸ rfl
  cases hprogram : compilation settings elements audioSources overlay e with
  | error fault =>
    simp only [step, hstage, compileAndStart, hprogram]
    exact .finished _ hidle rfl rfl
  | ok program =>
    cases hfound : (EngineScript.next h.engines).1.missing with
    | true =>
      simp only [step, hstage, compileAndStart, hprogram, hfound]
      exact .finished _ hidle rfl rfl
    | false =>
      have hfeeds : Feeds settings h e _ _ _ := .atOnce hstage hprogram hfound
      obtain ⟨h', later, heq, hengine, hthread⟩ := hfeeds.step_eq now
      exact heq ▸ .fed hfeeds hengine hthread

theorem stepsTo_rendering (hstage : e.stage = .rendering task run script) :
    StepsTo settings h e (e.step settings now h) := by
  cases hgoes : (script.blocks && !h.released) with
  | true =>
    simp only [step, hstage, awaitEngine, hgoes]
    exact .still (hstage ▸ nofun)
  | false =>
    have hfeeds : Feeds settings h e _ _ _ := .later hstage hgoes
    obtain ⟨h', later, heq, hengine, hthread⟩ := hfeeds.step_eq now
    exact heq ▸ .fed hfeeds hengine hthread

theorem stepsTo_check (hstage : e.stage = .checking) :
    StepsTo settings h e (check settings h e) := by
  have hidle : e.stage.mayHaveEngine = false := hstage ▸ rfl
  unfold check
  dsimp only
  split
  · exact .onward hidle rfl rfl rfl rfl
  · exact .onward hidle rfl rfl rfl rfl
  · exact .finished _ hidle rfl rfl

theorem stepsTo_store (hstage : e.stage = .storing) :
    StepsTo settings h e (store settings now h e) := by
  have hidle : e.stage.mayHaveEngine = false := hstage ▸ rfl
  unfold store
  dsimp only
  split
  · exact .finished _ hidle rfl rfl
  · split
    · exact .finished _ hidle rfl rfl
    · split
      · exact .finished _ hidle rfl rfl
      · split
        · exact .finished _ hidle rfl rfl
        · exact .finished _ hidle rfl rfl

/-- **One step of an export.** -/
theorem stepsTo_step (settings : ServiceSettings) (now : Instant) (h : Host) (e : Execution) :
    StepsTo settings h e (e.step settings now h) := by
  cases hstage : e.stage with
  | ready => simpa only [step, hstage] using stepsTo_begin hstage
  | resolving => simpa only [step, hstage] using stepsTo_resolve hstage
  | drawing timeline => simpa only [step, hstage] using stepsTo_draw hstage
  | compiling elements audioSources overlay => exact stepsTo_compiling hstage
  | rendering task run script => exact stepsTo_rendering hstage
  | checking => simpa only [step, hstage] using stepsTo_check hstage
  | storing => simpa only [step, hstage] using stepsTo_store hstage
  | stopping =>
    simp only [step, hstage]
    exact .finished _ (hstage ▸ rfl) rfl rfl
  | ended outcome =>
    simp only [step, hstage]
    exact .still (hstage ▸ nofun)

theorem stage_afterEngine_ne_ready (settings : ServiceSettings) (task : EngineTask Float)
    (run : EngineRun Float) (script : EngineScript) (h : Host) (e : Execution) :
    (afterEngine settings task run script h e).2.stage ≠ .ready := by
  unfold afterEngine
  split
  · nofun
  · nofun
  · dsimp only
    split <;> nofun

/-- An export that takes a step has begun. -/
theorem stage_step_ne_ready (settings : ServiceSettings) (now : Instant) (h : Host)
    (e : Execution) : (e.step settings now h).2.stage ≠ .ready := by
  have hstep := stepsTo_step settings now h e
  generalize e.step settings now h = r at hstep
  cases hstep with
  | still hbegun => exact hbegun
  | unstarted => nofun
  | onward _ howns =>
    intro hready
    rw [hready] at howns
    cases howns
  | finished => nofun
  | fed => exact stage_afterEngine_ne_ready _ _ _ _ _ _

/-! ### Threads and directories -/

theorem strayThread_afterEngine (settings : ServiceSettings) (task : EngineTask Float)
    (run : EngineRun Float) (script : EngineScript) (h : Host) (e : Execution) :
    (afterEngine settings task run script h e).2.strayThread = e.strayThread := by
  unfold afterEngine
  split <;> rfl

/-- No step of an export leaves a worker thread to itself. -/
theorem strayThread_step (settings : ServiceSettings) (now : Instant) (h : Host) (e : Execution) :
    (e.step settings now h).2.strayThread = e.strayThread := by
  have hstep := stepsTo_step settings now h e
  generalize e.step settings now h = r at hstep
  cases hstep with
  | still => rfl
  | unstarted => rfl
  | onward _ _ _ _ hthread => exact hthread
  | finished _ _ _ hthread => exact hthread
  | fed _ _ hthread => exact (strayThread_afterEngine _ _ _ _ _ _).trans hthread

theorem strayThread_breakOff (settings : ServiceSettings) (outcome : ExportOutcome) (h : Host)
    (e : Execution) : (e.breakOff settings outcome h).2.strayThread = e.strayThread := by
  obtain heq | ⟨-, engine, heq⟩ := e.breakOff_eq settings outcome h <;> rw [heq]

/-- Cancelling an export leaves the thread that is at work to itself. -/
theorem strayThread_cancel (h : Host) (e : Execution) :
    (e.cancel h).2.strayThread = (e.strayThread || e.stage.usesThread) := by
  unfold cancel
  split
  · next hstage => simp [hstage, ExportStage.usesThread]
  · next hstage => simp [hstage, ExportStage.usesThread]
  · obtain ⟨engine, heq⟩ := e.killEngine_eq h
    dsimp only
    rw [heq]

/-- What is left of the work directory of an export: the export has it still, or there is
nothing. -/
def Tidies (settings : ServiceSettings) (r : Host × Execution) : Prop :=
  r.2.stage.ownsDirectory = true ∨
    r.1.files.IsBare (resolvePath r.1.cwd (directory settings r.2.job.id))

theorem tidies_finish (settings : ServiceSettings) (outcome : ExportOutcome) (h : Host)
    (e : Execution) : Tidies settings (finish settings outcome h e) :=
  .inr (h.files.isBare_eraseAll _)

theorem tidies_afterEngine (settings : ServiceSettings) (task : EngineTask Float)
    (run : EngineRun Float) (script : EngineScript) (h : Host) (e : Execution) :
    Tidies settings (afterEngine settings task run script h e) := by
  unfold afterEngine
  split
  · exact .inl rfl
  · exact tidies_finish _ _ _ _
  · refine .inl ?_
    dsimp only
    split <;> rfl

/-- **A step that ends an export removes its work directory.** -/
theorem tidies_step (now : Instant) (h : Host) (howns : e.stage.ownsDirectory = true) :
    Tidies settings (e.step settings now h) := by
  have hstep := stepsTo_step settings now h e
  generalize e.step settings now h = r at hstep
  cases hstep with
  | still => exact .inl howns
  | unstarted hstage =>
    rw [hstage] at howns
    cases howns
  | onward _ hlater => exact .inl hlater
  | finished outcome => exact tidies_finish _ _ _ _
  | fed => exact tidies_afterEngine _ _ _ _ _ _

theorem tidies_breakOff (outcome : ExportOutcome) (h : Host)
    (howns : e.stage.ownsDirectory = true) : Tidies settings (e.breakOff settings outcome h) := by
  unfold breakOff
  split
  · exact .inl howns
  · rw [if_pos howns]
    exact tidies_finish _ _ _ _

theorem stage_cancel_ne_ready (h : Host) (e : Execution) : (e.cancel h).2.stage ≠ .ready := by
  unfold cancel
  split
  · nofun
  · next hstage =>
    rw [hstage]
    nofun
  · nofun

theorem ownsDirectory_cancel (h : Host) (e : Execution) :
    (e.cancel h).2.stage.ownsDirectory = e.stage.ownsDirectory := by
  unfold cancel
  split
  · next hstage => rw [hstage]; rfl
  · rfl
  · next hready hended =>
    cases hstage : e.stage with
    | ready => exact absurd hstage hready
    | ended outcome => exact absurd hstage (hended outcome)
    | _ => rfl

/-! ### Engines -/

/-- Whatever an engine prints, a run that reports to an export and ends while the process runs
could not read it. -/
theorem Reports.isUnreadable (hreports : Reports task run) {result : Except EngineFault Unit}
    (hresult : run.result = some result) (hrunning : run.process = .running) :
    ∃ fault, result = .error fault ∧ fault.isUnreadable = true := by
  obtain ⟨⟨raises, hlistener, hsilent⟩, printed, hsound⟩ := hreports
  obtain ⟨fault, rfl, hescapes⟩ := hsound.left result hresult hrunning
  refine ⟨fault, rfl, ?_⟩
  cases hescapes with
  | atStart hlistener' hraised =>
    obtain rfl := Option.some.inj (hlistener.symm.trans hlistener')
    cases (hsilent _).symm.trans hraised
  | atReport hlistener' hraised =>
    obtain rfl := Option.some.inj (hlistener.symm.trans hlistener')
    cases (hsilent _).symm.trans hraised
  | elapsed => rfl
  | overrun => rfl

theorem Reports.after (hreports : Reports task run) (events : List EngineEvent) :
    Reports task (run.run task events) := by
  obtain ⟨hlistener, printed, hsound⟩ := hreports
  exact ⟨hlistener, printed ++ events, hsound.run events⟩

theorem Feeds.reports (hfeeds : Feeds settings h e task run script) (he : e.Tends) :
    Reports task run := by
  cases hfeeds with
  | atOnce => exact .after ⟨⟨_, rfl, fun _ => rfl⟩, [], .start _⟩ _
  | later hstage => exact (he.rendering _ _ _ hstage).2.2.after _

/-- An export at a stage at which no engine runs. -/
theorem Tends.of_quiet (hquiet : e.stage.mayHaveEngine = false)
    (hengine : e.engine ≠ some .running) : e.Tends where
  rendering task run script hstage := by
    rw [hstage] at hquiet
    cases hquiet
  elsewhere _ := hengine

theorem Tends.of_ended {outcome : ExportOutcome} (hstage : e.stage = .ended outcome) :
    e.Tends where
  rendering task run script hrendering := by cases hstage.symm.trans hrendering
  elsewhere hquiet := by
    rw [hstage] at hquiet
    cases hquiet

/-- After a look at the engine's run its process is known, and if the export has ended while it
runs, something could not be read. -/
theorem tends_afterEngine (hfeeds : Feeds settings h e task run script) (he : e.Tends) (h' : Host)
    {later : Execution} (hengine : later.engine = some run.process) :
    (afterEngine settings task run script h' later).2.Tends ∧
      ((afterEngine settings task run script h' later).2.HasStrayEngine →
        e.LosesEngine settings h) := by
  have hreports := hfeeds.reports he
  have hlost : ∀ fault, run.result = some (.error fault) → later.engine = some .running →
      e.LosesEngine settings h := fun fault hresult hrunning => by
    have hprocess := Option.some.inj (hengine.symm.trans hrunning)
    obtain ⟨_, ⟨⟩, hunreadable⟩ := hreports.isUnreadable hresult hprocess
    exact ⟨task, run, script, fault, hfeeds, hresult, hunreadable, hprocess⟩
  unfold afterEngine
  split
  · next hresult =>
    refine ⟨⟨?_, nofun⟩, fun hstray => nomatch hstray.1⟩
    rintro _ _ _ ⟨⟩
    exact ⟨hengine, hresult, hreports⟩
  · next fault hresult => exact ⟨.of_ended rfl, fun hstray => hlost fault hresult hstray.2⟩
  · next hresult =>
    obtain ⟨printed, hsound⟩ := hreports.2
    have hexited : later.engine ≠ some .running := by
      rw [hengine, (hsound.returned hresult).1]
      nofun
    dsimp only
    split
    · exact ⟨.of_quiet rfl hexited, fun hstray => nomatch hstray.1⟩
    · exact ⟨.of_quiet rfl hexited, fun hstray => nomatch hstray.1⟩

/-- **One step** leaves the process of the engine known, and loses it only by what cannot be
read. -/
theorem tends_step (he : e.Tends) (now : Instant) (h : Host) :
    (e.step settings now h).2.Tends ∧
      ((e.step settings now h).2.HasStrayEngine → e.HasStrayEngine ∨ e.LosesEngine settings h) := by
  have hstep := stepsTo_step settings now h e
  generalize e.step settings now h = r at hstep
  cases hstep with
  | still => exact ⟨he, .inl⟩
  | unstarted hstage =>
    exact ⟨.of_ended rfl, fun hstray => absurd hstray.2 (he.elsewhere (hstage ▸ rfl))⟩
  | onward hidle _ hquiet hengine =>
    have hnone := he.elsewhere hidle
    exact ⟨.of_quiet hquiet (hengine ▸ hnone), fun hstray => absurd (hengine ▸ hstray.2) hnone⟩
  | finished _ hidle hengine =>
    exact ⟨.of_ended rfl, fun hstray => absurd (hengine ▸ hstray.2) (he.elsewhere hidle)⟩
  | fed hfeeds hengine =>
    exact (tends_afterEngine hfeeds he _ hengine).imp_right fun hlost hstray => .inr (hlost hstray)

theorem LosesEngine.stage_ne_ready (hloses : e.LosesEngine settings h) : e.stage ≠ .ready := by
  obtain ⟨task, run, script, fault, hfeeds, -⟩ := hloses
  cases hfeeds with
  | atOnce hstage => exact hstage ▸ nofun
  | later hstage => exact hstage ▸ nofun

/-- A step that loses the engine ends the export while the process runs. -/
theorem LosesEngine.hasStrayEngine (hloses : e.LosesEngine settings h) (now : Instant) :
    (e.step settings now h).2.HasStrayEngine := by
  obtain ⟨task, run, script, fault, hfeeds, hresult, -, hrunning⟩ := hloses
  obtain ⟨h', later, heq, hengine, -⟩ := hfeeds.step_eq now
  rw [heq, afterEngine, hresult]
  exact ⟨rfl, hengine.trans (congrArg some hrunning)⟩

/-- Before the end of an export, a process that runs is the one that the export waits for. -/
theorem Tends.exists_rendering (he : e.Tends) (hopen : e.stage.hasEnded = false)
    (hrunning : e.engine = some .running) :
    ∃ task run script, e.stage = .rendering task run script ∧ run.process = .running := by
  cases hstage : e.stage with
  | rendering task run script =>
    have hengine := (he.rendering task run script hstage).1
    exact ⟨task, run, script, rfl, Option.some.inj (hengine.symm.trans hrunning)⟩
  | ended outcome =>
    rw [hstage] at hopen
    cases hopen
  | _ => exact absurd hrunning (he.elsewhere (hstage ▸ rfl))

/-- An export whose engine is killed has none that runs. -/
theorem Tends.engine_killEngine (he : e.Tends) (hopen : e.stage.hasEnded = false) (h : Host) :
    (e.killEngine h).2.engine ≠ some .running := by
  unfold killEngine
  split
  · next run _ _ =>
    exact fun hrunning => EngineRun.process_kill_ne_running run (Option.some.inj hrunning)
  · next hother =>
    intro hrunning
    obtain ⟨task, run, script, hstage, -⟩ := he.exists_rendering hopen hrunning
    exact hother task run script hstage

theorem hasEnded_of_ownsDirectory {stage : ExportStage} (howns : stage.ownsDirectory = true) :
    stage.hasEnded = false := by
  cases stage with
  | ended outcome => cases howns
  | _ => rfl

/-- An export that has no work directory and whose engine runs has ended. -/
theorem Tends.hasStrayEngine (he : e.Tends) (hnone : e.stage.ownsDirectory = false)
    (hrunning : e.engine = some .running) : e.HasStrayEngine := by
  refine ⟨?_, hrunning⟩
  cases hstage : e.stage with
  | ready => exact absurd hrunning (he.elsewhere (hstage ▸ rfl))
  | ended outcome => rfl
  | _ =>
    rw [hstage] at hnone
    cases hnone

/-- An export that breaks off leaves the process of the engine known, and drops it only if it waits
for it and does not kill it. -/
theorem tends_breakOff (he : e.Tends) (settings : ServiceSettings) (outcome : ExportOutcome)
    (h : Host) :
    (e.breakOff settings outcome h).2.Tends ∧
      ((e.breakOff settings outcome h).2.HasStrayEngine →
        e.HasStrayEngine ∨ e.DropsEngine outcome) := by
  unfold breakOff
  split
  · exact ⟨he, .inl⟩
  · next hne =>
    cases howns : e.stage.ownsDirectory with
    | false =>
      rw [if_neg Bool.false_ne_true]
      exact ⟨.of_ended rfl, fun hstray => .inl (he.hasStrayEngine howns hstray.2)⟩
    | true =>
      have hopen := hasEnded_of_ownsDirectory howns
      rw [if_pos rfl]
      refine ⟨.of_ended rfl, fun hstray => ?_⟩
      have hrunning := hstray.2
      cases hstops : outcome.stopsEngine with
      | true =>
        rw [hstops] at hrunning
        exact absurd hrunning (he.engine_killEngine hopen h)
      | false =>
        rw [hstops] at hrunning
        refine .inr ⟨he.exists_rendering hopen hrunning, hstops, ?_⟩
        cases outcome with
        | completed => exact absurd rfl hne
        | failed failure => exact ⟨failure, rfl⟩
        | cancelled => cases hstops

/-- A process that an export has left to itself goes on, whatever happens to the export. -/
theorem HasStrayEngine.step (he : e.HasStrayEngine) (settings : ServiceSettings) (now : Instant)
    (h : Host) : (e.step settings now h).2.HasStrayEngine := by
  obtain ⟨outcome, hstage⟩ := ExportStage.hasEnded_eq_true_iff.mp he.1
  simp only [Execution.step, hstage]
  exact he

theorem HasStrayEngine.breakOff (he : e.HasStrayEngine) (settings : ServiceSettings)
    (outcome : ExportOutcome) (h : Host) : (e.breakOff settings outcome h).2.HasStrayEngine := by
  obtain ⟨ending, hstage⟩ := ExportStage.hasEnded_eq_true_iff.mp he.1
  unfold Execution.breakOff
  split
  · exact he
  · rw [hstage]
    exact ⟨rfl, he.2⟩

theorem HasStrayEngine.cancel (he : e.HasStrayEngine) (h : Host) :
    (e.cancel h).2.HasStrayEngine := by
  obtain ⟨outcome, hstage⟩ := ExportStage.hasEnded_eq_true_iff.mp he.1
  simp only [Execution.cancel, hstage]
  exact he

theorem DropsEngine.hasStrayEngine {outcome : ExportOutcome} (hdrops : e.DropsEngine outcome)
    (he : e.Tends) (settings : ServiceSettings) (h : Host) :
    (e.breakOff settings outcome h).2.HasStrayEngine := by
  obtain ⟨⟨task, run, script, hstage, hrunning⟩, hstops, failure, rfl⟩ := hdrops
  have hengine := (he.rendering task run script hstage).1
  simp only [breakOff, hstage, hstops, ExportStage.ownsDirectory, if_pos]
  exact ⟨rfl, hengine.trans (congrArg some hrunning)⟩

/-- Cancelling an export kills its engine. -/
theorem tends_cancel (he : e.Tends) (h : Host) :
    (e.cancel h).2.Tends ∧ ((e.cancel h).2.HasStrayEngine → e.HasStrayEngine) := by
  unfold cancel
  split
  · next hstage =>
    exact ⟨.of_ended rfl, fun hstray => absurd hstray.2 (he.elsewhere (hstage ▸ rfl))⟩
  · exact ⟨he, id⟩
  · next hready hended =>
    have hopen : e.stage.hasEnded = false := by
      cases hstage : e.stage with
      | ended outcome => exact absurd hstage (hended outcome)
      | _ => rfl
    exact ⟨.of_quiet rfl (he.engine_killEngine hopen h), fun hstray => nomatch hstray.1⟩

end Execution

end TimelineExport
