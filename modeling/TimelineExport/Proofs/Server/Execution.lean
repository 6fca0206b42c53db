import TimelineExport.Proofs.Job.Change
import TimelineExport.Server.Stage

/-!
# What exports do to their jobs

An export passes milestones on its way: its sources are resolved and elements are left, the overlay
is drawn or given up, the engine starts and returns, the result is stored and has a URL.
`Execution.Passes` says that an export passes one at its next step, and `ExportStage.passed` which
ones lie before a stage.

However a step goes, whatever the host answers, it leads on along the milestones, or to an end
(`Execution.leads_step`). The job is changed only through its operations, and only an export that
passes the last milestone ends it: by completing it.
-/

namespace TimelineExport

/-- What an export passes on its way to its result. -/
inductive Milestone where
  | resolved
  | drawn
  | started
  | returned
  | stored (url : String)

/-- All milestones of an export whose result is at a URL, in their order. -/
def Milestone.upTo (url : String) : List Milestone :=
  [.resolved, .drawn, .started, .returned, .stored url]

/-- The milestones that lie before a stage. An export that stops or has ended does not tell. -/
def ExportStage.passed : ExportStage → List Milestone
  | ready | resolving | stopping | ended _ => []
  | drawing _ => [.resolved]
  | compiling .. => [.resolved, .drawn]
  | rendering .. => [.resolved, .drawn, .started]
  | checking | storing => [.resolved, .drawn, .started, .returned]

theorem EngineFault.outcome_ne_completed (fault : EngineFault) : fault.outcome ≠ .completed := by
  cases fault with
  | listener raised => cases raised <;> nofun
  | _ => nofun

namespace Execution

open Job (Reaches Proceeds)

/-- Whether the engine's run ends well at the next step of an export: as soon as it is started, or
after the export has waited for it. -/
inductive Returns (settings : ServiceSettings) (h : Host) (e : Execution) : Prop
  | atOnce {elements : List (Element Float)} {audioSources : List (String × Bool)}
      {overlay : Option OverlaySequence} {program : Program Float}
      (hstage : e.stage = .compiling elements audioSources overlay)
      (hprogram : compilation settings elements audioSources overlay e = .ok program)
      (hresult : ((EngineRun.start (engineTask settings program e)).run
        (engineTask settings program e)
        (openingEvents settings (EngineScript.next h.engines).1)).result = some (.ok ()))
  | later {task : EngineTask Float} {run : EngineRun Float} {script : EngineScript}
      (hstage : e.stage = .rendering task run script)
      (hresult : (run.run task script.closing).result = some (.ok ()))

/-- **Passing a milestone** at the next step. -/
def Passes (settings : ServiceSettings) (h : Host) (e : Execution) : Milestone → Prop
  | .resolved =>
    e.stage = .resolving ∧ ∃ timeline leases,
      (resolution settings h e).1 = .ok (timeline, leases) ∧ timeline.elements ≠ []
  | .drawn =>
    ∃ timeline, e.stage = .drawing timeline ∧
      (drawnElements timeline = [] ∨
        (∃ overlay, (overlayPass settings timeline h e).result = .ok overlay) ∨
        settings.overlayFailurePolicy = .degrade ∧
          ∃ error, (overlayPass settings timeline h e).result = .error (.overlay error))
  | .started =>
    ∃ elements audioSources overlay program,
      e.stage = .compiling elements audioSources overlay ∧
      compilation settings elements audioSources overlay e = .ok program ∧
      (EngineScript.next h.engines).1.missing = false
  | .returned => Returns settings h e
  | .stored url =>
    e.stage = .storing ∧ url ≠ "" ∧ ∃ stored signed,
      h.store (resultPath settings e.job.id) (resultKey e.job.id) = (.ok (), stored) ∧
      stored.resultUrl (resultKey e.job.id) settings.downloadUrlExpiryHours = (.ok url, signed)

/-- Whether a stage lies behind the milestones that an export has passed and those that it passes
now. -/
def IsReached (settings : ServiceSettings) (h : Host) (e : Execution) (stage : ExportStage) : Prop :=
  stage.passed = [] ∨
    ∃ new, stage.passed = e.stage.passed ++ new ∧ ∀ m ∈ new, Passes settings h e m

/-- **Where a step of an export leads.** -/
inductive Leads (settings : ServiceSettings) (h : Host) (e : Execution) : Execution → Prop
  | still : Leads settings h e e
  /-- The export goes on, or ends without a result. -/
  | onward {later : Execution} (hjob : Proceeds e.job later.job)
      (hopen : later.stage ≠ .ended .completed) (hreached : IsReached settings h e later.stage) :
      Leads settings h e later
  /-- The result is at a URL, and the job is completed. -/
  | completed {later : Execution} {url : String} (hpasses : Passes settings h e (.stored url))
      (hjob : Reaches e.job later.job) (hstatus : later.job.status = .completed)
      (hurl : later.job.downloadUrl = some url) (hstage : later.stage = .ended .completed) :
      Leads settings h e later

variable {settings : ServiceSettings} {now : Instant} {h : Host} {e : Execution}

/-- An export may end without a result at any step. -/
theorem Leads.of_proceeds {later : Execution} (hjob : Proceeds e.job later.job)
    (hopen : later.stage ≠ .ended .completed) (hpassed : later.stage.passed = []) :
    Leads settings h e later :=
  .onward hjob hopen (.inl hpassed)

/-- An export goes on from a milestone that it passes. -/
theorem IsReached.of_passes {stage : ExportStage} (m : Milestone)
    (hpassed : stage.passed = e.stage.passed ++ [m]) (hpasses : Passes settings h e m) :
    IsReached settings h e stage :=
  .inr ⟨[m], hpassed, List.forall_mem_singleton.mpr hpasses⟩

/-! ### Each stage -/

theorem leads_begin : Leads settings h e (begin settings h e).2 := by
  unfold begin
  split
  · exact .of_proceeds (.refl _) nofun rfl
  · exact .of_proceeds (Job.proceeds_setStage _ _) nofun rfl

/-- A job proceeds to what a list of changes makes of it. -/
theorem proceeds_foldl {α β : Type} [Scalar α] {f : Job α → β → Job α}
    (hf : ∀ job x, Proceeds job (f job x)) (xs : List β) (job : Job α) :
    Proceeds job (xs.foldl f job) := by
  induction xs generalizing job with
  | nil => exact .refl job
  | cons x xs ih => exact (hf job x).trans (ih (f job x))

theorem leads_resolve (hstage : e.stage = .resolving) :
    Leads settings h e (resolve settings h e).2 := by
  unfold resolve
  dsimp only
  split
  · exact .of_proceeds (.refl _) nofun rfl
  · exact .of_proceeds (.refl _) nofun rfl
  · next timeline leases hresult =>
    have hwarnings := proceeds_foldl (fun (job : Job Float) w => Job.proceeds_addWarning job w)
    split
    · exact .of_proceeds (hwarnings _ _) nofun rfl
    · next hne =>
      refine .onward (hwarnings _ _) nofun (.of_passes .resolved (by rw [hstage]; rfl) ?_)
      exact ⟨hstage, timeline, leases, hresult, fun hnil => hne (by rw [hnil]; rfl)⟩

theorem leads_draw {timeline : ResolvedTimeline Float} (hstage : e.stage = .drawing timeline) :
    Leads settings h e (draw settings timeline h e).2 := by
  have hdrawn : ∀ {stage : ExportStage}, stage.passed = [.resolved, .drawn] →
      Passes settings h e .drawn → IsReached settings h e stage := fun hpassed =>
    .of_passes .drawn (by rw [hpassed, hstage]; rfl)
  unfold draw
  dsimp only
  split
  · next hempty =>
    exact .onward (.refl _) nofun
      (hdrawn rfl ⟨timeline, hstage, .inl (List.isEmpty_iff.mp hempty)⟩)
  · have hreports := fun xs : List (Nat × Nat) =>
      (Job.proceeds_setStage e.job "rendering overlay").trans
        (proceeds_foldl (fun job (x : Nat × Nat) => Job.proceeds_setStage job
          ("rendering overlay " ++ toString x.1 ++ "/" ++ toString x.2)) xs _)
    split
    · exact .of_proceeds (hreports _) nofun rfl
    · next error hresult =>
      split
      · exact .of_proceeds (hreports _) nofun rfl
      · next hpolicy =>
        exact .onward ((hreports _).trans (Job.proceeds_addWarning _ _)) nofun
          (hdrawn rfl ⟨timeline, hstage, .inr (.inr ⟨hpolicy, error, hresult⟩)⟩)
    · next overlay hresult =>
      exact .onward (hreports _) nofun
        (hdrawn rfl ⟨timeline, hstage, .inr (.inl ⟨overlay, hresult⟩)⟩)

/-- What the engine reports changes the job through operations. -/
theorem proceeds_hear {α : Type} [Scalar α] (reports : List (EngineReport α)) (job : Job α) :
    Proceeds job (hear now reports job) := by
  refine proceeds_foldl (fun job report => ?_) reports job
  cases report with
  | started =>
    cases hmark : job.markProcessing now with
    | ok later => exact Job.proceeds_markProcessing hmark
    | error fault => exact .refl job
  | progress fraction => exact Job.proceeds_updateProgress _ _ _

/-- An export that has started the engine waits for it, or goes on if it has returned. -/
theorem leads_feed {later : Execution} (hjob : Proceeds e.job later.job) {task : EngineTask Float}
    {run : EngineRun Float} {events : List EngineEvent} (script : EngineScript) (h' : Host)
    (hstarted : IsReached settings h e (.rendering task (run.run task events) script))
    (hreturned : (run.run task events).result = some (.ok ()) → IsReached settings h e .storing) :
    Leads settings h e (feed settings now task run events script h' later).2 := by
  have hheard : Proceeds later.job
      (hear now ((run.run task events).reports.drop run.reports.length) later.job) :=
    proceeds_hear _ _
  have hjob := hjob.trans hheard
  unfold feed
  dsimp only
  unfold afterEngine
  split
  · exact .onward hjob nofun hstarted
  · next fault _ =>
    exact .of_proceeds hjob (fun hstage => fault.outcome_ne_completed (ExportStage.ended.inj hstage))
      rfl
  · next hresult =>
    refine .onward hjob (fun hstage => ?_) ?_
    · dsimp only at hstage
      split at hstage <;> cases hstage
    · dsimp only
      split <;> exact hreturned hresult

theorem leads_compileAndStart {elements : List (Element Float)}
    {audioSources : List (String × Bool)} {overlay : Option OverlaySequence}
    (hstage : e.stage = .compiling elements audioSources overlay) :
    Leads settings h e (compileAndStart settings now elements audioSources overlay h e).2 := by
  have hcompiling := Job.proceeds_setStage e.job "compiling"
  unfold compileAndStart
  dsimp only
  split
  · exact .of_proceeds hcompiling nofun rfl
  · next program hprogram =>
    split
    · exact .of_proceeds hcompiling nofun rfl
    · next hmissing =>
      have hstarted : Passes settings h e .started := ⟨elements, audioSources, overlay, program,
        hstage, hprogram, Bool.not_eq_true _ ▸ hmissing⟩
      refine leads_feed (hcompiling.trans (proceeds_hear _ _)) _ _
        (.of_passes .started (by rw [hstage]; rfl) hstarted) fun hresult => ?_
      refine .inr ⟨[.started, .returned], by rw [hstage]; rfl, ?_⟩
      exact List.forall_mem_cons.mpr
        ⟨hstarted, List.forall_mem_singleton.mpr (.atOnce hstage hprogram hresult)⟩

theorem leads_awaitEngine {task : EngineTask Float} {run : EngineRun Float}
    {script : EngineScript} (hstage : e.stage = .rendering task run script) :
    Leads settings h e (awaitEngine settings now task run script h e).2 := by
  unfold awaitEngine
  split
  · exact .still
  · exact leads_feed (.refl _) script h (.inr ⟨[], by rw [hstage]; rfl, by simp⟩)
      fun hresult => .of_passes .returned (by rw [hstage]; rfl) (.later hstage hresult)

theorem leads_check (hstage : e.stage = .checking) :
    Leads settings h e (check settings h e).2 := by
  have hchecked : IsReached settings h e .storing := .inr ⟨[], by rw [hstage]; rfl, by simp⟩
  unfold check
  dsimp only
  split
  · exact .onward (.refl _) nofun hchecked
  · exact .onward (.refl _) nofun hchecked
  · exact .of_proceeds (.refl _) nofun rfl

/-- **Only a stored result completes an export**, and the job with it. -/
theorem leads_store (hstage : e.stage = .storing) :
    Leads settings h e (store settings now h e).2 := by
  have huploading := Job.proceeds_updateProgress e.job storingProgress (some "uploading")
  unfold store
  dsimp only
  split
  · exact .of_proceeds huploading nofun rfl
  · next stored hstored =>
    split
    · exact .of_proceeds huploading nofun rfl
    · next url signed hsigned =>
      split
      -- the export ends completed only here, after the job did
      · next hmark =>
        obtain ⟨⟨hurl, -⟩, hjob⟩ := Job.markCompleted_eq_ok hmark
        exact .completed ⟨hstage, hurl, stored, signed, hstored, hsigned⟩
          (huploading.1.tail (.completed now _ hmark)) (hjob ▸ rfl) (hjob ▸ rfl) rfl
      · split
        · exact .of_proceeds huploading nofun rfl
        · exact .of_proceeds huploading nofun rfl

/-- **One step of an export** leads on along the milestones, or to an end. -/
theorem leads_step (settings : ServiceSettings) (now : Instant) (h : Host) (e : Execution) :
    Leads settings h e (e.step settings now h).2 := by
  unfold step
  split
  · exact leads_begin
  · next hstage => exact leads_resolve hstage
  · next hstage => exact leads_draw hstage
  · next hstage => exact leads_compileAndStart hstage
  · next hstage => exact leads_awaitEngine hstage
  · next hstage => exact leads_check hstage
  · next hstage => exact leads_store hstage
  · exact .of_proceeds (.refl _) nofun rfl
  · exact .still

/-! ### Exports in order -/

/-- The job of an export that has ended completed is completed. -/
def IsSound (e : Execution) : Prop :=
  e.stage = .ended .completed → e.job.status = .completed

/-- Where an export may be that had a job: it changed the job through operations, and is sound. -/
structure Follows (job : Job Float) (later : Execution) : Prop where
  reaches : Reaches job later.job
  sound : later.IsSound

theorem Leads.follows {later : Execution} (hleads : Leads settings h e later) (he : e.IsSound) :
    Follows e.job later := by
  cases hleads with
  | still => exact ⟨.refl, he⟩
  | onward hjob hopen => exact ⟨hjob.1, fun hstage => absurd hstage hopen⟩
  | completed _ hjob hstatus => exact ⟨hjob, fun _ => hstatus⟩

/-- No step of an export fails the job. -/
theorem Leads.status_ne_failed {later : Execution} (hleads : Leads settings h e later)
    (hne : e.job.status ≠ .failed) : later.job.status ≠ .failed := by
  intro hfailed
  cases hleads with
  | still => exact hne hfailed
  | onward hjob =>
    have hterminal : e.job.isTerminal = true := hjob.2 (by rw [Job.isTerminal, hfailed]; rfl)
    exact hne ((hjob.1.status_eq hterminal).symm.trans hfailed)
  | completed _ _ hstatus => cases hfailed.symm.trans hstatus

/-- Killing the engine changes nothing else of an export. -/
theorem killEngine_eq (h : Host) (e : Execution) :
    ∃ engine, (e.killEngine h).2 = { e with engine } := by
  unfold killEngine
  split
  · exact ⟨_, rfl⟩
  · exact ⟨e.engine, rfl⟩

theorem job_killEngine (h : Host) (e : Execution) : (e.killEngine h).2.job = e.job := by
  obtain ⟨engine, heq⟩ := e.killEngine_eq h
  rw [heq]

/-- An export that breaks off has ended, and not completed. -/
theorem breakOff_eq (settings : ServiceSettings) (outcome : ExportOutcome) (h : Host)
    (e : Execution) :
    (e.breakOff settings outcome h).2 = e ∨
      outcome ≠ .completed ∧ ∃ engine,
        (e.breakOff settings outcome h).2 = { e with stage := .ended outcome, engine } := by
  unfold breakOff
  split
  · exact .inl rfl
  · next hne =>
    refine .inr ⟨hne, ?_⟩
    obtain ⟨engine, hkilled⟩ := e.killEngine_eq h
    split
    · dsimp only [finish]
      split
      · exact ⟨engine, by rw [hkilled]⟩
      · exact ⟨e.engine, rfl⟩
    · exact ⟨e.engine, rfl⟩

theorem leads_breakOff (settings : ServiceSettings) (outcome : ExportOutcome) (h : Host)
    (e : Execution) : Leads settings h e (e.breakOff settings outcome h).2 := by
  obtain heq | ⟨hne, engine, heq⟩ := e.breakOff_eq settings outcome h
  · rw [heq]
    exact .still
  · rw [heq]
    exact .of_proceeds (.refl _) (fun hstage => hne (ExportStage.ended.inj hstage)) rfl

/-- Cancelling an export leaves its job alone. -/
theorem follows_cancel {e : Execution} (he : e.IsSound) (h : Host) :
    (e.cancel h).2.job = e.job ∧ (e.cancel h).2.IsSound := by
  unfold cancel
  split
  · exact ⟨rfl, nofun⟩
  · exact ⟨rfl, he⟩
  · exact ⟨job_killEngine h e, nofun⟩

end Execution

end TimelineExport
