import TimelineExport.Proofs.Server.Remains

/-!
# Why exports end early

Each stage of an export calls another part of the program, and ends the export with what that part
answers when it fails. A `StageFault` is such an answer, and `Execution.Raises` says which one the
next step of an export meets. How the export ends is decided by the fault alone
(`StageFault.outcome`): with the failure of an export that it is, cancelled or too late if it says
so, and otherwise with a failure that nobody expected.

A step ends an export early if and only if its stage meets a fault, and then with the outcome of
that fault (`Execution.ended_step_iff`).
-/

namespace TimelineExport

/-- **What goes wrong at a stage of an export**: the fault that the stage is answered with. -/
inductive StageFault where
  /-- There can be no directory at a path. -/
  | noDirectory (path : String)
  | asset (fault : AssetFault)
  /-- Every element was dropped. -/
  | nothingLeft
  | overlay (failure : OverlayFailure)
  | compile (fault : CompileFault Float)
  | engine (fault : EngineFault)
  | probe (fault : ProbeFault)
  | storage (fault : StorageFault)
  | job (fault : JobFault)

namespace StageFault

/-- The failure of an export that a fault is, if it is one. -/
def exportError? : StageFault → Option ExportError
  | asset fault => fault.resolution?
  | nothingLeft => some (.asset "timeline" "every element was dropped")
  | overlay (.overlay error) => some error
  | engine fault => fault.exportError?
  | storage (.storage error) => some error
  | job fault => fault.exportError?
  | _ => none

/-- What a reader is told about a fault that is no failure of an export. -/
def message : StageFault → String
  | noDirectory path => (FileFault.exists path).message
  | asset fault => fault.message
  | overlay (.duration fault) => fault.message
  | compile fault => fault.message shortestText
  | engine fault => fault.message
  | probe fault => fault.message
  | storage (.files fault) => fault.message
  | job fault => fault.message
  | _ => ""

/-- **How an export ends that meets a fault**: a failure of an export is reported as it is, what
was cancelled or took too long cancels the export or times out, and everything else is
unexpected. -/
def outcome (fault : StageFault) : ExportOutcome :=
  match fault.exportError?, fault with
  | some error, _ => .failed (.reported error)
  | none, engine .cancelled => .cancelled
  | none, engine (.listener .cancelled) => .cancelled
  | none, engine (.listener .timeout) => .failed .timedOut
  | none, fault => .failed (.unexpected fault.message)

theorem outcome_engine (fault : EngineFault) : (engine fault).outcome = fault.outcome := by
  cases fault with
  | listener raised => cases raised <;> rfl
  | _ => rfl

theorem outcome_storage (fault : StorageFault) :
    (storage fault).outcome = .failed (Host.storageFailure fault) := by
  cases fault <;> rfl

theorem outcome_ne_completed (fault : StageFault) : fault.outcome ≠ .completed := by
  unfold outcome
  split <;> nofun

end StageFault

/-- Whether an export at the stage is on its way to a result. -/
def ExportStage.isUnderway : ExportStage → Bool
  | stopping | ended _ => false
  | _ => true

namespace Host

/-- The fault with which the storage of a host refuses an upload. -/
inductive RefusesUpload (h : Host) (path key : String) : StorageFault → Prop
  | directory {s : LocalStorage} {fault : StorageFault} (hstorage : h.storage = .directory s)
    (hfault : (s.upload h.files h.cwd path key).1 = .error fault) : RefusesUpload h path key fault
  | bucket {cloud : Cloud} {s : BucketStorage} {error : ExportError}
    (hstorage : h.storage = .bucket cloud s)
    (hfault : (s.upload cloud path key (some videoContentType)).1 = .error error) :
    RefusesUpload h path key (.storage error)

/-- The fault with which the storage of a host refuses to sign a URL; a directory refuses none. -/
inductive RefusesUrl (h : Host) (key : String) (hours : Int) : StorageFault → Prop
  | bucket {cloud : Cloud} {s : BucketStorage} {error : ExportError}
    (hstorage : h.storage = .bucket cloud s)
    (hfault : (s.signedUrl cloud key hours).1 = .error error) :
    RefusesUrl h key hours (.storage error)

variable {h : Host} {path key : String} {hours : Int} {failure : ExportFailure}

theorem store_eq_error_iff : (∃ stored, h.store path key = (.error failure, stored)) ↔
    ∃ fault, h.RefusesUpload path key fault ∧ storageFailure fault = failure := by
  constructor
  · rintro ⟨stored, hstore⟩
    have hfailure := congrArg Prod.fst hstore
    unfold store at hfailure
    split at hfailure
    · next s hstorage =>
      cases hresult : (s.upload h.files h.cwd path key).1 with
      | ok url => simp [hresult] at hfailure
      | error fault =>
        simp only [hresult, Except.error.injEq] at hfailure
        exact ⟨fault, .directory hstorage hresult, hfailure⟩
    · next cloud s hstorage =>
      cases hresult : (s.upload cloud path key (some videoContentType)).1 with
      | ok url => simp [hresult] at hfailure
      | error error =>
        simp only [hresult, Except.error.injEq] at hfailure
        exact ⟨.storage error, .bucket hstorage hresult, hfailure⟩
  · rintro ⟨fault, hrefuses, rfl⟩
    cases hrefuses with
    | directory hstorage hfault => simp [store, hstorage, hfault]
    | bucket hstorage hfault => simp [store, hstorage, hfault, storageFailure]

theorem resultUrl_eq_error_iff :
    (∃ signed, h.resultUrl key hours = (.error failure, signed)) ↔
      ∃ fault, h.RefusesUrl key hours fault ∧ storageFailure fault = failure := by
  constructor
  · rintro ⟨signed, hsign⟩
    have hfailure := congrArg Prod.fst hsign
    unfold resultUrl at hfailure
    split at hfailure
    · cases hfailure
    · next cloud s hstorage =>
      cases hresult : (s.signedUrl cloud key hours).1 with
      | ok url => simp [hresult, Except.mapError] at hfailure
      | error error =>
        simp only [hresult, Except.mapError, Except.error.injEq] at hfailure
        exact ⟨.storage error, .bucket hstorage hresult, hfailure⟩
  · rintro ⟨fault, hrefuses, rfl⟩
    cases hrefuses with
    | bucket hstorage hfault =>
      simp [resultUrl, hstorage, hfault, storageFailure, Except.mapError]

end Host

namespace Execution

variable {settings : ServiceSettings} {now : Instant} {h : Host} {e : Execution}

/-- **The fault that the next step of an export meets.** An overlay's own failure is met only if
the overlay is not given up for it, and that the result cannot be probed is no fault. -/
inductive Raises (settings : ServiceSettings) (now : Instant) (h : Host) (e : Execution) :
    StageFault → Prop
  | noDirectory {fault : FileFault} (hstage : e.stage = .ready)
    (hfault : h.files.makeDirectories (resolvePath h.cwd (directory settings e.job.id)) =
      .error fault) :
    Raises settings now h e (.noDirectory settings.workDirectory)
  | asset {fault : AssetFault} (hstage : e.stage = .resolving)
    (hfault : (resolution settings h e).1 = .error fault) : Raises settings now h e (.asset fault)
  | nothingLeft {timeline : ResolvedTimeline Float} {leases : Leases}
    (hstage : e.stage = .resolving) (hresult : (resolution settings h e).1 = .ok (timeline, leases))
    (hempty : timeline.elements = []) : Raises settings now h e .nothingLeft
  | overlay {timeline : ResolvedTimeline Float} {error : ExportError}
    (hstage : e.stage = .drawing timeline) (hdrawn : drawnElements timeline ≠ [])
    (hfault : (overlayPass settings timeline h e).result = .error (.overlay error))
    (hpolicy : settings.overlayFailurePolicy = .fail) :
    Raises settings now h e (.overlay (.overlay error))
  | duration {timeline : ResolvedTimeline Float} {fault : NonFinite}
    (hstage : e.stage = .drawing timeline) (hdrawn : drawnElements timeline ≠ [])
    (hfault : (overlayPass settings timeline h e).result = .error (.duration fault)) :
    Raises settings now h e (.overlay (.duration fault))
  | compile {elements : List (Element Float)} {audioSources : List (String × Bool)}
    {overlay : Option OverlaySequence} {fault : CompileFault Float}
    (hstage : e.stage = .compiling elements audioSources overlay)
    (hfault : compilation settings elements audioSources overlay e = .error fault) :
    Raises settings now h e (.compile fault)
  | notFound {elements : List (Element Float)} {audioSources : List (String × Bool)}
    {overlay : Option OverlaySequence} {program : Program Float}
    (hstage : e.stage = .compiling elements audioSources overlay)
    (hprogram : compilation settings elements audioSources overlay e = .ok program)
    (hmissing : (EngineScript.next h.engines).1.missing = true) :
    Raises settings now h e (.engine (.notFound settings.ffmpegPath))
  | engine {task : EngineTask Float} {run : EngineRun Float} {script : EngineScript}
    {fault : EngineFault} (hfeeds : Feeds settings h e task run script)
    (hfault : run.result = some (.error fault)) : Raises settings now h e (.engine fault)
  | probe {fault : ProbeFault} (hstage : e.stage = .checking)
    (hfault : (h.outside.probe (resultPath settings e.job.id)).readDuration
      (resultPath settings e.job.id) = .error fault)
    (hexpected : ∀ message, fault ≠ .failed message) : Raises settings now h e (.probe fault)
  | upload {fault : StorageFault} (hstage : e.stage = .storing)
    (hfault : h.RefusesUpload (resultPath settings e.job.id) (resultKey e.job.id) fault) :
    Raises settings now h e (.storage fault)
  | url {stored : Host} {fault : StorageFault} (hstage : e.stage = .storing)
    (hstored : h.store (resultPath settings e.job.id) (resultKey e.job.id) = (.ok (), stored))
    (hfault : stored.RefusesUrl (resultKey e.job.id) settings.downloadUrlExpiryHours fault) :
    Raises settings now h e (.storage fault)
  | job {stored signed : Host} {url : String} {fault : JobFault} (hstage : e.stage = .storing)
    (hstored : h.store (resultPath settings e.job.id) (resultKey e.job.id) = (.ok (), stored))
    (hsigned : stored.resultUrl (resultKey e.job.id) settings.downloadUrlExpiryHours =
      (.ok url, signed))
    (hfault : (e.job.updateProgress storingProgress (some "uploading")).markCompleted now url =
      .error fault) :
    Raises settings now h e (.job fault)

/-- **Where a step of an export gets to**: the export goes on or is completed, or it ends with the
outcome of the fault that it meets. -/
inductive GetsTo (settings : ServiceSettings) (now : Instant) (h : Host) (e : Execution) :
    ExportStage → Prop
  | onward {stage : ExportStage} (hgoing : stage.isUnderway = true) :
    GetsTo settings now h e stage
  | completed : GetsTo settings now h e (.ended .completed)
  | raised {fault : StageFault} (hraises : Raises settings now h e fault) {outcome : ExportOutcome}
    (houtcome : fault.outcome = outcome) : GetsTo settings now h e (.ended outcome)

/-! ### Each stage -/

theorem getsTo_begin (hstage : e.stage = .ready) :
    GetsTo settings now h e (begin settings h e).2.stage := by
  unfold begin
  split
  · next hfault => exact .raised (.noDirectory hstage hfault) rfl
  · exact .onward rfl

theorem getsTo_resolve (hstage : e.stage = .resolving) :
    GetsTo settings now h e (resolve settings h e).2.stage := by
  unfold resolve
  dsimp only
  split
  · next hfault => exact .raised (.asset hstage hfault) rfl
  · next fault hother hfault =>
    refine .raised (.asset hstage hfault) ?_
    cases fault with
    | resolution error => exact absurd rfl (hother error)
    | _ => rfl
  · next hresult =>
    split
    · next hempty =>
      exact .raised (.nothingLeft hstage hresult (List.isEmpty_iff.mp hempty)) rfl
    · exact .onward rfl

theorem getsTo_draw {timeline : ResolvedTimeline Float} (hstage : e.stage = .drawing timeline) :
    GetsTo settings now h e (draw settings timeline h e).2.stage := by
  unfold draw
  dsimp only
  split
  · exact .onward rfl
  · next hdrawn =>
    have hdrawn : drawnElements timeline ≠ [] := fun hnil => hdrawn (by rw [hnil]; rfl)
    split
    · next hfault => exact .raised (.duration hstage hdrawn hfault) rfl
    · next hfault =>
      split
      · next hpolicy => exact .raised (.overlay hstage hdrawn hfault hpolicy) rfl
      · exact .onward rfl
    · exact .onward rfl

/-- A look at the engine's run ends the export only with the fault of that run. -/
theorem getsTo_afterEngine {task : EngineTask Float} {run : EngineRun Float}
    {script : EngineScript} (hfeeds : Feeds settings h e task run script) (h' : Host)
    (later : Execution) :
    GetsTo settings now h e (afterEngine settings task run script h' later).2.stage := by
  unfold afterEngine
  split
  · exact .onward rfl
  · next fault hfault => exact .raised (.engine hfeeds hfault) (StageFault.outcome_engine fault)
  · dsimp only
    split <;> exact .onward rfl

theorem getsTo_compiling {elements : List (Element Float)} {audioSources : List (String × Bool)}
    {overlay : Option OverlaySequence}
    (hstage : e.stage = .compiling elements audioSources overlay) :
    GetsTo settings now h e (e.step settings now h).2.stage := by
  cases hprogram : compilation settings elements audioSources overlay e with
  | error fault =>
    simp only [step, hstage, compileAndStart, hprogram]
    exact .raised (.compile hstage hprogram) rfl
  | ok program =>
    cases hfound : (EngineScript.next h.engines).1.missing with
    | true =>
      simp only [step, hstage, compileAndStart, hprogram, hfound]
      exact .raised (.notFound hstage hprogram hfound) rfl
    | false =>
      have hfeeds : Feeds settings h e _ _ _ := .atOnce hstage hprogram hfound
      obtain ⟨h', later, heq, -⟩ := hfeeds.step_eq now
      exact heq ▸ getsTo_afterEngine hfeeds h' later

theorem getsTo_rendering {task : EngineTask Float} {run : EngineRun Float}
    {script : EngineScript} (hstage : e.stage = .rendering task run script) :
    GetsTo settings now h e (e.step settings now h).2.stage := by
  cases hgoes : (script.blocks && !h.released) with
  | true =>
    simp only [step, hstage, awaitEngine, hgoes]
    exact .onward (hstage ▸ rfl)
  | false =>
    have hfeeds : Feeds settings h e _ _ _ := .later hstage hgoes
    obtain ⟨h', later, heq, -⟩ := hfeeds.step_eq now
    exact heq ▸ getsTo_afterEngine hfeeds h' later

theorem getsTo_check (hstage : e.stage = .checking) :
    GetsTo settings now h e (check settings h e).2.stage := by
  unfold check
  dsimp only
  split
  · exact .onward rfl
  · exact .onward rfl
  · next fault hunexpected hfault =>
    refine .raised (.probe hstage hfault fun message hfailed => ?_) rfl
    exact hunexpected message hfailed

theorem getsTo_store (hstage : e.stage = .storing) :
    GetsTo settings now h e (store settings now h e).2.stage := by
  unfold store
  dsimp only
  split
  · next failure stored hstored =>
    obtain ⟨fault, hrefuses, rfl⟩ := Host.store_eq_error_iff.mp ⟨stored, hstored⟩
    exact .raised (.upload hstage hrefuses) (StageFault.outcome_storage fault)
  · next stored hstored =>
    split
    · next failure signed hsigned =>
      obtain ⟨fault, hrefuses, rfl⟩ := Host.resultUrl_eq_error_iff.mp ⟨signed, hsigned⟩
      exact .raised (.url hstage hstored hrefuses) (StageFault.outcome_storage fault)
    · next url signed hsigned =>
      split
      · exact .completed
      · next fault hmark =>
        have hraises := Raises.job hstage hstored hsigned hmark
        cases fault <;> exact .raised hraises rfl

/-! ### All stages -/

/-- **One step of an export** that is on its way. -/
theorem getsTo_step (hgoing : e.stage.isUnderway = true) :
    GetsTo settings now h e (e.step settings now h).2.stage := by
  cases hstage : e.stage with
  | ready => simpa only [step, hstage] using getsTo_begin hstage
  | resolving => simpa only [step, hstage] using getsTo_resolve hstage
  | drawing timeline => simpa only [step, hstage] using getsTo_draw hstage
  | compiling elements audioSources overlay => exact getsTo_compiling hstage
  | rendering task run script => exact getsTo_rendering hstage
  | checking => simpa only [step, hstage] using getsTo_check hstage
  | storing => simpa only [step, hstage] using getsTo_store hstage
  | stopping =>
    rw [hstage] at hgoing
    cases hgoing
  | ended outcome =>
    rw [hstage] at hgoing
    cases hgoing

/-- An export that meets a fault ends with its outcome. -/
theorem Raises.stage_step {fault : StageFault} (hraises : Raises settings now h e fault) :
    (e.step settings now h).2.stage = .ended fault.outcome := by
  cases hraises with
  | noDirectory hstage hfault => simp only [step, hstage, begin, hfault]; rfl
  | asset hstage hfault =>
    rename_i fault
    cases fault <;> simp only [step, hstage, resolve, hfault] <;> rfl
  | nothingLeft hstage hresult hempty =>
    simp only [step, hstage, resolve, hresult, hempty, List.isEmpty_nil, if_true]
    rfl
  | overlay hstage hdrawn hfault hpolicy =>
    simp only [step, hstage, draw, List.isEmpty_iff, if_neg hdrawn, hfault, hpolicy]
    rfl
  | duration hstage hdrawn hfault =>
    simp only [step, hstage, draw, List.isEmpty_iff, if_neg hdrawn, hfault]
    rfl
  | compile hstage hfault =>
    simp only [step, hstage, compileAndStart, hfault]
    rfl
  | notFound hstage hprogram hmissing =>
    simp only [step, hstage, compileAndStart, hprogram, hmissing]
    rfl
  | engine hfeeds hfault =>
    obtain ⟨h', later, heq, -⟩ := hfeeds.step_eq now
    rw [heq, afterEngine, hfault, StageFault.outcome_engine]
    rfl
  | @probe fault hstage hfault hexpected =>
    cases fault with
    | failed message => exact absurd rfl (hexpected message)
    | _ => simp only [step, hstage, check, hfault]; rfl
  | @upload fault hstage hrefuses =>
    obtain ⟨stored, hstored⟩ := Host.store_eq_error_iff.mpr ⟨fault, hrefuses, rfl⟩
    simp only [step, hstage, store, hstored, StageFault.outcome_storage]
    rfl
  | @url stored fault hstage hstored hrefuses =>
    obtain ⟨signed, hsigned⟩ := Host.resultUrl_eq_error_iff.mpr ⟨fault, hrefuses, rfl⟩
    simp only [step, hstage, store, hstored, hsigned, StageFault.outcome_storage]
    rfl
  | @job _ _ _ fault hstage hstored hsigned hfault =>
    cases fault <;> simp only [step, hstage, store, hstored, hsigned, hfault] <;> rfl

/-- **A step ends an export early if and only if its stage meets a fault**, and then with the
outcome of that fault. -/
theorem ended_step_iff (hgoing : e.stage.isUnderway = true) {outcome : ExportOutcome}
    (hne : outcome ≠ .completed) :
    (e.step settings now h).2.stage = .ended outcome ↔
      ∃ fault, Raises settings now h e fault ∧ fault.outcome = outcome := by
  constructor
  · intro hended
    have hgets : GetsTo settings now h e (e.step settings now h).2.stage := getsTo_step hgoing
    rw [hended] at hgets
    cases hgets with
    | onward hlater => cases hlater
    | completed => exact absurd rfl hne
    | raised hraises houtcome => exact ⟨_, hraises, houtcome⟩
  · rintro ⟨fault, hraises, rfl⟩
    exact hraises.stage_step

end Execution

end TimelineExport
