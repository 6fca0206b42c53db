import TimelineExport.Engine.Command
import TimelineExport.Job.Basic
import TimelineExport.Overlay.Render
import TimelineExport.Server.Host
import TimelineExport.Timeline.Classify

/-!
# The stages of an export

An export makes a work directory, resolves its sources, draws the overlay, compiles the rest,
runs the engine, checks the result and stores it. `ExportStage` says which of these comes next;
between two of them the export is suspended, and `Execution.step` carries it from one suspension
to the next. However an export ends, its work directory is removed at the end.

An export that is cancelled has to clean up first: it is `stopping` until then. What goes wrong
at a stage is for the most part what the host answers there; `Execution.breakOff` ends an export
for any other reason.

Two things may outlast an export: the process of the engine, which is killed at a timeout and at a
cancellation only, and a worker thread, which is not waited for when the export is cancelled. The
thread that draws the overlay is.
-/

namespace TimelineExport

/-- How an export ended. -/
inductive ExportOutcome where
  | completed
  | failed (failure : ExportFailure)
  | cancelled

/-- Whether an export that breaks off in this way kills its engine. -/
def ExportOutcome.stopsEngine : ExportOutcome → Bool
  | cancelled | failed .timedOut => true
  | _ => false

/-- How an export ends whose engine's run has ended with a fault. -/
def EngineFault.outcome (fault : EngineFault) : ExportOutcome :=
  match fault with
  | cancelled | listener .cancelled => .cancelled
  | listener .timeout => .failed .timedOut
  | fault =>
    match fault.exportError? with
    | some error => .failed (.reported error)
    | none => .failed (.unexpected fault.message)

/-- What an export does next. -/
inductive ExportStage where
  | ready
  | resolving
  | drawing (timeline : ResolvedTimeline Float)
  | compiling (elements : List (Element Float)) (audioSources : List (String × Bool))
      (overlay : Option OverlaySequence)
  | rendering (task : EngineTask Float) (run : EngineRun Float) (script : EngineScript)
  | checking
  | storing
  | stopping
  | ended (outcome : ExportOutcome)

/-- An export on its way: its job, its request, and the stage. -/
structure Execution where
  job : Job Float
  request : ExportRequest
  stage : ExportStage := .ready
  /-- What became of the process of the engine, if it was started. -/
  engine : Option ProcessState := none
  /-- Whether there may be a worker thread at work that is not waited for. -/
  strayThread : Bool := false

/-- The part of the progress that the engine's run makes up, in percent. -/
def engineShare {α : Type} [Scalar α] : α := 95

/-- The progress when the result is being stored, in percent. -/
def storingProgress : Float := 99

namespace ExportStage

/-- Whether the export has ended. -/
def hasEnded : ExportStage → Bool
  | ended _ => true
  | _ => false

/-- Whether an export at the stage has a work directory. -/
def ownsDirectory : ExportStage → Bool
  | ready | ended _ => false
  | _ => true

/-- Whether a worker thread may be at work at the stage that is not waited for at a cancellation:
one that probes a source or the result, or that stores the result. -/
def usesThread : ExportStage → Bool
  | resolving | checking | storing => true
  | _ => false

end ExportStage

namespace Execution

/-- The path of the work directory of a job. -/
def directory (settings : ServiceSettings) (id : String) : String :=
  joinPath settings.workDirectory ("lemona_export_" ++ (id.take 8).toString ++ "_")

/-- The path of the result of a job, in its work directory. -/
def resultPath (settings : ServiceSettings) (id : String) : String :=
  joinPath (directory settings id) (id ++ ".mp4")

/-- Ends an export and removes its work directory. -/
def finish (settings : ServiceSettings) (outcome : ExportOutcome) (h : Host) (e : Execution) :
    Host × Execution :=
  ({ h with files := h.files.eraseAll (resolvePath h.cwd (directory settings e.job.id)) },
    { e with stage := .ended outcome })

/-- Ends an export that failed. -/
def fail (settings : ServiceSettings) (failure : ExportFailure) (h : Host) (e : Execution) :
    Host × Execution :=
  finish settings (.failed failure) h e

/-- Makes the work directory. -/
def begin (settings : ServiceSettings) (h : Host) (e : Execution) : Host × Execution :=
  match h.files.makeDirectories (resolvePath h.cwd (directory settings e.job.id)) with
  | .error _ =>
    (h, { e with stage := .ended (.failed
      (.unexpected (FileFault.exists settings.workDirectory).message)) })
  | .ok files =>
    ({ h with files },
      { e with job := e.job.setStage "resolving assets", stage := .resolving })

/-- What comes of resolving the sources, with a cache of the export's own. -/
def resolution (settings : ServiceSettings) (h : Host) (e : Execution) :
    Except AssetFault (ResolvedTimeline Float × Leases) ×
      CacheScene StoredFile × Outside StoredFile :=
  let retries : RetryPolicy Float :=
    { attempts := settings.assetDownloadRetries, baseDelay := settings.assetRetryBaseDelayS
      jitter := fun _ => 0 }
  let scene : CacheScene StoredFile :=
    .inDirectory h.cwd h.files (joinPath (directory settings e.job.id) "assets")
      { entries := settings.assetCacheMaxEntries, bytes := settings.assetCacheMaxBytes }
  resolveTimeline { retries, cwd := h.cwd }
    (e.request.assetPolicy.getD settings.assetPolicy) e.request.clips scene h.outside

/-- Resolves the sources. -/
def resolve (settings : ServiceSettings) (h : Host) (e : Execution) : Host × Execution :=
  let (result, scene, outside) := resolution settings h e
  let h := { h with outside, files := scene.files }
  match result with
  | .error (.resolution error) => fail settings (.reported error) h e
  | .error fault => fail settings (.unexpected fault.message) h e
  | .ok (timeline, _) =>
    let e := { e with job := timeline.warnings.foldl (fun job w => job.addWarning w) e.job }
    if timeline.elements.isEmpty then
      fail settings (.reported (.asset "timeline" "every element was dropped")) h e
    else (h, { e with stage := .drawing timeline })

/-- The ids of the elements that are drawn on the overlay. -/
def drawnIds (timeline : ResolvedTimeline Float) : List String :=
  ((classify timeline.elements).1.filter (·.canDraw)).map (·.id)

/-- The elements that are drawn on the overlay. -/
def drawnElements (timeline : ResolvedTimeline Float) : List (Element Float) :=
  timeline.elements.filter fun x => (drawnIds timeline).contains x.id

/-- The elements that are not drawn, but composited by the filter program. -/
def nativeElements (timeline : ResolvedTimeline Float) : List (Element Float) :=
  timeline.elements.filter fun x => !(drawnIds timeline).contains x.id

/-- The directory of the overlay's frames. -/
def overlayDirectory (settings : ServiceSettings) (id : String) : String :=
  joinPath (directory settings id) "overlay"

/-- What comes of drawing the overlay. -/
def overlayPass (settings : ServiceSettings) (timeline : ResolvedTimeline Float) (h : Host)
    (e : Execution) : OverlayOutcome :=
  let task : OverlayTask Float :=
    { painter := h.painter
      canvas := ⟨e.request.settings.width, e.request.settings.height⟩
      fps := e.request.settings.fps, elements := drawnElements timeline
      tracks := e.request.tracks, durationMs := e.job.durationMs
      directory := overlayDirectory settings e.job.id, workers := settings.overlayWorkers }
  task.render h.face (h.files.sources h.cwd) (some fun _ _ => none) false none

/-- Draws the elements that are drawn on the overlay. -/
def draw (settings : ServiceSettings) (timeline : ResolvedTimeline Float) (h : Host)
    (e : Execution) : Host × Execution :=
  let compiling (overlay : Option OverlaySequence) : ExportStage :=
    .compiling (nativeElements timeline) timeline.audioSources overlay
  let drawn := drawnElements timeline
  if drawn.isEmpty then (h, { e with stage := compiling none })
  else
    let outcome := overlayPass settings timeline h e
    let place := resolvePath h.cwd (overlayDirectory settings e.job.id)
    let job := outcome.reports.foldl (fun job (done, total) =>
        job.setStage ("rendering overlay " ++ toString done ++ "/" ++ toString total))
      (e.job.setStage "rendering overlay")
    let e := { e with job }
    match outcome.result with
    | .error (.duration fault) => fail settings (.unexpected fault.message) h e
    | .error (.overlay error) =>
      match settings.overlayFailurePolicy with
      | .fail => fail settings (.reported error) h e
      | .degrade =>
        let warning := "Overlay abandoned, exporting without " ++ toString drawn.length ++
          " styled elements: " ++ error.message
        (h, { e with job := e.job.addWarning warning, stage := compiling none })
    | .ok overlay =>
      let files := (outcome.files.getD []).foldl
        (fun files frame => files.put (place ++ [frame.1]) (.file {})) (h.files.put place .directory)
      ({ h with files }, { e with stage := compiling (some overlay) })

/-- Takes note of what the engine's run has reported. -/
def hear {α : Type} [Scalar α] (now : Instant) (reports : List (EngineReport α)) (job : Job α) :
    Job α :=
  reports.foldl (fun job report =>
    match report with
    | .started => (job.markProcessing now).toOption.getD job
    | .progress fraction => job.updateProgress (fraction * engineShare) (some "encoding")) job

/-- What follows after the engine's run, if that has ended. -/
def afterEngine (settings : ServiceSettings) (task : EngineTask Float) (run : EngineRun Float)
    (script : EngineScript) (h : Host) (e : Execution) : Host × Execution :=
  match run.result with
  | none => (h, { e with stage := .rendering task run script })
  | some (.error fault) => finish settings fault.outcome h e
  | some (.ok ()) =>
    (h, { e with stage := if settings.verifyOutputDuration then .checking else .storing })

/-- Lets the engine's run go on by some events. -/
def feed (settings : ServiceSettings) (now : Instant) (task : EngineTask Float)
    (run : EngineRun Float) (events : List EngineEvent) (script : EngineScript) (h : Host)
    (e : Execution) : Host × Execution :=
  let later := run.run task events
  let files := match later.process, later.outputBytes with
    | .exited _, some size =>
      h.files.put (resolvePath h.cwd task.outputPath) (.file { size })
    | _, _ => h.files
  let h := { h with files, killed := h.killed + if later.process = .killed then 1 else 0 }
  afterEngine settings task later script h
    { e with
      job := hear now (later.reports.drop run.reports.length) e.job
      engine := some later.process }

/-- The program of the elements that are not drawn, over the overlay. -/
def compilation (settings : ServiceSettings) (elements : List (Element Float))
    (audioSources : List (String × Bool)) (overlay : Option OverlaySequence) (e : Execution) :
    Except (CompileFault Float) (Program Float) :=
  compile e.request.settings settings.audioSampleRate elements e.request.tracks overlay
    (some e.job.durationMs) audioSources

/-- What the engine is asked for. -/
def engineTask (settings : ServiceSettings) (program : Program Float) (e : Execution) :
    EngineTask Float :=
  { durationMs := program.durationMs, outputPath := resultPath settings e.job.id
    timeoutS := settings.engineTimeoutS, listener := some fun _ => none }

/-- What happens to a run until the export first waits for it. Without any time it is overdue at
once. -/
def openingEvents (settings : ServiceSettings) (script : EngineScript) : List EngineEvent :=
  if settings.engineTimeoutS ≤ 0 then [.deadline] else script.opening

/-- Compiles the elements and starts the engine. -/
def compileAndStart (settings : ServiceSettings) (now : Instant) (elements : List (Element Float))
    (audioSources : List (String × Bool)) (overlay : Option OverlaySequence) (h : Host)
    (e : Execution) : Host × Execution :=
  let job := e.job.setStage "compiling"
  match compilation settings elements audioSources overlay e with
  | .error fault => fail settings (.unexpected (fault.message shortestText)) h { e with job }
  | .ok program =>
    let task := engineTask settings program e
    let (script, engines) := EngineScript.next h.engines
    let h := { h with
      engines
      commands := h.commands ++
        [engineCommand settings e.request.settings program task.outputPath] }
    if script.missing then
      fail settings (.reported (.engine ("ffmpeg not found: " ++ settings.ffmpegPath))) h
        { e with job }
    else
      let run : EngineRun Float := .start task
      feed settings now task run (openingEvents settings script) script h
        { e with job := hear now run.reports job }

/-- Lets the engine's run end, unless it waits. -/
def awaitEngine (settings : ServiceSettings) (now : Instant) (task : EngineTask Float)
    (run : EngineRun Float) (script : EngineScript) (h : Host) (e : Execution) :
    Host × Execution :=
  if script.blocks && !h.released then (h, e)
  else feed settings now task run script.closing script h e

/-- Probes the result. That it cannot be probed, or has another duration, is no failure. -/
def check (settings : ServiceSettings) (h : Host) (e : Execution) : Host × Execution :=
  let path := resultPath settings e.job.id
  match (h.outside.probe path).readDuration path with
  | .ok _ | .error (.failed _) => (h, { e with stage := .storing })
  | .error fault => fail settings (.unexpected fault.message) h e

/-- Stores the result and completes the job. -/
def store (settings : ServiceSettings) (now : Instant) (h : Host) (e : Execution) :
    Host × Execution :=
  let job := e.job.updateProgress storingProgress (some "uploading")
  let key := resultKey e.job.id
  match h.store (resultPath settings e.job.id) key with
  | (.error failure, h) => fail settings failure h { e with job }
  | (.ok (), h) =>
    match h.resultUrl key settings.downloadUrlExpiryHours with
    | (.error failure, h) => fail settings failure h { e with job }
    | (.ok url, h) =>
      match job.markCompleted now url with
      | .ok job => finish settings .completed h { e with job }
      | .error fault =>
        match fault.exportError? with
        | some error => fail settings (.reported error) h { e with job }
        | none => fail settings (.unexpected fault.message) h { e with job }

/-- Carries an export on to its next suspension. -/
def step (settings : ServiceSettings) (now : Instant) (h : Host) (e : Execution) :
    Host × Execution :=
  match e.stage with
  | .ready => begin settings h e
  | .resolving => resolve settings h e
  | .drawing timeline => draw settings timeline h e
  | .compiling elements audio overlay => compileAndStart settings now elements audio overlay h e
  | .rendering task run script => awaitEngine settings now task run script h e
  | .checking => check settings h e
  | .storing => store settings now h e
  | .stopping => finish settings .cancelled h e
  | .ended _ => (h, e)

/-- Kills the engine, if the export waits for it and the process has not exited. -/
def killEngine (h : Host) (e : Execution) : Host × Execution :=
  match e.stage with
  | .rendering _ run _ =>
    let process := run.kill.process
    ({ h with killed := h.killed + if process = .killed then 1 else 0 },
      { e with engine := some process })
  | _ => (h, e)

/-- Cancels an export. One that has not begun ends at once; the engine is killed; every other
stage is left to clean up. -/
def cancel (h : Host) (e : Execution) : Host × Execution :=
  match e.stage with
  | .ready => (h, { e with stage := .ended .cancelled })
  | .ended _ => (h, e)
  | stage =>
    let (h, e) := e.killEngine h
    (h, { e with stage := .stopping, strayThread := e.strayThread || stage.usesThread })

/-- Ends an export at whatever stage it is, with a failure or because something it waited for was
cancelled. The engine is killed only at a cancellation and when something took too long. An export
that has ended may still fail as its directory is removed. -/
def breakOff (settings : ServiceSettings) (outcome : ExportOutcome) (h : Host) (e : Execution) :
    Host × Execution :=
  match outcome with
  | .completed => (h, e)
  | outcome =>
    if e.stage.ownsDirectory then
      let (h, e) := if outcome.stopsEngine then e.killEngine h else (h, e)
      finish settings outcome h e
    else (h, { e with stage := .ended outcome })

end Execution

end TimelineExport
