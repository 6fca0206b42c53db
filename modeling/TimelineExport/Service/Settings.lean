import TimelineExport.Export.Settings
import TimelineExport.Json.Reader

/-!
# Settings of the service

`ServiceSettings` are the options of a running service: where results are stored, which programs
render and probe, how many exports run at once, and how much is retried and kept. They are
decoded from a record of overrides; what is not given has a default.
-/

namespace TimelineExport

/-- Where the service runs. -/
inductive Environment where
  | development
  | staging
  | production
  deriving DecidableEq, Repr

namespace Environment

/-- All environments. -/
def all : List Environment := [development, staging, production]

/-- The name of an environment. -/
def name : Environment → String
  | development => "development"
  | staging => "staging"
  | production => "production"

end Environment

/-- What happens when the overlay cannot be rendered: the export fails, or goes on without it. -/
inductive OverlayPolicy where
  | fail
  | degrade
  deriving DecidableEq, Repr

namespace OverlayPolicy

/-- Both policies. -/
def all : List OverlayPolicy := [fail, degrade]

/-- The name of a policy. -/
def name : OverlayPolicy → String
  | fail => "fail"
  | degrade => "degrade"

end OverlayPolicy

/-- The options of a running service. -/
structure ServiceSettings where
  appName : String := "Lemona Export API"
  appVersion : String := "0.1.0"
  environment : Environment := .development
  debug : Bool := true
  logLevel : String := "INFO"
  corsOriginsRaw : String := "http://localhost:3000,http://localhost:5173"
  useLocalStorage : Bool := true
  localStoragePath : String := "/tmp/lemona-exports"
  publicBaseUrl : String := "http://localhost:8000"
  bucketName : String := "lemona-exports"
  projectId : String := ""
  downloadUrlExpiryHours : Int := 24
  ffmpegPath : String := "ffmpeg"
  ffprobePath : String := "ffprobe"
  /-- The directory in which running exports have their files. It is not shown to clients. -/
  workDirectory : String := "/tmp"
  maxConcurrentJobs : Int := 2
  /-- The deadline of a whole export. -/
  jobTimeoutS : Int := 5400
  /-- Records of finished exports older than this are dropped; zero keeps them. -/
  jobRetentionHours : Int := 24
  /-- The deadline of the render engine alone. -/
  engineTimeoutS : Int := 3600
  engineThreads : Int := 2
  engineMuxingQueue : Int := 1024
  audioSampleRate : Int := 48000
  verifyOutputDuration : Bool := true
  assetPolicy : AssetPolicy := .strict
  assetDownloadTimeoutS : Float := 30
  assetDownloadRetries : Int := 3
  assetRetryBaseDelayS : Float := 1
  assetCacheMaxEntries : Int := 256
  assetCacheMaxBytes : Int := 8589934592
  overlayFailurePolicy : OverlayPolicy := .fail
  overlayWorkers : Int := 4

namespace ServiceSettings

/-- Decodes a record of overrides. -/
def ofJson : Decoder ServiceSettings :=
  Decoder.model "Settings" fun m =>
    let d : ServiceSettings := {}
    let text (name : String) := optional m [name] .text
    let integer (name : String) := optional m [name] .integer
    let float (name : String) := optional m [name] .float
    let truth (name : String) := optional m [name] .truth
    ServiceSettings.mk <$> text "app_name" d.appName
      <*> text "app_version" d.appVersion
      <*> optional m ["environment"] (.among Environment.all Environment.name) d.environment
      <*> truth "debug" d.debug
      <*> text "log_level" d.logLevel
      <*> text "cors_origins_raw" d.corsOriginsRaw
      <*> truth "use_local_storage" d.useLocalStorage
      <*> text "local_storage_path" d.localStoragePath
      <*> text "public_base_url" d.publicBaseUrl
      <*> text "gcs_bucket_name" d.bucketName
      <*> text "gcs_project_id" d.projectId
      <*> integer "download_url_expiry_hours" d.downloadUrlExpiryHours
      <*> text "ffmpeg_path" d.ffmpegPath
      <*> text "ffprobe_path" d.ffprobePath
      <*> text "export_temp_dir" d.workDirectory
      <*> integer "max_concurrent_jobs" d.maxConcurrentJobs
      <*> integer "job_timeout_s" d.jobTimeoutS
      <*> integer "job_retention_hours" d.jobRetentionHours
      <*> integer "engine_timeout_s" d.engineTimeoutS
      <*> integer "render_ffmpeg_threads" d.engineThreads
      <*> integer "render_ffmpeg_max_muxing_queue" d.engineMuxingQueue
      <*> integer "render_audio_sample_rate" d.audioSampleRate
      <*> truth "verify_output_duration" d.verifyOutputDuration
      <*> optional m ["asset_policy"] (.among AssetPolicy.all AssetPolicy.name) d.assetPolicy
      <*> float "asset_download_timeout_s" d.assetDownloadTimeoutS
      <*> integer "asset_download_retries" d.assetDownloadRetries
      <*> float "asset_retry_base_delay_s" d.assetRetryBaseDelayS
      <*> integer "asset_cache_max_entries" d.assetCacheMaxEntries
      <*> integer "asset_cache_max_bytes" d.assetCacheMaxBytes
      <*> optional m ["overlay_failure_policy"] (.among OverlayPolicy.all OverlayPolicy.name)
        d.overlayFailurePolicy
      <*> integer "overlay_render_workers" d.overlayWorkers

/-- Splits a text at a character and keeps the trimmed parts that are not empty. -/
def splitTrimmed (s : String) (c : Char) : List String :=
  ((s.splitOn (String.singleton c)).map trimText).filter (· ≠ "")

/-- The origins from which browsers may call: a JSON list, or a list separated by bars or
commas. What looks like a list but is no JSON is separated; an integer with too many digits is a
fault of its own. -/
def corsOrigins (s : ServiceSettings) : Except Json.ReadFault (List Json) :=
  let raw := s.corsOriginsRaw
  let separated :=
    (splitTrimmed raw (if raw.toList.contains '|' then '|' else ',')).map Json.text
  if raw.toList.head? = some '[' then
    match Json.read raw with
    | .ok (.array items) => .ok items
    | .ok _ => .ok separated
    | .error fault => if fault.isOverlong then .error fault else .ok separated
  else .ok separated

/-- The options as JSON. -/
def toJson (s : ServiceSettings) : Except Json.ReadFault Json := do
  let origins ← s.corsOrigins
  return .object [("app_name", .text s.appName), ("app_version", .text s.appVersion),
    ("environment", .text s.environment.name), ("debug", .bool s.debug),
    ("log_level", .text s.logLevel), ("cors_origins_raw", .text s.corsOriginsRaw),
    ("cors_origins", .array origins), ("use_local_storage", .bool s.useLocalStorage),
    ("local_storage_path", .text s.localStoragePath), ("public_base_url", .text s.publicBaseUrl),
    ("gcs_bucket_name", .text s.bucketName), ("gcs_project_id", .text s.projectId),
    ("download_url_expiry_hours", .int s.downloadUrlExpiryHours),
    ("ffmpeg_path", .text s.ffmpegPath), ("ffprobe_path", .text s.ffprobePath),
    ("max_concurrent_jobs", .int s.maxConcurrentJobs), ("job_timeout_s", .int s.jobTimeoutS),
    ("job_retention_hours", .int s.jobRetentionHours),
    ("engine_timeout_s", .int s.engineTimeoutS), ("render_ffmpeg_threads", .int s.engineThreads),
    ("render_ffmpeg_max_muxing_queue", .int s.engineMuxingQueue),
    ("render_audio_sample_rate", .int s.audioSampleRate),
    ("verify_output_duration", .bool s.verifyOutputDuration),
    ("asset_policy", .text s.assetPolicy.name),
    ("asset_download_timeout_s", .float s.assetDownloadTimeoutS),
    ("asset_download_retries", .int s.assetDownloadRetries),
    ("asset_retry_base_delay_s", .float s.assetRetryBaseDelayS),
    ("asset_cache_max_entries", .int s.assetCacheMaxEntries),
    ("asset_cache_max_bytes", .int s.assetCacheMaxBytes),
    ("overlay_failure_policy", .text s.overlayFailurePolicy.name),
    ("overlay_render_workers", .int s.overlayWorkers)]

end ServiceSettings

end TimelineExport
