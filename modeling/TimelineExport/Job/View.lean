import TimelineExport.Job.Basic
import TimelineExport.Json.Value

/-!
# Views of a job

What a client sees of a job: all of it, or the summary that stands in a list. How a moment is
written is left open.
-/

namespace TimelineExport.Job

/-- The whole job as JSON. -/
def toJson (time : Instant → Json) (j : Job Float) : Json :=
  .object [("id", .text j.id), ("status", .text j.status.name), ("progress", .int j.progress),
    ("stage", .ofOption .text j.stage), ("error", .ofOption .text j.error),
    ("errorKind", .ofOption .text j.errorKind), ("downloadUrl", .ofOption .text j.downloadUrl),
    ("warnings", .ofList .text j.warnings), ("durationMs", .float j.durationMs),
    ("createdAt", time j.createdAt), ("startedAt", .ofOption time j.startedAt),
    ("completedAt", .ofOption time j.completedAt)]

/-- The summary of a job as JSON. -/
def summary (time : Instant → Json) (j : Job Float) : Json :=
  .object [("id", .text j.id), ("status", .text j.status.name), ("progress", .int j.progress),
    ("createdAt", time j.createdAt), ("completedAt", .ofOption time j.completedAt),
    ("error", .ofOption .text j.error)]

end TimelineExport.Job
