import TimelineExport.Compile.Program
import TimelineExport.Service.Settings

/-!
# The command of the render engine

`engineCommand` is the whole command that renders a program: the inputs, the filter program, the
encoder's parameters and the output. The encoder's parameters follow from the settings and the
duration alone (`EncoderOptions.choose`); the filter program does not depend on them.
-/

namespace TimelineExport

/-- The encoder's parameters. -/
structure EncoderOptions where
  /-- The constant rate factor; lower is better. -/
  rateFactor : Nat
  preset : String
  audioBitrate : String
  deriving DecidableEq, Repr

/-- Exports above this duration are encoded faster unless the settings say otherwise. -/
def longExportMs {α : Type} [Scalar α] : α := 180000

/-- The encoder's preset. -/
def Optimization.preset {α : Type} [Scalar α] (durationMs : α) : Optimization → String
  | auto => if durationMs > longExportMs then "fast" else "medium"
  | speed => "veryfast"
  | balanced => "medium"
  | quality => "slow"

/-- The constant rate factor of a quality tier. -/
def Quality.rateFactor : Quality → Nat
  | low => 28
  | medium => 23
  | high => 18

/-- The bitrate of the sound in a quality tier. -/
def Quality.audioBitrate : Quality → String
  | low => "128k"
  | medium => "192k"
  | high => "256k"

/-- The encoder's parameters for an export. -/
def EncoderOptions.choose {α : Type} [Scalar α] (settings : ExportSettings) (durationMs : α) :
    EncoderOptions where
  rateFactor := settings.quality.rateFactor
  preset := settings.optimization.preset durationMs
  audioBitrate := settings.quality.audioBitrate

/-- The command that renders a program into a file. -/
def engineCommand (service : ServiceSettings) (settings : ExportSettings)
    (program : Program Float) (output : String) : List String :=
  let options := EncoderOptions.choose settings program.durationMs
  [service.ffmpegPath, "-y", "-hide_banner", "-nostdin"] ++
    program.inputs.flatMap Input.arguments ++
    ["-filter_complex", program.graph.render,
      "-map", "[" ++ videoOutput ++ "]", "-map", "[" ++ audioOutput ++ "]",
      "-c:v", "libx264", "-preset", options.preset, "-crf", toString options.rateFactor,
      "-r", toString settings.fps, "-pix_fmt", "yuv420p",
      "-c:a", "aac", "-b:a", options.audioBitrate, "-ar", toString service.audioSampleRate,
      "-threads", toString service.engineThreads,
      "-max_muxing_queue_size", toString service.engineMuxingQueue,
      "-movflags", "+faststart", "-t", fixedText 3 (program.durationMs / 1000),
      "-progress", "pipe:1", "-nostats", output]

end TimelineExport
