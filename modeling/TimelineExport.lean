import TimelineExport.Asset.Acquire
import TimelineExport.Asset.Cache
import TimelineExport.Asset.Download
import TimelineExport.Asset.Fault
import TimelineExport.Asset.Load
import TimelineExport.Asset.Resolve
import TimelineExport.Asset.View
import TimelineExport.Audio.Mixer
import TimelineExport.Audio.Tempo
import TimelineExport.Client.Api
import TimelineExport.Client.Fault
import TimelineExport.Client.Poller
import TimelineExport.Compile.Fault
import TimelineExport.Compile.Program
import TimelineExport.Compile.Segment
import TimelineExport.Digest.Sha1
import TimelineExport.Engine.Command
import TimelineExport.Engine.Fault
import TimelineExport.Engine.Progress
import TimelineExport.Engine.Run
import TimelineExport.Engine.Script
import TimelineExport.Error.Basic
import TimelineExport.Error.Code
import TimelineExport.Error.Envelope
import TimelineExport.Export.Settings
import TimelineExport.Files.Content
import TimelineExport.Files.Stored
import TimelineExport.Files.Tree
import TimelineExport.Filter.Basic
import TimelineExport.Filter.Graph
import TimelineExport.Filter.Text
import TimelineExport.Job.Basic
import TimelineExport.Job.Calendar
import TimelineExport.Job.View
import TimelineExport.Json.Access
import TimelineExport.Json.Display
import TimelineExport.Json.Reader
import TimelineExport.Json.Shape
import TimelineExport.Json.Value
import TimelineExport.Json.Writer
import TimelineExport.Media.Probe
import TimelineExport.Net.Address
import TimelineExport.Net.Host
import TimelineExport.Net.Network
import TimelineExport.Net.Percent
import TimelineExport.Net.Retry
import TimelineExport.Net.SourceUrl
import TimelineExport.Net.UrlLibrary
import TimelineExport.Number.Decimal
import TimelineExport.Number.Notation
import TimelineExport.Number.Numeral
import TimelineExport.Number.Scalar
import TimelineExport.Number.Shortest
import TimelineExport.Overlay.Compose
import TimelineExport.Overlay.Fault
import TimelineExport.Overlay.Pass
import TimelineExport.Overlay.Render
import TimelineExport.Overlay.Sprite
import TimelineExport.Overlay.State
import TimelineExport.Overlay.View
import TimelineExport.Paint.Color
import TimelineExport.Paint.ColorLibrary
import TimelineExport.Paint.ColorName
import TimelineExport.Paint.ColorReader
import TimelineExport.Paint.Painter
import TimelineExport.Paint.Raster
import TimelineExport.Paint.Shadow
import TimelineExport.Proofs.Asset.Acquire
import TimelineExport.Proofs.Asset.Cache
import TimelineExport.Proofs.Asset.Fetch
import TimelineExport.Proofs.Asset.Gather
import TimelineExport.Proofs.Asset.Join
import TimelineExport.Proofs.Asset.Lease
import TimelineExport.Proofs.Asset.Lenient
import TimelineExport.Proofs.Asset.Release
import TimelineExport.Proofs.Asset.Resolve
import TimelineExport.Proofs.Audio.Growth
import TimelineExport.Proofs.Audio.Length
import TimelineExport.Proofs.Audio.Mixdown
import TimelineExport.Proofs.Audio.Tempo
import TimelineExport.Proofs.Audio.TempoRun
import TimelineExport.Proofs.Client.Poll
import TimelineExport.Proofs.Client.Watch
import TimelineExport.Proofs.Compile.Chains
import TimelineExport.Proofs.Compile.ClipFilters
import TimelineExport.Proofs.Compile.Closed
import TimelineExport.Proofs.Compile.Inputs
import TimelineExport.Proofs.Compile.Layers
import TimelineExport.Proofs.Compile.LeadIn
import TimelineExport.Proofs.Compile.Placement
import TimelineExport.Proofs.Compile.Topology
import TimelineExport.Proofs.Compile.Total
import TimelineExport.Proofs.Compile.Usage
import TimelineExport.Proofs.Compile.Windows
import TimelineExport.Proofs.Engine.Command
import TimelineExport.Proofs.Engine.Process
import TimelineExport.Proofs.Engine.Progress
import TimelineExport.Proofs.Files.Tree
import TimelineExport.Proofs.Filter.Acceptance
import TimelineExport.Proofs.Filter.Expression
import TimelineExport.Proofs.Filter.Label
import TimelineExport.Proofs.Filter.Playback
import TimelineExport.Proofs.Filter.Reading
import TimelineExport.Proofs.Filter.Renaming
import TimelineExport.Proofs.Filter.Route
import TimelineExport.Proofs.Filter.Value
import TimelineExport.Proofs.Filter.Wiring
import TimelineExport.Proofs.Job.Change
import TimelineExport.Proofs.Job.Record
import TimelineExport.Proofs.Lookup
import TimelineExport.Proofs.Media.Probe
import TimelineExport.Proofs.Number.FloatOrder
import TimelineExport.Proofs.Number.PlainText
import TimelineExport.Proofs.Number.Rational
import TimelineExport.Proofs.Number.Shortest
import TimelineExport.Proofs.Outcome
import TimelineExport.Proofs.Overlay.Animation
import TimelineExport.Proofs.Overlay.Completion
import TimelineExport.Proofs.Overlay.Pass
import TimelineExport.Proofs.Overlay.Rendering
import TimelineExport.Proofs.Overlay.Reuse
import TimelineExport.Proofs.Schema.Restored
import TimelineExport.Proofs.Server.Cause
import TimelineExport.Proofs.Server.Division
import TimelineExport.Proofs.Server.Ending
import TimelineExport.Proofs.Server.Envelope
import TimelineExport.Proofs.Server.Execution
import TimelineExport.Proofs.Server.Leaving
import TimelineExport.Proofs.Server.Occupancy
import TimelineExport.Proofs.Server.Orchestrator
import TimelineExport.Proofs.Server.Outcome
import TimelineExport.Proofs.Server.Probing
import TimelineExport.Proofs.Server.Raising
import TimelineExport.Proofs.Server.Remains
import TimelineExport.Proofs.Server.Retention
import TimelineExport.Proofs.Server.Slots
import TimelineExport.Proofs.Server.Supervision
import TimelineExport.Proofs.Timeline.Accepted
import TimelineExport.Proofs.Timeline.Exportable
import TimelineExport.Proofs.Timeline.Restored
import TimelineExport.Proofs.Timeline.SourceRange
import TimelineExport.Proofs.Timeline.WellTimed
import TimelineExport.Proofs.Timeline.Windows
import TimelineExport.Schema.Checked
import TimelineExport.Server.Endpoint
import TimelineExport.Server.Framework
import TimelineExport.Server.Host
import TimelineExport.Server.Http
import TimelineExport.Server.Orchestrator
import TimelineExport.Server.Router
import TimelineExport.Server.Script
import TimelineExport.Server.Stage
import TimelineExport.Server.Supervision
import TimelineExport.Service.Settings
import TimelineExport.Storage.Cloud
import TimelineExport.Storage.Local
import TimelineExport.Text.Blank
import TimelineExport.Text.Digit
import TimelineExport.Text.Path
import TimelineExport.Text.Printable
import TimelineExport.Text.Quoted
import TimelineExport.Text.Utf8
import TimelineExport.Timeline.Classify
import TimelineExport.Timeline.Codec
import TimelineExport.Timeline.Element
import TimelineExport.Timeline.Validation
import TimelineExport.Words.Block
import TimelineExport.Words.BlockStyle
import TimelineExport.Words.CellPainter
import TimelineExport.Words.Font
import TimelineExport.Words.Layout
import TimelineExport.Words.Run
import TimelineExport.Words.View
import TimelineExport.Proofs.Overlay.Listing
import TimelineExport.Proofs.Asset.History
import TimelineExport.Proofs.Asset.Eviction
import TimelineExport.Proofs.Asset.Coalescing
import TimelineExport.Proofs.Number.Rounding
import TimelineExport.Proofs.Asset.Download
import TimelineExport.Proofs.Words.Layout
import TimelineExport.Proofs.Words.Width
import TimelineExport.Proofs.Number.Digits
import TimelineExport.Proofs.Paint.Color
import TimelineExport.Proofs.Words.Style
import TimelineExport.Proofs.Asset.Sound
import TimelineExport.Proofs.Words.Caption
import TimelineExport.Proofs.Storage.Local
import TimelineExport.Proofs.Compile.Labels
