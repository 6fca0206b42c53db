import TimelineExport.Engine.Fault
import TimelineExport.Number.Numeral
import TimelineExport.Number.Scalar

/-!
# Progress lines of the render engine

While it runs, the engine prints lines that say how much of the output is done: the elapsed
output time in microseconds, or that it has come to its end. `readProgress` turns a line into the
completed fraction, between zero and one; lines that say nothing of the kind give none.
-/

namespace TimelineExport

/-- What a line says about the progress. -/
inductive ProgressLine where
  | elapsed (microseconds : Int)
  | finished
  | other
  deriving DecidableEq, Repr

namespace ProgressLine

/-- The elapsed time that a text spells. Before the first frame it spells none. -/
def ofElapsed (cs : List Char) : ProgressLine :=
  if maxDigits < cs.countP isDecimalDigit then other
  else
    match Numeral.readInt? (String.ofList cs) with
    | some n => elapsed n
    | none => other

/-- Reads a line. Two keys give the elapsed time, and both in microseconds. -/
def ofText (line : String) : ProgressLine :=
  let cs := line.toList
  match ("out_time_us=".toList.isPrefixOf? cs).or ("out_time_ms=".toList.isPrefixOf? cs) with
  | some value => ofElapsed value
  | none => if "progress=end".toList.isPrefixOf cs then finished else other

end ProgressLine

/-- The completed fraction that a line reports of an output of the given duration. -/
def readProgress {α : Type} [Scalar α] (durationMs : α) (line : String) :
    Except EngineFault (Option α) :=
  match ProgressLine.ofText line with
  | .other => .ok none
  | .finished => .ok (some 1)
  | .elapsed us =>
    if durationMs ≤ 0 then .ok none
    else
      match Scalar.thousandths us with
      | none => .error .elapsedTooLarge
      | some ms => .ok (some (Scalar.greatest 0 (Scalar.least 1 (ms / durationMs))))

end TimelineExport
