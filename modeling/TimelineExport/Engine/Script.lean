import TimelineExport.Engine.Run

/-!
# What the engine is going to do

An `EngineScript` says what happens to one run of the engine when nothing from outside ends it:
what it prints, whether it then waits to be let go, and how it ends.
-/

namespace TimelineExport

/-- The course of one run of the engine. -/
structure EngineScript where
  /-- The program cannot be found. -/
  missing : Bool := false
  /-- What happens first. -/
  opening : List EngineEvent := []
  /-- Whether the run waits after that until it is let go. -/
  blocks : Bool := false
  /-- What happens then. -/
  closing : List EngineEvent := []
  deriving Repr

namespace EngineScript

/-- A run that prints some lines, ends its streams and exits. -/
def ofLines (output diagnostics : List String) (code : Int) (outputBytes : Option Nat)
    (blocks missing : Bool) : EngineScript :=
  { missing, blocks
    opening := output.map .output ++ diagnostics.map .diagnostic
    closing := [.streamsEnd, .exit code outputBytes] }

/-- What is printed when nothing else is said. -/
def usualOutput : List String := ["out_time_us=500000", "progress=end"]

/-- The script of the next run and those of the runs after it; the last one stays. -/
def next : List EngineScript → EngineScript × List EngineScript
  | [] => (ofLines usualOutput [] 0 (some 3) false false, [])
  | [s] => (s, [s])
  | s :: rest => (s, rest)

end EngineScript

end TimelineExport
