import TimelineExport.Audio.Tempo
import TimelineExport.Filter.Graph

/-!
# Why a timeline does not compile

A timeline that was validated always compiles. Other timelines may lack a source, have a speed
that cannot be reached, hold a number that cannot be rounded, or have no positive duration; and
a closing check of the graph guards the result.
-/

namespace TimelineExport

/-- Why a timeline does not compile. -/
inductive CompileFault (α : Type) where
  | noDuration
  | noSource
  | tempo (speed : α) (fault : TempoFault)
  | unrounded (fault : NonFinite)
  | graph (fault : GraphFault)
  deriving Repr

/-- What a reader is told about a timeline that does not compile. How a speed is written is left
open. -/
def CompileFault.message {α : Type} (written : α → String) : CompileFault α → String
  | noDuration => "output duration must be positive"
  | noSource => "None"
  | tempo speed fault => fault.message (written speed)
  | unrounded fault => fault.message
  | graph fault => fault.message

/-- Appends a chain that gives one new stream, and gives its label. -/
def Graph.grow {α : Type} (g : Graph α) (stem : String) (inputs : List String)
    (filters : List (Filter α)) : String × Graph α :=
  let (label, g) := g.newLabel stem
  (label, { g with chains := g.chains ++ [⟨inputs, filters, [label]⟩] })

/-- Appends a chain that gives a stream of a fixed label. -/
def Graph.place {α : Type} (g : Graph α) (inputs : List String) (filters : List (Filter α))
    (label : String) : Graph α :=
  { g with chains := g.chains ++ [⟨inputs, filters, [label]⟩] }

end TimelineExport
