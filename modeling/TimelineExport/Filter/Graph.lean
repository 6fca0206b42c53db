import TimelineExport.Filter.Text
import TimelineExport.Text.Digit

/-!
# Filter graphs

A filter graph is a list of chains under construction. `add` appends a chain, `newLabel` gives a
label that was not given before, `relabel` renames a stream everywhere, and `extend` appends
filters to the chain that gives a stream. `validate` checks that the finished graph is closed:
every stream is given once and taken once, except the outputs of the program, which are given
and never taken, and the streams of the inputs, which are taken and never given. It reads the
numbers of the inputs, so that a number of too many digits is a fault as well.
-/

namespace TimelineExport

variable {α : Type}

/-- What is wrong with a filter graph. -/
inductive GraphFault where
  | emptyChain
  | unknownLabel (label : String)
  | missingInput (label : String)
  /-- The number of an input has so many digits, which are too many to be read. -/
  | overlongNumber (digits : Nat)
  | producedTwice (label : String) (times : Nat)
  | outputMissing (label : String)
  | outputConsumed (label : String)
  | neverProduced (label : String)
  | consumedTwice (label : String) (times : Nat)
  | unused (label : String)
  deriving DecidableEq, Repr

/-- What a reader is told about a fault. -/
def GraphFault.message : GraphFault → String
  | emptyChain => "a filter chain needs at least one filter"
  | unknownLabel label => "no chain produces [" ++ label ++ "]"
  | missingInput label => "[" ++ label ++ "] references a missing input"
  | overlongNumber digits => tooManyDigits digits
  | producedTwice label times => "[" ++ label ++ "] is produced " ++ toString times ++ " times"
  | outputMissing label => "output [" ++ label ++ "] is not produced"
  | outputConsumed label => "output [" ++ label ++ "] must not be consumed"
  | neverProduced label => "[" ++ label ++ "] is consumed but never produced"
  | consumedTwice label times => "[" ++ label ++ "] is consumed " ++ toString times ++ " times"
  | unused label => "[" ++ label ++ "] is produced but never used"

/-- The input to whose stream a label refers, if it has that shape. -/
def streamInput? (label : String) : Option Nat := streamOfChars? digitValue? none label.toList

/-- The number of digits with which a label begins. -/
def leadingDigits (label : String) : Nat := (label.toList.takeWhile isDecimalDigit).length

/-- A filter graph: its chains, and how many labels were given for each stem. -/
structure Graph (α : Type) where
  chains : List (Chain α) := []
  given : List (String × Nat) := []
  deriving Repr

namespace Graph

/-- Appends a chain. A chain has at least one filter. -/
def add (g : Graph α) (inputs : List String) (filters : List (Filter α))
    (outputs : List String) : Except GraphFault (Graph α) :=
  if filters.isEmpty then .error .emptyChain
  else .ok { g with chains := g.chains ++ [⟨inputs, filters, outputs⟩] }

/-- How many labels were given for a stem. -/
def givenCount (g : Graph α) (stem : String) : Nat := (g.given.lookup stem).getD 0

/-- Gives the next label for a stem: the stem and a number. -/
def newLabel (g : Graph α) (stem : String) : String × Graph α :=
  let n := g.givenCount stem
  (stem ++ toString n, { g with given := (stem, n + 1) :: g.given.filter (·.1 ≠ stem) })

/-- The first chain that gives a stream. -/
def producer? (g : Graph α) (label : String) : Option (Chain α) :=
  g.chains.find? (·.outputs.contains label)

/-- The chains that take a stream. -/
def consumers (g : Graph α) (label : String) : List (Chain α) :=
  g.chains.filter (·.inputs.contains label)

/-- All filters of a name, in order. -/
def filtersNamed (g : Graph α) (name : String) : List (Filter α) :=
  (g.chains.flatMap (·.filters)).filter (·.name = name)

/-- One label under a renaming. -/
def renamed (old new label : String) : String := if label = old then new else label

/-- Renames a stream wherever it is given or taken. -/
def relabel (g : Graph α) (old new : String) : Except GraphFault (Graph α) :=
  if (g.producer? old).isNone then .error (.unknownLabel old)
  else .ok { g with
    chains := g.chains.map fun c =>
      { c with inputs := c.inputs.map (renamed old new), outputs := c.outputs.map (renamed old new) } }

/-- Appends filters to the first chain of a list that gives a stream. -/
def extendFirst (label : String) (filters : List (Filter α)) : List (Chain α) → List (Chain α)
  | [] => []
  | c :: cs =>
    if c.outputs.contains label then { c with filters := c.filters ++ filters } :: cs
    else c :: extendFirst label filters cs

/-- Appends filters to the first chain that gives a stream. -/
def extend (g : Graph α) (label : String) (filters : List (Filter α)) : Graph α :=
  { g with chains := extendFirst label filters g.chains }

/-- All labels that are given, in order. -/
def produced (g : Graph α) : List String := g.chains.flatMap (·.outputs)

/-- All labels that are taken, in order. -/
def taken (g : Graph α) : List String := g.chains.flatMap (·.inputs)

/-- The labels that are taken and are no streams of the inputs. -/
def consumed (g : Graph α) : List String := g.taken.filter fun label => (streamInput? label).isNone

/-- Fails with the first fault that a list of labels shows. -/
def firstFault (labels : List String) (fault? : String → Option GraphFault) :
    Except GraphFault Unit :=
  match labels.findSome? fault? with
  | some fault => .error fault
  | none => .ok ()

/-- The fault of a label that refers to an input: there is no such input. -/
def missingInput? (inputCount : Nat) (label : String) : Option GraphFault :=
  (streamInput? label).bind fun n => if inputCount ≤ n then some (.missingInput label) else none

/-- The fault of a label that refers to an input: its number cannot be read. -/
def overlongNumber? (label : String) : Option GraphFault :=
  (streamInput? label).bind fun _ =>
    if maxDigits < leadingDigits label then some (.overlongNumber (leadingDigits label)) else none

/-- Checks that the streams of the graph are given and taken once, and the outputs only given. -/
def checkStreams (g : Graph α) (outputs : List String) : Except GraphFault Unit := do
  let produced := g.produced
  let consumed := g.consumed
  firstFault produced fun label =>
    if 1 < produced.count label then some (.producedTwice label (produced.count label)) else none
  firstFault outputs fun label =>
    if produced.count label ≠ 1 then some (.outputMissing label)
    else if consumed.contains label then some (.outputConsumed label)
    else none
  firstFault consumed fun label =>
    if !produced.contains label then some (.neverProduced label)
    else if 1 < consumed.count label then some (.consumedTwice label (consumed.count label))
    else none
  firstFault produced fun label =>
    if !outputs.contains label && !consumed.contains label then some (.unused label) else none

/-- Checks that the graph is closed over so many inputs and gives the outputs. -/
def validate (g : Graph α) (inputCount : Nat) (outputs : List String) :
    Except GraphFault Unit := do
  firstFault g.taken fun label => (overlongNumber? label).or (missingInput? inputCount label)
  g.checkStreams outputs

/-- `validate` for a graph whose labels were made from the numbers of inputs. No list of inputs is
so long that a number of one of them could not be read. -/
def check (g : Graph α) (inputCount : Nat) (outputs : List String) : Except GraphFault Unit := do
  firstFault g.taken (missingInput? inputCount)
  g.checkStreams outputs

/-- The text of the program. -/
def render (g : Graph Float) : String := ";\n".intercalate (g.chains.map Chain.render)

end Graph

end TimelineExport
