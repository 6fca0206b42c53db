import TimelineExport.Filter.Basic
import TimelineExport.Number.Notation
import TimelineExport.Text.Blank

/-!
# The text of a filter program

A program is read in two passes: first as a graph, where separators and brackets count, and then
each filter's options, where the colon counts. `escape` writes an argument so that both passes
leave it alone: a backslash or colon gets a backslash for the second pass, and a text with any
special character is quoted for the first. Inside the quotes a single quote closes them, stands
escaped, and opens them again.
-/

namespace TimelineExport

/-- The characters with a meaning in a program, and white space. -/
def isSpecial (c : Char) : Bool :=
  c = ',' || c = ';' || c = '[' || c = ']' || c = '\'' || c = '\\' || c = ':' || isBlank c

/-- A character inside a quoted argument. -/
def escapeInQuotes (c : Char) : List Char :=
  if c = '\\' then ['\\', '\\']
  else if c = ':' then ['\\', ':']
  else if c = '\'' then ['\'', '\\', '\'', '\'']
  else [c]

/-- A text as an argument, quoted if it has a special character. -/
def escape (cs : List Char) : List Char :=
  if cs.any isSpecial then '\'' :: cs.flatMap escapeInQuotes ++ ['\''] else cs

/-- A text as an argument. -/
def escapeText (s : String) : String := String.ofList (escape s.toList)

/-- The text of a piece of a formula. -/
def Piece.render : Piece Float → String
  | text s => s
  | number x => numberText x
  | seconds ms => secondsText ms

/-- The text of a formula. -/
def renderFormula (f : Formula Float) : String := String.join (f.map Piece.render)

/-- The text of an argument as it stands in a program. -/
def Arg.render : Arg Float → String
  | int n => toString n
  | bool b => if b then "1" else "0"
  | number x => numberText x
  | formula f => escapeText (renderFormula f)

namespace Filter

/-- The arguments of a filter as they stand in a program. -/
def argumentTexts (f : Filter Float) : List String :=
  f.positional.map Arg.render ++ f.options.map fun (key, v) => key ++ "=" ++ v.render

/-- The text of a filter. -/
def render (f : Filter Float) : String :=
  let args := f.argumentTexts
  if args.isEmpty then f.name else f.name ++ "=" ++ ":".intercalate args

end Filter

/-- The labels of streams in brackets. -/
def renderLabels (labels : List String) : String :=
  String.join (labels.map fun label => "[" ++ label ++ "]")

/-- The text of a chain. -/
def Chain.render (c : Chain Float) : String :=
  renderLabels c.inputs ++ ",".intercalate (c.filters.map Filter.render) ++
    renderLabels c.outputs

/-- The arguments with which the engine is given an input. -/
def Input.arguments : Input Float → List String
  | file path => ["-i", path]
  | generated source => ["-f", "lavfi", "-i", renderFormula source]
  | pictures pattern fps =>
    ["-framerate", toString fps, "-start_number", "0", "-f", "image2", "-i", pattern]

/-! ### Equality of filters -/

/-- The numeric value of an argument that is a number. -/
def Arg.numeric? : Arg Float → Option (Except Float Int)
  | int n => some (.ok n)
  | bool b => some (.ok (if b then 1 else 0))
  | number x =>
    some (match exactValue x with
      | .ok q => if q.den = 1 then .ok q.num else .error x
      | .error _ => .error x)
  | formula _ => none

/-- Whether two arguments have the same value. Numbers are compared by value, whatever their
type, and texts as they are written. -/
def Arg.sameValue (a b : Arg Float) : Bool :=
  match a.numeric?, b.numeric? with
  | some (.ok m), some (.ok n) => m = n
  | some (.error x), some (.error y) => x == y
  | some _, some _ => false
  | none, none => renderFormula (textOf a) = renderFormula (textOf b)
  | _, _ => false
where
  /-- The formula of an argument that is one. -/
  textOf : Arg Float → Formula Float
    | formula f => f
    | _ => []

/-- Whether two filters have the same name, the same positional arguments in order and the same
options in any order. -/
def Filter.sameAs (f g : Filter Float) : Bool :=
  f.name = g.name && f.positional.length = g.positional.length &&
    (f.positional.zip g.positional).all (fun (a, b) => a.sameValue b) &&
    f.options.length = g.options.length &&
    f.options.all fun (key, a) => (g.options.lookup key).any a.sameValue

end TimelineExport
