import TimelineExport.Json.Value
import TimelineExport.Number.Notation
import TimelineExport.Text.Quoted

/-!
# JSON values in messages

A message may show a value: texts in quotes, lists in brackets, objects in braces, and the words
`None`, `True` and `False`. A text that is the whole message stands without quotes.
-/

namespace TimelineExport.Json

mutual

/-- A value as a part of a message. -/
def display : Json → String
  | .null => "None"
  | .bool b => if b then "True" else "False"
  | .int n => toString n
  | .float x => shortestText x
  | .text s => quoted s
  | .array items => "[" ++ ", ".intercalate (displayItems items) ++ "]"
  | .object members => "\x7b" ++ ", ".intercalate (displayMembers members) ++ "\x7d"

/-- The items of a list, one by one. -/
def displayItems : List Json → List String
  | [] => []
  | v :: vs => display v :: displayItems vs

/-- The members of an object, one by one. -/
def displayMembers : List (String × Json) → List String
  | [] => []
  | (name, v) :: rest => (quoted name ++ ": " ++ display v) :: displayMembers rest

end

/-- A value as a whole message. -/
def messageText : Json → String
  | .text s => s
  | v => display v

end TimelineExport.Json
