/-!
# JSON values

Timelines arrive as JSON, and job views and error envelopes leave as JSON. A number keeps
whether it was written as an integer or as a real, and an object keeps its members in the order
in which their names first occur.
-/

namespace TimelineExport

/-- A JSON value. -/
inductive Json where
  | null
  | bool (b : Bool)
  | int (n : Int)
  | float (x : Float)
  | text (s : String)
  | array (items : List Json)
  | object (members : List (String × Json))
  deriving Inhabited, Repr

namespace Json

/-- Adds a member. A name that is present keeps its place and takes the new value. -/
def insert (members : List (String × Json)) (name : String) (value : Json) :
    List (String × Json) :=
  if members.any (·.1 == name) then
    members.map fun m => if m.1 == name then (name, value) else m
  else members ++ [(name, value)]

/-- The value of a member, if there is one. -/
def find? (members : List (String × Json)) (name : String) : Option Json :=
  (members.find? (·.1 == name)).map (·.2)

/-- The member of an object, if the value is an object that has it. -/
def member? : Json → String → Option Json
  | .object members, name => find? members name
  | _, _ => none

/-- The value, or `null` where there is none. -/
def ofOption {α : Type} (f : α → Json) : Option α → Json
  | none => .null
  | some a => f a

/-- The values as an array. -/
def ofList {α : Type} (f : α → Json) (xs : List α) : Json := .array (xs.map f)

/-- Whether a value counts as true: everything but null, false, zero and what is empty. -/
def isTruthy : Json → Bool
  | .null => false
  | .bool b => b
  | .int n => n != 0
  | .float x => !(x == 0)
  | .text s => s != ""
  | .array items => !items.isEmpty
  | .object members => !members.isEmpty

end Json

end TimelineExport
