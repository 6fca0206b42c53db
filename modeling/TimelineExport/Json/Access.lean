import TimelineExport.Json.Value
import TimelineExport.Number.Numeral

/-!
# Lenient access to JSON values

Descriptions that are trusted are read without checks: what is not there is null, and a value of
another type than expected counts as empty.
-/

namespace TimelineExport.Json

/-- A member, or null. -/
def get (v : Json) (name : String) : Json := (v.member? name).getD .null

/-- Whether there is a member of a name. -/
def has (v : Json) (name : String) : Bool := (v.member? name).isSome

/-- The items of an array. -/
def items : Json → List Json
  | .array xs => xs
  | _ => []

/-- The members of an object. -/
def members : Json → List (String × Json)
  | .object ms => ms
  | _ => []

/-- An item of an array, or null. -/
def item (v : Json) (index : Nat) : Json := v.items.getD index .null

/-- A text, if the value is one. -/
def text? : Json → Option String
  | .text s => some s
  | _ => none

/-- A text. -/
def asText (v : Json) : String := v.text?.getD ""

/-- Whether the value is null. -/
def isNull : Json → Bool
  | .null => true
  | _ => false

/-- An integer; a real is cut down to one. -/
def asInt : Json → Int
  | .int n => n
  | .bool b => if b then 1 else 0
  | .float x =>
    match exactValue x with
    | .ok q => q.floor
    | .error _ => 0
  | _ => 0

/-- A real, which may be written as a text. -/
def asFloat : Json → Float
  | .int n => Float.ofInt n
  | .float x => x
  | .text s => (Numeral.readFloat? s).getD 0
  | .bool b => if b then 1 else 0
  | _ => 0

/-- A value that is not null. -/
def given? (v : Json) (name : String) : Option Json := (v.member? name).filter (!·.isNull)

/-- A number that counts something. -/
def asNat (v : Json) : Nat := v.asInt.toNat

/-- A member read in some way, unless it is absent. -/
def getOr {α : Type} (v : Json) (name : String) (read : Json → α) (default : α) : α :=
  ((v.member? name).map read).getD default

end TimelineExport.Json
