import TimelineExport.Json.Value
import TimelineExport.Number.Notation
import TimelineExport.Number.Numeral

/-!
# Checked decoding

A request is decoded from JSON field by field, and every fault is reported, in the order of the
fields. `Checked` is the result of decoding: a value, or the faults with their places.
Combining two results keeps the faults of both, which is what makes the report complete.

Numbers are taken leniently: a number may be written as a number, as a truth value or as a
text. Texts are not made from anything else.
-/

namespace TimelineExport

/-- One step on the way to a part of a JSON value. -/
inductive Step where
  | member (name : String)
  | item (index : Nat)
  deriving DecidableEq, Repr

/-- What is wrong with a part of a request. -/
inductive Fault where
  | missing
  | notText
  | notNumber
  | unreadableNumber
  | notInteger
  | unreadableInteger
  | fractional
  | notFinite
  | notAbove (bound : Int)
  | below (bound : Int)
  | above (bound : Int)
  | notAmong (allowed : List String)
  | notList
  | notObject
  /-- The part should be an object that describes the thing named. -/
  | notModel (model : String)
  | notTruth
  | unreadableTruth
  | notSettable
  deriving DecidableEq, Repr

/-- Alternatives in a sentence: the last two are joined by "or". -/
def alternatives : List String → String
  | [] => ""
  | [a] => a
  | [a, b] => a ++ " or " ++ b
  | a :: rest => a ++ ", " ++ alternatives rest

namespace Fault

/-- The machine-readable kind of a fault. -/
def kind : Fault → String
  | missing => "missing"
  | notText => "string_type"
  | notNumber => "float_type"
  | unreadableNumber => "float_parsing"
  | notInteger => "int_type"
  | unreadableInteger => "int_parsing"
  | fractional => "int_from_float"
  | notFinite => "finite_number"
  | notAbove _ => "greater_than"
  | below _ => "greater_than_equal"
  | above _ => "less_than_equal"
  | notAmong _ => "literal_error"
  | notList => "list_type"
  | notObject => "dict_type"
  | notModel _ => "model_type"
  | notTruth => "bool_type"
  | unreadableTruth => "bool_parsing"
  | notSettable => "frozen_instance"

/-- What a reader is told about a fault. -/
def message : Fault → String
  | missing => "Field required"
  | notText => "Input should be a valid string"
  | notNumber => "Input should be a valid number"
  | unreadableNumber => "Input should be a valid number, unable to parse string as a number"
  | notInteger => "Input should be a valid integer"
  | unreadableInteger => "Input should be a valid integer, unable to parse string as an integer"
  | fractional => "Input should be a valid integer, got a number with a fractional part"
  | notFinite => "Input should be a finite number"
  | notAbove bound => s!"Input should be greater than {bound}"
  | below bound => s!"Input should be greater than or equal to {bound}"
  | above bound => s!"Input should be less than or equal to {bound}"
  | notAmong allowed =>
    "Input should be " ++ alternatives (allowed.map fun name => "'" ++ name ++ "'")
  | notList => "Input should be a valid list"
  | notObject => "Input should be a valid dictionary"
  | notModel model => "Input should be a valid dictionary or instance of " ++ model
  | notTruth => "Input should be a valid boolean"
  | unreadableTruth => "Input should be a valid boolean, unable to interpret input"
  | notSettable => "Instance is frozen"

end Fault

/-- A fault and where it lies, from the outside in. -/
structure SchemaError where
  location : List Step
  fault : Fault
  deriving DecidableEq, Repr

/-- A step as JSON. -/
def Step.toJson : Step → Json
  | member name => .text name
  | item index => .int index

/-- A fault as an object of its kind, its place and its message. -/
def SchemaError.toJson (e : SchemaError) : Json :=
  .object [("type", .text e.fault.kind), ("loc", .ofList Step.toJson e.location),
    ("msg", .text e.fault.message)]

/-- The result of decoding: a value, or all faults in the order of the fields. -/
inductive Checked (α : Type) where
  | valid (value : α)
  | invalid (errors : List SchemaError)

namespace Checked

variable {α β : Type}

/-- Applies a function to the value. -/
protected def map (f : α → β) : Checked α → Checked β
  | valid a => valid (f a)
  | invalid es => invalid es

/-- Applies a decoded function to a decoded value; the faults of both are kept. -/
protected def seq : Checked (α → β) → Checked α → Checked β
  | valid f, valid a => valid (f a)
  | valid _, invalid es => invalid es
  | invalid es, valid _ => invalid es
  | invalid es, invalid es' => invalid (es ++ es')

instance : Applicative Checked where
  pure := valid
  seq f x := Checked.seq f (x ())
  map := Checked.map

/-- A single fault at the part itself. -/
def fail (fault : Fault) : Checked α := invalid [⟨[], fault⟩]

/-- The same result, seen from one step further out. -/
def within (step : Step) : Checked α → Checked α
  | valid a => valid a
  | invalid es => invalid (es.map fun e => { e with location := step :: e.location })

/-- Goes on with a value; nothing is decoded after a fault. -/
def thenCheck (x : Checked α) (f : α → Checked β) : Checked β :=
  match x with
  | valid a => f a
  | invalid es => invalid es

/-- Decodes the items of a list in order. -/
def items (f : Json → Checked α) : (index : Nat) → List Json → Checked (List α)
  | _, [] => valid []
  | i, v :: vs => List.cons <$> (f v).within (.item i) <*> items f (i + 1) vs

/-- The result with its faults as an error. -/
def toExcept : Checked α → Except (List SchemaError) α
  | valid a => .ok a
  | invalid es => .error es

end Checked

/-- A decoder takes a JSON value to a checked value. -/
abbrev Decoder (α : Type) := Json → Checked α

namespace Decoder

variable {α : Type}

/-- Takes a text. -/
def text : Decoder String
  | .text s => .valid s
  | _ => .fail .notText

/-- Takes a number. -/
def float : Decoder Float
  | .int n =>
    let x := Float.ofInt n
    if x == 1 / 0 || x == -(1 / 0) then .fail .notNumber else .valid x
  | .float x => .valid x
  | .bool b => .valid (if b then 1 else 0)
  | .text s =>
    match Numeral.float? (trimWhile isSpace s.toList) with
    | some x => .valid x
    | none => .fail .unreadableNumber
  | _ => .fail .notNumber

/-- The whole number that a text spells: an integer numeral, perhaps with a fraction of zeros. -/
def wholeNumeral? (cs : List Char) : Option Int :=
  match cs.span (· != '.') with
  | (whole, []) => Numeral.int? whole
  | (whole, _ :: places) => if places.all (· == '0') then Numeral.int? whole else none

/-- Takes a whole number. -/
def integer : Decoder Int
  | .int n => .valid n
  | .float x =>
    match exactValue x with
    | .error _ => .fail .notFinite
    | .ok q => if q.den = 1 then .valid q.num else .fail .fractional
  | .bool b => .valid (if b then 1 else 0)
  | .text s =>
    match wholeNumeral? (trimWhile isSpace s.toList) with
    | some n => .valid n
    | none => .fail .unreadableInteger
  | _ => .fail .notInteger

/-- The words for true and for false. -/
def truthWords : List String × List String :=
  (["1", "on", "t", "true", "y", "yes"], ["0", "off", "f", "false", "n", "no"])

/-- Takes a truth value, or a number or word that stands for one. -/
def truth : Decoder Bool
  | .bool b => .valid b
  | .int n => if n = 1 then .valid true else if n = 0 then .valid false else .fail .unreadableTruth
  | .float x =>
    if x == 1 then .valid true else if x == 0 then .valid false else .fail .unreadableTruth
  | .text s =>
    let word := String.ofList (s.toList.map Char.toLower)
    if truthWords.1.contains word then .valid true
    else if truthWords.2.contains word then .valid false
    else .fail .unreadableTruth
  | _ => .fail .notTruth

/-- Takes one of a list of names. -/
def among (all : List α) (name : α → String) : Decoder α
  | .text s =>
    match all.find? (name · == s) with
    | some a => .valid a
    | none => .fail (.notAmong (all.map name))
  | _ => .fail (.notAmong (all.map name))

/-- Takes a list. -/
def list (f : Decoder α) : Decoder (List α)
  | .array vs => Checked.items f 0 vs
  | _ => .fail .notList

/-- Takes any object as it is. -/
def object : Decoder (List (String × Json))
  | .object members => .valid members
  | _ => .fail .notObject

/-- Takes null, or what `f` takes. -/
def nullable (f : Decoder α) : Decoder (Option α)
  | .null => .valid none
  | v => some <$> f v

/-- Refuses a number that is not above the bound. -/
def moreThan (bound : Int) (f : Decoder Float) : Decoder Float := fun v =>
  (f v).thenCheck fun x => if x > Float.ofInt bound then .valid x else .fail (.notAbove bound)

/-- Refuses a number that is not at least the bound. -/
def atLeast (bound : Int) (f : Decoder Float) : Decoder Float := fun v =>
  (f v).thenCheck fun x => if x ≥ Float.ofInt bound then .valid x else .fail (.below bound)

/-- Refuses a number that is not at most the bound. -/
def atMost (bound : Int) (f : Decoder Float) : Decoder Float := fun v =>
  (f v).thenCheck fun x => if x ≤ Float.ofInt bound then .valid x else .fail (.above bound)

/-- Takes the members of an object that describes the thing named. -/
def model (name : String) (f : List (String × Json) → Checked α) : Decoder α
  | .object members => f members
  | _ => .fail (.notModel name)

end Decoder

/-! ### Fields -/

/-- The member that a field is read from: the first of its names that is present. -/
def fieldSource (members : List (String × Json)) (names : List String) : Option (String × Json) :=
  names.findSome? fun name => (Json.find? members name).map (name, ·)

/-- A field that has to be present. A missing one is reported under its first name. -/
def required {α : Type} (members : List (String × Json)) (names : List String) (f : Decoder α) :
    Checked α :=
  match fieldSource members names with
  | some (name, v) => (f v).within (.member name)
  | none => .invalid [⟨[.member (names.headD "")], .missing⟩]

/-- A field with a default. -/
def optional {α : Type} (members : List (String × Json)) (names : List String) (f : Decoder α)
    (default : α) : Checked α :=
  match fieldSource members names with
  | some (name, v) => (f v).within (.member name)
  | none => .valid default

/-- The members that no field is read from. -/
def otherMembers (members : List (String × Json)) (fields : List (List String)) :
    List (String × Json) :=
  let used := fields.filterMap fun names => (fieldSource members names).map (·.1)
  members.filter fun m => !used.contains m.1

end TimelineExport
