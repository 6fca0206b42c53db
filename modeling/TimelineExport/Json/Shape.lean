import TimelineExport.Json.Value
import TimelineExport.Number.Numeral
import TimelineExport.Text.Quoted

/-!
# The shape of JSON values

Whoever reads a JSON value that was not checked before finds it in another shape than expected
now and then: a member is missing, or has another type.
-/

namespace TimelineExport

/-- What is wrong with the shape of a JSON value. -/
inductive ShapeFault where
  /-- An object lacks a member. -/
  | missing (name : String)
  /-- A value has another type than it should. -/
  | wrongType (message : String)
  /-- A text is no integer. -/
  | notInteger (text : String)
  /-- A number is no integer, because it is not finite. -/
  | notFinite (fault : NonFinite)
  deriving DecidableEq, Repr

/-- What a reader is told about a shape. -/
def ShapeFault.message : ShapeFault → String
  | missing name => quoted name
  | wrongType message => message
  | notInteger text => "invalid literal for int() with base 10: " ++ quoted text
  | notFinite fault => fault.message

namespace Json

/-- The word for the type of a value. -/
def typeName : Json → String
  | .null => "NoneType"
  | .bool _ => "bool"
  | .int _ => "int"
  | .float _ => "float"
  | .text _ => "str"
  | .array _ => "list"
  | .object _ => "dict"

/-- The number that a value stands for. -/
def number? : Json → Option Rat
  | .bool b => some (if b then 1 else 0)
  | .int n => some n
  | .float x => (exactValue x).toOption
  | _ => none

/-- A member that has to be there. -/
def member (v : Json) (name : String) : Except ShapeFault Json :=
  match v with
  | .object members =>
    match find? members name with
    | some v => .ok v
    | none => .error (.missing name)
  | .array _ => .error (.wrongType "list indices must be integers or slices, not str")
  | .text _ => .error (.wrongType "string indices must be integers, not 'str'")
  | v => .error (.wrongType ("'" ++ v.typeName ++ "' object is not subscriptable"))

/-- The integer that a value is cut to. -/
def toInteger : Json → Except ShapeFault Int
  | .bool b => .ok (if b then 1 else 0)
  | .int n => .ok n
  | .float x => (Scalar.truncated x).mapError .notFinite
  | .text s =>
    match Numeral.readInt? s with
    | some n => .ok n
    | none => .error (.notInteger s)
  | v => .error (.wrongType ("int() argument must be a string, a bytes-like object or a " ++
      "real number, not '" ++ v.typeName ++ "'"))

end Json

end TimelineExport
