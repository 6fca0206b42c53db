import TimelineExport.Json.Value
import TimelineExport.Number.Notation
import TimelineExport.Text.Quoted

/-!
# Writing JSON

A value is written without blanks and in ASCII: other characters are written as escapes, those
beyond the basic plane as two of them. A real keeps its point, so that it can be told from an
integer.
-/

namespace TimelineExport.Json

/-- The escape of a unit of sixteen bits. -/
def unitEscape (n : Nat) : String := String.ofList ('\\' :: 'u' :: hexDigits 4 n)

/-- A character of a text as it is written. -/
def charText (c : Char) : String :=
  let n := c.toNat
  if c = '"' then "\\\"" else if c = '\\' then "\\\\"
  else if 32 ≤ n ∧ n < 127 then String.singleton c
  else if n < 0x10000 then unitEscape n
  else
    unitEscape (0xd800 + (n - 0x10000) / 1024) ++ unitEscape (0xdc00 + (n - 0x10000) % 1024)

/-- A text as it is written. -/
def textLiteral (s : String) : String :=
  "\"" ++ String.join (s.toList.map charText) ++ "\""

mutual

/-- A value as JSON text. -/
def write : Json → String
  | .null => "null"
  | .bool b => if b then "true" else "false"
  | .int n => toString n
  | .float x => shortestText x
  | .text s => textLiteral s
  | .array items => "[" ++ ",".intercalate (writeItems items) ++ "]"
  | .object members => "\x7b" ++ ",".intercalate (writeMembers members) ++ "\x7d"

/-- The items of a list, one by one. -/
def writeItems : List Json → List String
  | [] => []
  | v :: vs => write v :: writeItems vs

/-- The members of an object, one by one. -/
def writeMembers : List (String × Json) → List String
  | [] => []
  | (name, v) :: rest => (textLiteral name ++ ":" ++ write v) :: writeMembers rest

end

end TimelineExport.Json
