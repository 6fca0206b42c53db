import TimelineExport.Json.Value
import TimelineExport.Number.Numeral

/-!
# Reading JSON text

`Json.read` reads one value that fills the whole text, up to white space. Beside the standard
grammar it takes the words `NaN`, `Infinity` and `-Infinity`. A text that is not JSON is refused
with the offset, in characters, of the first place where no continuation could make it JSON; for
a string that does not end this is its opening quote. A text that is JSON is refused as well if an
integer in it has more digits than `maxDigits`. How deeply values may be nested is not limited here;
an interpreter with a bounded stack gives up on texts that are nested some thousand levels deep.
-/

namespace TimelineExport.Json

/-- What was wrong at a place of a text. -/
inductive ReadReason where
  | value
  | memberName
  | colon
  | comma
  | unterminated
  | controlCharacter
  | escape
  | unitEscape
  | extraData
  /-- An integer has so many digits that it is not converted. This is no fault of the grammar. -/
  | tooManyDigits (count : Nat)
  deriving DecidableEq, Repr

/-- What a reader is told about a reason. -/
def ReadReason.message : ReadReason → String
  | value => "Expecting value"
  | memberName => "Expecting property name enclosed in double quotes"
  | colon => "Expecting ':' delimiter"
  | comma => "Expecting ',' delimiter"
  | unterminated => "Unterminated string starting at"
  | controlCharacter => "Invalid control character at"
  | escape => "Invalid \\escape"
  | unitEscape => "Invalid \\uXXXX escape"
  | extraData => "Extra data"
  | tooManyDigits count => TimelineExport.tooManyDigits count

/-- Why a text is not JSON, and at which offset. -/
structure ReadFault where
  offset : Nat
  reason : ReadReason
  deriving DecidableEq, Repr

/-- Whether a text is refused although it may be JSON. -/
def ReadFault.isOverlong (f : ReadFault) : Bool :=
  match f.reason with
  | .tooManyDigits _ => true
  | _ => false

/-- What a reader is told about a text that is refused: with the place, unless it may be JSON. -/
def ReadFault.message (text : String) (f : ReadFault) : String :=
  let before := text.toList.take f.offset
  let column := (before.reverse.takeWhile (· ≠ '\n')).length + 1
  if f.isOverlong then f.reason.message
  else f.reason.message ++ ": line " ++ toString (before.count '\n' + 1) ++ " column " ++
    toString column ++ " (char " ++ toString f.offset ++ ")"

/-- A text being read: the characters that are left, and the offset of the first of them. -/
structure Cursor where
  rest : List Char
  offset : Nat

namespace Cursor

/-- The cursor after `n` characters. -/
def advance (c : Cursor) (n : Nat) : Cursor := ⟨c.rest.drop n, c.offset + n⟩

/-- The cursor after the white space at its place. -/
def skipSpace (c : Cursor) : Cursor :=
  let space := c.rest.takeWhile fun ch => ch = ' ' || ch = '\t' || ch = '\n' || ch = '\r'
  c.advance space.length

/-- Whether the text at the cursor begins with a word. -/
def startsWith (c : Cursor) (word : String) : Bool := word.toList.isPrefixOf c.rest

end Cursor

/-- The number that four hexadecimal digits at the front of a text spell. -/
def hexQuad? (cs : List Char) : Option Nat :=
  match cs with
  | a :: b :: c :: d :: _ => do
    let a ← hexValue? a
    let b ← hexValue? b
    let c ← hexValue? c
    let d ← hexValue? d
    return ((a * 16 + b) * 16 + c) * 16 + d
  | _ => none

/-- The character that a letter after a backslash stands for. -/
def escapeLetter? : Char → Option Char
  | '"' => some '"'
  | '\\' => some '\\'
  | '/' => some '/'
  | 'b' => some (Char.ofNat 8)
  | 'f' => some (Char.ofNat 12)
  | 'n' => some '\n'
  | 'r' => some '\r'
  | 't' => some '\t'
  | _ => none

/-- A character by its code unit; half of a surrogate pair has no character of its own and is
replaced. -/
def charOfUnit (n : Nat) : Char :=
  if 0xd800 ≤ n ∧ n ≤ 0xdfff then Char.ofNat 0xfffd else Char.ofNat n

/-- Reads the rest of a string whose opening quote stands at the offset `start`. -/
def readString (start : Nat) : (fuel : Nat) → Cursor → (read : List Char) → Except ReadFault (String × Cursor)
  | 0, _, _ => .error ⟨start, .unterminated⟩
  | fuel + 1, c, read =>
    match c.rest with
    | [] => .error ⟨start, .unterminated⟩
    | '"' :: _ => .ok (String.ofList read.reverse, c.advance 1)
    | '\\' :: [] => .error ⟨start, .unterminated⟩
    | '\\' :: 'u' :: cs =>
      if (cs.drop 4).isEmpty then .error ⟨c.offset + 1, .unitEscape⟩
      else
        match hexQuad? cs with
        | none => .error ⟨c.offset + 1, .unitEscape⟩
        | some high =>
          let single := readString start fuel (c.advance 6) (charOfUnit high :: read)
          if 0xd800 ≤ high ∧ high ≤ 0xdbff then
            match cs.drop 4 with
            | '\\' :: 'u' :: more =>
              if (more.drop 4).isEmpty then single
              else
                match hexQuad? more with
                | none => .error ⟨c.offset + 7, .unitEscape⟩
                | some low =>
                  if 0xdc00 ≤ low ∧ low ≤ 0xdfff then
                    let code := 0x10000 + (high - 0xd800) * 0x400 + (low - 0xdc00)
                    readString start fuel (c.advance 12) (Char.ofNat code :: read)
                  else single
            | _ => single
          else single
    | '\\' :: ch :: _ =>
      match escapeLetter? ch with
      | some d => readString start fuel (c.advance 2) (d :: read)
      | none => .error ⟨c.offset, .escape⟩
    | ch :: _ =>
      if ch.toNat < 0x20 then .error ⟨c.offset, .controlCharacter⟩
      else readString start fuel (c.advance 1) (ch :: read)

/-- Reads a number: an integer, or a real when a fraction or an exponent is complete. -/
def readNumber (c : Cursor) : Except ReadFault (Json × Cursor) :=
  let (negative, body) :=
    match c.rest with
    | '-' :: cs => (true, cs)
    | cs => (false, cs)
  let whole :=
    match body with
    | '0' :: _ => ['0']
    | cs => cs.takeWhile Char.isDigit
  if whole.isEmpty then .error ⟨c.offset, .value⟩
  else
    let rest := body.drop whole.length
    let places :=
      match rest with
      | '.' :: cs => cs.takeWhile Char.isDigit
      | _ => []
    let rest := if places.isEmpty then rest else rest.drop (places.length + 1)
    let (power, powerLength) : Option Int × Nat :=
      match rest with
      | e :: cs =>
        if e = 'e' || e = 'E' then
          let (down, digits) := Numeral.sign cs
          let ds := digits.takeWhile Char.isDigit
          if ds.isEmpty then (none, 0)
          else
            let p : Int := Numeral.value ds
            (some (if down then -p else p), 1 + (cs.length - digits.length) + ds.length)
        else (none, 0)
      | [] => (none, 0)
    let fraction := if places.isEmpty then 0 else places.length + 1
    let next := c.advance ((if negative then 1 else 0) + whole.length + fraction + powerLength)
    if places.isEmpty && power.isNone then
      if maxDigits < whole.length then .error ⟨c.offset, .tooManyDigits whole.length⟩ else
      let n : Int := Numeral.value whole
      .ok (.int (if negative then -n else n), next)
    else
      let x := Numeral.nearestFloat (Numeral.value (whole ++ places))
        (power.getD 0 - places.length)
      .ok (.float (if negative then -x else x), next)

/-- Reads one of the words, or a number. -/
def readScalar (c : Cursor) : Except ReadFault (Json × Cursor) :=
  if c.startsWith "null" then .ok (.null, c.advance 4)
  else if c.startsWith "true" then .ok (.bool true, c.advance 4)
  else if c.startsWith "false" then .ok (.bool false, c.advance 5)
  else if c.startsWith "NaN" then .ok (.float (0 / 0), c.advance 3)
  else if c.startsWith "Infinity" then .ok (.float (1 / 0), c.advance 8)
  else if c.startsWith "-Infinity" then .ok (.float (-(1 / 0)), c.advance 9)
  else readNumber c

mutual

/-- Reads one value. At most two calls are made for a character of the text, so a fuel above
twice its length is never used up. -/
def readValue : (fuel : Nat) → Cursor → Except ReadFault (Json × Cursor)
  | 0, c => .error ⟨c.offset, .value⟩
  | fuel + 1, c =>
    match c.rest with
    | '"' :: _ => do
      let (s, next) ← readString c.offset (fuel + 1) (c.advance 1) []
      return (.text s, next)
    | '[' :: _ =>
      let inner := (c.advance 1).skipSpace
      if inner.rest.head? = some ']' then .ok (.array [], inner.advance 1)
      else readItems fuel inner []
    | '{' :: _ =>
      let inner := (c.advance 1).skipSpace
      if inner.rest.head? = some '}' then .ok (.object [], inner.advance 1)
      else readMembers fuel inner []
    | _ => readScalar c

/-- Reads the items of an array up to its closing bracket. -/
def readItems : (fuel : Nat) → Cursor → (read : List Json) → Except ReadFault (Json × Cursor)
  | 0, c, _ => .error ⟨c.offset, .value⟩
  | fuel + 1, c, read => do
    let (v, after) ← readValue fuel c
    let next := after.skipSpace
    match next.rest.head? with
    | some ']' => return (.array (v :: read).reverse, next.advance 1)
    | some ',' => readItems fuel (next.advance 1).skipSpace (v :: read)
    | _ => throw ⟨next.offset, .comma⟩

/-- Reads the members of an object up to its closing brace. -/
def readMembers : (fuel : Nat) → Cursor → (read : List (String × Json)) → Except ReadFault (Json × Cursor)
  | 0, c, _ => .error ⟨c.offset, .value⟩
  | fuel + 1, c, read => do
    if c.rest.head? ≠ some '"' then throw ⟨c.offset, .memberName⟩
    let (name, after) ← readString c.offset (fuel + 1) (c.advance 1) []
    let colon := after.skipSpace
    if colon.rest.head? ≠ some ':' then throw ⟨colon.offset, .colon⟩
    let (v, after) ← readValue fuel (colon.advance 1).skipSpace
    let members := Json.insert read name v
    let next := after.skipSpace
    match next.rest.head? with
    | some '}' => return (.object members, next.advance 1)
    | some ',' => readMembers fuel (next.advance 1).skipSpace members
    | _ => throw ⟨next.offset, .comma⟩

end

/-- Reads a text that is one JSON value, or gives the offset of the fault. -/
def read (text : String) : Except ReadFault Json := do
  let cs := text.toList
  let (v, after) ← readValue (2 * cs.length + 2) (Cursor.mk cs 0).skipSpace
  let last := after.skipSpace
  if last.rest.isEmpty then return v else throw ⟨last.offset, .extraData⟩

end TimelineExport.Json
