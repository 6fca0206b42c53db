import TimelineExport.Text.Digit

/-!
# Numeric hosts

A host in a URL may be an address in numbers: four octets with dots, or up to eight groups of
hexadecimal digits with colons, of which one run of zeros may be left out and the last two may
be written as octets.
-/

namespace TimelineExport

/-- The parts of a text between the characters that satisfy a condition. -/
def partsBy (p : Char → Bool) : List Char → List (List Char)
  | [] => [[]]
  | c :: cs =>
    if p c then [] :: partsBy p cs
    else
      match partsBy p cs with
      | [] => [[c]]
      | part :: parts => (c :: part) :: parts

/-- Whether a text is one of the numbers of a dotted address: at most three digits, no leading
zero, at most 255. -/
def isOctet (cs : List Char) : Bool :=
  match cs with
  | [] => false
  | ['0'] => true
  | '0' :: _ => false
  | _ => cs.all Char.isDigit && cs.length ≤ 3 &&
      decide (cs.foldl (fun n c => 10 * n + (c.toNat - 48)) 0 ≤ 255)

/-- Whether a text is four octets with dots between them. -/
def isDottedAddress (cs : List Char) : Bool :=
  let parts := partsBy (· = '.') cs
  parts.length = 4 && parts.all isOctet

/-- Whether a character is a hexadecimal digit. -/
def isHexDigit (c : Char) : Bool := (hexValue? c).isSome

/-- Whether a text is a group of one to four hexadecimal digits. -/
def isHexGroup (cs : List Char) : Bool := !cs.isEmpty && cs.length ≤ 4 && cs.all isHexDigit

/-- The groups of an address with colons, with octets at the end counted as two groups. -/
def colonGroups (cs : List Char) : List (List Char) :=
  let parts := partsBy (· = ':') cs
  match parts.getLast? with
  | some last => if last.contains '.' && isDottedAddress last then parts.dropLast ++ [['0'], ['0']]
      else parts
  | none => parts

/-- Whether a text is groups with colons between them: eight of them, or fewer where two colons
in a row stand for the missing ones. -/
def isColonAddress (cs : List Char) : Bool :=
  let (address, zone) := cs.span (· ≠ '%')
  let zoned := match zone with
    | [] => true
    | _ :: zone => !zone.isEmpty && !zone.contains '%'
  let groups := colonGroups address
  let inner := (groups.drop 1).dropLast
  let gaps := inner.countP List.isEmpty
  let edge (g : Option (List Char)) (next : Option (List Char)) : Bool :=
    g ≠ some [] || next = some []
  let given := groups.filter (!·.isEmpty)
  zoned && 3 ≤ groups.length && groups.length ≤ 9 && gaps ≤ 1 &&
    edge groups.head? groups[1]? && edge groups.getLast? groups[groups.length - 2]? &&
    given.all isHexGroup && (if gaps = 0 then given.length = 8 else given.length ≤ 7)

end TimelineExport
