/-!
# Reading bytes as text

Bytes from a process need not be well-formed. `decodeUtf8` reads a well-formed sequence as its
character, and replaces whatever is not: the longest start of a sequence that cannot be
continued becomes one replacement character, and reading goes on behind it.
-/

namespace TimelineExport

/-- A character of more than one byte that has begun: the bits so far, the range in which the
next byte has to lie, and how many bytes follow. -/
structure Utf8Lead where
  bits : Nat
  low : Nat
  high : Nat
  count : Nat
  deriving DecidableEq, Repr

namespace Utf8Lead

/-- What a first byte begins. The range of the byte after it excludes overlong forms, surrogates
and what lies beyond the last character. -/
def ofByte? (b : Nat) : Option Utf8Lead :=
  if 0xc2 ≤ b && b ≤ 0xdf then some ⟨b - 0xc0, 0x80, 0xbf, 1⟩
  else if b = 0xe0 then some ⟨0, 0xa0, 0xbf, 2⟩
  else if b = 0xed then some ⟨13, 0x80, 0x9f, 2⟩
  else if 0xe1 ≤ b && b ≤ 0xef then some ⟨b - 0xe0, 0x80, 0xbf, 2⟩
  else if b = 0xf0 then some ⟨0, 0x90, 0xbf, 3⟩
  else if 0xf1 ≤ b && b ≤ 0xf3 then some ⟨b - 0xf0, 0x80, 0xbf, 3⟩
  else if b = 0xf4 then some ⟨4, 0x80, 0x8f, 3⟩
  else none

end Utf8Lead

/-- The replacement for what cannot be read. -/
def replacement : Char := '\ufffd'

/-- Reads the bytes after a first one: the character's number if they are all there, and what is
left. -/
def readTail (bits low high : Nat) : (count : Nat) → List Nat → Option Nat × List Nat
  | 0, bytes => (some bits, bytes)
  | _ + 1, [] => (none, [])
  | count + 1, b :: bytes =>
    if low ≤ b && b ≤ high then readTail (64 * bits + (b - 0x80)) 0x80 0xbf count bytes
    else (none, b :: bytes)

theorem length_readTail_le (bits low high count : Nat) (bytes : List Nat) :
    (readTail bits low high count bytes).2.length ≤ bytes.length := by
  induction count generalizing bits low high bytes with
  | zero => simp [readTail]
  | succ count ih =>
    cases bytes with
    | nil => simp [readTail]
    | cons b bytes =>
      unfold readTail
      split
      · exact Nat.le_trans (ih ..) (by simp)
      · simp

/-- The characters that bytes stand for, with replacements for what cannot be read. -/
def decodeUtf8 : List Nat → List Char
  | [] => []
  | b :: bytes =>
    if b < 0x80 then Char.ofNat b :: decodeUtf8 bytes
    else
      match Utf8Lead.ofByte? b with
      | none => replacement :: decodeUtf8 bytes
      | some lead =>
        let rest := readTail lead.bits lead.low lead.high lead.count bytes
        (rest.1.map Char.ofNat).getD replacement :: decodeUtf8 rest.2
  termination_by bytes => bytes.length
  decreasing_by
    · simp
    · simp
    · exact Nat.lt_succ_of_le (length_readTail_le ..)

/-- The text that bytes stand for. -/
def textOfBytes (bytes : List Nat) : String := String.ofList (decodeUtf8 bytes)

end TimelineExport
