import TimelineExport.Text.Utf8
import TimelineExport.Text.Quoted
import TimelineExport.Net.Host

/-!
# Percent signs in URLs

A character that may not stand in a part of a URL is written as percent signs with the
hexadecimal digits of its UTF-8 bytes. `percentDecode` reads them back; a percent sign without
two digits stands for itself.
-/

namespace TimelineExport

/-- The bytes of a text in which percent signs may stand for bytes. -/
def percentBytes : List Char → List Nat
  | '%' :: a :: b :: rest =>
    match hexValue? a, hexValue? b with
    | some high, some low => (16 * high + low) :: percentBytes rest
    | _, _ => 37 :: percentBytes (a :: b :: rest)
  | c :: rest => (String.singleton c).toUTF8.toList.map UInt8.toNat ++ percentBytes rest
  | [] => []

/-- The text that a text with percent signs stands for. -/
def percentDecode (text : String) : String := textOfBytes (percentBytes text.toList)

/-- A character as percent signs and digits. -/
def percentChar (c : Char) : List Char :=
  (String.singleton c).toUTF8.toList.flatMap fun b =>
    '%' :: (hexDigits 2 b.toNat).map Char.toUpper

/-- Writes all characters with percent signs that are not safe. A percent sign with two digits
is kept. -/
def percentEncode (safe : Char → Bool) : List Char → List Char
  | '%' :: a :: b :: rest =>
    if isHexDigit a && isHexDigit b then '%' :: a :: b :: percentEncode safe rest
    else (if safe '%' then ['%'] else percentChar '%') ++ percentEncode safe (a :: b :: rest)
  | c :: rest => (if safe c then [c] else percentChar c) ++ percentEncode safe rest
  | [] => []

/-- Whether a character may always stand in a URL. -/
def isUnreserved (c : Char) : Bool :=
  c.isAlphanum || c = '-' || c = '.' || c = '_' || c = '~'

/-- Whether a character is a printable ASCII character other than the given ones. -/
def isPrintableExcept (others : String) (c : Char) : Bool :=
  0x20 ≤ c.toNat && c.toNat < 0x7f && !others.toList.contains c

end TimelineExport
