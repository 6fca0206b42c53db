import TimelineExport.Text.Quoted

/-!
# The digest of a text

Downloads are kept under the digest of their source, so that two sources never share a name by
accident and a name has no characters that a file system refuses. `sha1Text` is the SHA-1 digest
of a text's UTF-8 bytes, in hexadecimal digits.
-/

namespace TimelineExport

/-- The five words of a digest in progress. -/
structure Sha1State where
  a : UInt32 := 0x67452301
  b : UInt32 := 0xEFCDAB89
  c : UInt32 := 0x98BADCFE
  d : UInt32 := 0x10325476
  e : UInt32 := 0xC3D2E1F0
  deriving DecidableEq, Repr

namespace Sha1State

/-- Moves the bits of a word to the left, around its end. -/
def rotate (x n : UInt32) : UInt32 := (x <<< n) ||| (x >>> (32 - n))

/-- A number as so many bytes, the most significant first. -/
def bigEndian : Nat → Nat → List UInt8
  | 0, _ => []
  | count + 1, n => bigEndian count (n / 256) ++ [UInt8.ofNat n]

/-- A message filled up to whole blocks: a one bit, zeros, and the length in bits. -/
def padded (message : List UInt8) : List UInt8 :=
  message ++ 0x80 :: List.replicate ((119 - message.length % 64) % 64) 0
    ++ bigEndian 8 (8 * message.length)

/-- Bytes as words, the most significant byte first. -/
def words : List UInt8 → List UInt32
  | a :: b :: c :: d :: rest =>
    (a.toUInt32 <<< 24 ||| b.toUInt32 <<< 16 ||| c.toUInt32 <<< 8 ||| d.toUInt32) :: words rest
  | _ => []

/-- Adds so many words to a schedule that is held with its last word first. -/
def extend : Nat → List UInt32 → List UInt32
  | 0, ws => ws
  | n + 1, ws =>
    let at' (i : Nat) := ws.getD i 0
    extend n (rotate (at' 2 ^^^ at' 7 ^^^ at' 13 ^^^ at' 15) 1 :: ws)

/-- One of the eighty rounds. -/
def round (s : Sha1State) (word : UInt32 × Nat) : Sha1State :=
  let (w, t) := word
  let (f, k) : UInt32 × UInt32 :=
    if t < 20 then ((s.b &&& s.c) ||| (~~~s.b &&& s.d), 0x5A827999)
    else if t < 40 then (s.b ^^^ s.c ^^^ s.d, 0x6ED9EBA1)
    else if t < 60 then ((s.b &&& s.c) ||| (s.b &&& s.d) ||| (s.c &&& s.d), 0x8F1BBCDC)
    else (s.b ^^^ s.c ^^^ s.d, 0xCA62C1D6)
  { a := rotate s.a 5 + f + s.e + k + w, b := s.a, c := rotate s.b 30, d := s.c, e := s.d }

/-- Takes in a block of sixteen words. -/
def absorb (s : Sha1State) (block : List UInt32) : Sha1State :=
  let r := ((extend 64 block.reverse).reverse.zipIdx).foldl round s
  { a := s.a + r.a, b := s.b + r.b, c := s.c + r.c, d := s.d + r.d, e := s.e + r.e }

/-- Takes in blocks, as many as the first argument says. -/
def absorbAll : Nat → Sha1State → List UInt32 → Sha1State
  | 0, s, _ => s
  | n + 1, s, ws => absorbAll n (s.absorb (ws.take 16)) (ws.drop 16)

/-- The state after a whole message. -/
def ofBytes (message : List UInt8) : Sha1State :=
  let ws := words (padded message)
  absorbAll (ws.length / 16) {} ws

/-- The digest in hexadecimal digits. -/
def text (s : Sha1State) : String :=
  String.ofList ([s.a, s.b, s.c, s.d, s.e].flatMap fun w => hexDigits 8 w.toNat)

end Sha1State

/-- The SHA-1 digest of a text, in hexadecimal digits. -/
def sha1Text (text : String) : String := (Sha1State.ofBytes text.toUTF8.toList).text

end TimelineExport
