/-!
# Blanks: white space of all scripts

`isBlank` holds of the characters that separate words: the ASCII blanks and separators, the next
line character, the spaces of all widths and the line and paragraph separators. A zero-width
space is not among them. Trimming works on lists of characters, so that it can be reasoned
about, and is offered for strings.
-/

namespace TimelineExport

/-- Whether a character is a space of some width, a tabulator or a line break. -/
def isSpace (c : Char) : Bool :=
  let n := c.toNat
  (0x9 ≤ n && n ≤ 0xd) || n == 0x20 || n == 0x85 || n == 0xa0 || n == 0x1680 ||
    (0x2000 ≤ n && n ≤ 0x200a) || n == 0x2028 || n == 0x2029 || n == 0x202f || n == 0x205f ||
    n == 0x3000

/-- Whether a character is white space: a space, or one of the four ASCII separators. -/
def isBlank (c : Char) : Bool := isSpace c || (0x1c ≤ c.toNat && c.toNat ≤ 0x1f)

/-- The characters without those at the end that satisfy `p`. -/
def dropEndWhile (p : Char → Bool) (cs : List Char) : List Char :=
  (cs.reverse.dropWhile p).reverse

/-- The characters without leading blanks. -/
def trimStart (cs : List Char) : List Char := cs.dropWhile isBlank

/-- The characters without trailing blanks. -/
def trimEnd (cs : List Char) : List Char := dropEndWhile isBlank cs

/-- The characters without those at either end that satisfy `p`. -/
def trimWhile (p : Char → Bool) (cs : List Char) : List Char := dropEndWhile p (cs.dropWhile p)

/-- The characters without blanks at either end. -/
def trimBoth (cs : List Char) : List Char := trimWhile isBlank cs

/-- The text without blanks at either end. -/
def trimText (s : String) : String := String.ofList (trimBoth s.toList)

/-- The text without trailing blanks. -/
def trimTextEnd (s : String) : String := String.ofList (trimEnd s.toList)

end TimelineExport
