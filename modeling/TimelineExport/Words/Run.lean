import TimelineExport.Paint.ColorReader

/-!
# Runs of words

A run is a piece of text with a colour of its own, or none, and perhaps in bold. Plain text is
one run. A caption may highlight words: `captionRuns` cuts it at the highlights, each of which
is bold and has its colour. A tag without its counterpart stays in the text.
-/

namespace TimelineExport

/-- A piece of text. Without a colour it takes that of its block. -/
structure Run where
  text : List Char
  color : Option Color := none
  bold : Bool := false
  deriving DecidableEq, Repr

/-- What opens a highlight, up to the colour. -/
def highlightOpening : List Char := "<span color=\"".toList

/-- What stands between the colour and the words of a highlight. -/
def highlightMiddle : List Char := "\">".toList

/-- What closes a highlight. -/
def highlightClosing : List Char := "</span>".toList

/-- What stands before the first place at which a stem occurs, and after it. -/
def splitAtFirst? (stem : List Char) : List Char → Option (List Char × List Char)
  | [] => if stem.isEmpty then some ([], []) else none
  | c :: cs =>
    match stem.isPrefixOf? (c :: cs) with
    | some rest => some ([], rest)
    | none => (splitAtFirst? stem cs).map fun (before, rest) => (c :: before, rest)

/-- The colour and the words of a highlight at the start of a text, and what follows it. -/
def highlight? (cs : List Char) : Option (List Char × List Char × List Char) := do
  let rest ← highlightOpening.isPrefixOf? cs
  let color := rest.takeWhile (· ≠ '"')
  let rest ← highlightMiddle.isPrefixOf? (rest.drop color.length)
  let (words, rest) ← splitAtFirst? highlightClosing rest
  return (color, words, rest)

/-- A part of a caption: plain words, or a highlight with its colour. -/
inductive CaptionPart where
  | plain (text : List Char)
  | highlight (color text : List Char)
  deriving DecidableEq, Repr

/-- Puts a character in front of the parts; plain words grow together. -/
def consPlain (c : Char) : List CaptionPart → List CaptionPart
  | .plain text :: parts => .plain (c :: text) :: parts
  | parts => .plain [c] :: parts

/-- The parts of a caption. The fuel bounds the characters. -/
def captionPartsOf : (fuel : Nat) → List Char → List CaptionPart
  | 0, _ => []
  | _ + 1, [] => []
  | fuel + 1, c :: cs =>
    match highlight? (c :: cs) with
    | some (color, text, rest) => .highlight color text :: captionPartsOf fuel rest
    | none => consPlain c (captionPartsOf fuel cs)

/-- The parts of a caption, in order. -/
def captionParts (cs : List Char) : List CaptionPart := captionPartsOf cs.length cs

/-- A part of a caption as a run. -/
def CaptionPart.toRun (library : ColorLibrary) : CaptionPart → Except NonFinite Run
  | plain text => .ok { text }
  | highlight color text => do
    let color ← readColor library (some (String.ofList color)) .white
    return { text, color := some color, bold := true }

/-- The runs of a caption. -/
def captionRuns (library : ColorLibrary) (text : String) : Except NonFinite (List Run) :=
  (captionParts text.toList).mapM (CaptionPart.toRun library)

end TimelineExport
