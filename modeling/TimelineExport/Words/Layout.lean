import TimelineExport.Text.Blank
import TimelineExport.Words.Run

/-!
# Lines of words

`layoutLines` breaks runs into lines: at line breaks, and, if there is a width to wrap at, before
every word that would not fit, measured without the blanks behind it. A word that begins a line
in this way loses the blanks before it, and a word keeps the blanks behind it. Lines without
words are left out; without any words there is a single blank.

The measure of a text in a run's font is a parameter.
-/

namespace TimelineExport

/-- Splits a line into words, each with the blanks behind it. Leading blanks are a word of their
own. -/
def wordsOf : List Char → List (List Char)
  | [] => []
  | c :: cs =>
    match wordsOf cs with
    | [] => [[c]]
    | word :: words =>
      match word with
      | [] => [c] :: words
      | d :: _ =>
        if isBlank c && !isBlank d then [c] :: word :: words else (c :: word) :: words

section
variable {α : Type} [Scalar α]

/-- Lines under construction: those that are finished, the current one, and its width. -/
structure LineState (α : Type) where
  finished : List (List Run) := []
  current : List Run := []
  width : α

namespace LineState

/-- Begins a new line. -/
def breakLine (s : LineState α) : LineState α :=
  { finished := s.finished ++ [s.current], current := [], width := 0 }

/-- Whether a word fits no longer on the current line. -/
def overflows (measure : Run → α) (wrap : Option α) (s : LineState α) (word : Run) : Bool :=
  match wrap with
  | none => false
  | some limit =>
    !s.current.isEmpty && decide (s.width + measure { word with text := trimEnd word.text } > limit)

/-- Places a word, on a new line if it does not fit. -/
def place (measure : Run → α) (wrap : Option α) (s : LineState α) (word : Run) : LineState α :=
  let (s, word) :=
    if s.overflows measure wrap word then (s.breakLine, { word with text := trimStart word.text })
    else (s, word)
  if word.text.isEmpty then s
  else { s with current := s.current ++ [word], width := s.width + measure word }

/-- Places the words of one line of a run. -/
def placeLine (measure : Run → α) (wrap : Option α) (r : Run) (s : LineState α)
    (line : List Char) : LineState α :=
  (wordsOf line).foldl (fun s word => s.place measure wrap { r with text := word }) s

/-- Places a run. -/
def placeRun (measure : Run → α) (wrap : Option α) (s : LineState α) (r : Run) : LineState α :=
  match r.text.splitOn '\n' with
  | [] => s
  | first :: rest =>
    rest.foldl (fun s line => s.breakLine.placeLine measure wrap r line)
      (s.placeLine measure wrap r first)

end LineState

/-- Breaks runs into lines. -/
def layoutLines (measure : Run → α) (wrap : Option α) (runs : List Run) : List (List Run) :=
  let s := runs.foldl (LineState.placeRun measure wrap) { width := 0 }
  let lines := (s.finished ++ [s.current]).filter (!·.isEmpty)
  if lines.isEmpty then [[{ text := [' '] }]] else lines

end

end TimelineExport
