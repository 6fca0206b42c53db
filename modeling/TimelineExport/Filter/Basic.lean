import TimelineExport.Number.Scalar

/-!
# Filters: the vocabulary of a filter program

A filter program is a list of chains. A chain takes labelled streams, passes them through
filters one after another and gives labelled streams. A filter has a name and arguments, some by
position and some by key. An argument is an integer, a truth value, a number or a formula, which
is text with numbers and times embedded in it; so the times in a program can be read off without
reading its text.

The inputs of a program are files, generated streams and numbered pictures.
-/

namespace TimelineExport

variable {α : Type}

/-- A piece of a formula. -/
inductive Piece (α : Type) where
  | text (s : String)
  | number (x : α)
  /-- A time in milliseconds, which is written in seconds. -/
  | seconds (ms : α)
  deriving Repr

/-- Text with numbers and times in it. -/
abbrev Formula (α : Type) := List (Piece α)

instance : Coe String (Piece α) := ⟨Piece.text⟩

/-- One argument of a filter. -/
inductive Arg (α : Type) where
  | int (n : Int)
  | bool (b : Bool)
  | number (x : α)
  | formula (f : Formula α)
  deriving Repr

namespace Arg

/-- A text as an argument. -/
def text (s : String) : Arg α := formula [.text s]

/-- A time in milliseconds as an argument. -/
def seconds (ms : α) : Arg α := formula [.seconds ms]

end Arg

/-- A filter with its arguments. -/
structure Filter (α : Type) where
  name : String
  positional : List (Arg α) := []
  options : List (String × Arg α) := []
  deriving Repr

/-- Filters between labelled streams. -/
structure Chain (α : Type) where
  inputs : List String
  filters : List (Filter α)
  outputs : List String
  deriving Repr

/-- The names of a chain's filters. -/
def Chain.filterNames (c : Chain α) : List String := c.filters.map (·.name)

/-- An input of the render engine. -/
inductive Input (α : Type) where
  /-- A media file. -/
  | file (path : String)
  /-- A generated stream. -/
  | generated (source : Formula α)
  /-- Numbered pictures at a frame rate. -/
  | pictures (pattern : String) (fps : Int)
  deriving Repr

/-- Whether a list has the shape of a reference to an input's stream, and to which input: digits,
a colon, and `v` or `a`. One line break may follow. -/
def streamOfChars? (digit : Char → Option Nat) : (value : Option Nat) → List Char → Option Nat
  | some n, [':', 'v'] | some n, [':', 'a'] => some n
  | some n, [':', 'v', '\n'] | some n, [':', 'a', '\n'] => some n
  | value, c :: cs =>
    match digit c with
    | some d => streamOfChars? digit (some (10 * value.getD 0 + d)) cs
    | none => none
  | _, [] => none

end TimelineExport
