import Mathlib.Data.List.Basic
import TimelineExport.Filter.Text

/-!
# How a value is read

A value stands in the text of a program and is read in two passes, one by the graph and one by the
options of its filter. Both take quotes and backslashes away: what stands between quotes, or after
a backslash, means itself (`readSigns`). The second pass ends a value at a colon.

A value is written for both passes. For the second one it gets a backslash before every backslash
and colon (`prepare`), and for the first one the result is quoted if it has to be (`escape_eq`). So
the first pass gives back the prepared value (`readSigns_escape`). A single quote is protected from
the first pass only. A value without one comes back from both passes; in any other value the quotes
are lost, with the meaning of all that stands between them (`readOptions_escapeText_iff`).
-/

namespace TimelineExport

/-! ### One pass -/

/-- A character as a pass reads it: with its meaning in the text, or only for itself. -/
inductive Sign where
  | plain (c : Char)
  | literal (c : Char)
  deriving DecidableEq, Repr

/-- The character of a sign. -/
def Sign.char : Sign → Char
  | plain c => c
  | literal c => c

@[simp]
theorem Sign.char_plain (c : Char) : (plain c).char = c := rfl

@[simp]
theorem Sign.char_literal (c : Char) : (literal c).char = c := rfl

/-- Where a pass stands: outside of quotes, between quotes, or after a backslash. -/
inductive ReadMode where
  | outside
  | quoted
  | escaped
  deriving DecidableEq, Repr

/-- Reads a text once. A backslash at the end means itself. -/
def readSigns : ReadMode → List Char → List Sign
  | .outside, [] => []
  | .quoted, [] => []
  | .escaped, [] => [.literal '\\']
  | .outside, c :: cs =>
    if c = '\'' then readSigns .quoted cs
    else if c = '\\' then readSigns .escaped cs
    else .plain c :: readSigns .outside cs
  | .quoted, c :: cs =>
    if c = '\'' then readSigns .outside cs else .literal c :: readSigns .quoted cs
  | .escaped, c :: cs => .literal c :: readSigns .outside cs

/-- The characters of signs. -/
def charsOf (signs : List Sign) : List Char := signs.map Sign.char

@[simp]
theorem charsOf_nil : charsOf [] = [] := rfl

@[simp]
theorem charsOf_cons (s : Sign) (signs : List Sign) :
    charsOf (s :: signs) = s.char :: charsOf signs := rfl

@[simp]
theorem charsOf_append (signs signs' : List Sign) :
    charsOf (signs ++ signs') = charsOf signs ++ charsOf signs' := List.map_append

@[simp]
theorem charsOf_map_plain (cs : List Char) : charsOf (cs.map .plain) = cs :=
  List.map_map.trans (List.map_id cs)

@[simp]
theorem charsOf_map_literal (cs : List Char) : charsOf (cs.map .literal) = cs :=
  List.map_map.trans (List.map_id cs)

/-- Characters other than quotes and backslashes are read with their meaning. -/
theorem readSigns_plain {cs : List Char} (h : ∀ c ∈ cs, c ≠ '\'' ∧ c ≠ '\\') (rest : List Char) :
    readSigns .outside (cs ++ rest) = cs.map .plain ++ readSigns .outside rest := by
  induction cs with
  | nil => rfl
  | cons c cs ih =>
    obtain ⟨⟨hquote, hslash⟩, hcs⟩ := List.forall_mem_cons.mp h
    rw [List.cons_append, readSigns, if_neg hquote, if_neg hslash, ih hcs, List.map_cons,
      List.cons_append]

/-! ### The first pass -/

/-- A character for the second pass. -/
def prepareChar (c : Char) : List Char := if c = '\\' ∨ c = ':' then ['\\', c] else [c]

/-- A value for the second pass: with a backslash before every backslash and colon. -/
def prepare (cs : List Char) : List Char := cs.flatMap prepareChar

/-- A character between quotes, for the first pass. A quote closes them, stands after a backslash,
and opens them again. -/
def quoteChar (c : Char) : List Char := if c = '\'' then ['\'', '\\', '\'', '\''] else [c]

theorem escapeInQuotes_eq (c : Char) : escapeInQuotes c = (prepareChar c).flatMap quoteChar := by
  by_cases hslash : c = '\\'
  · subst hslash
    rfl
  by_cases hcolon : c = ':'
  · subst hcolon
    rfl
  simp [escapeInQuotes, prepareChar, quoteChar, hslash, hcolon]

/-- **A value is prepared, and then quoted** if it has a special character. -/
theorem escape_eq (cs : List Char) :
    escape cs =
      if cs.any isSpecial then '\'' :: (prepare cs).flatMap quoteChar ++ ['\''] else cs := by
  rw [escape, prepare, List.flatMap_assoc, funext escapeInQuotes_eq]

/-- A value without special characters needs no preparation. -/
theorem prepare_eq_self {cs : List Char} (h : ∀ c ∈ cs, isSpecial c = false) :
    prepare cs = cs := by
  induction cs with
  | nil => rfl
  | cons c cs ih =>
    obtain ⟨hc, hcs⟩ := List.forall_mem_cons.mp h
    have hplain : ¬(c = '\\' ∨ c = ':') := by
      rintro (rfl | rfl) <;> exact absurd hc (by decide)
    rw [prepare, List.flatMap_cons, prepareChar, if_neg hplain, ← prepare, ih hcs,
      List.singleton_append]

/-- Quoted characters are read for themselves. -/
theorem readSigns_quoted (cs rest : List Char) :
    readSigns .quoted (cs.flatMap quoteChar ++ '\'' :: rest) =
      cs.map .literal ++ readSigns .outside rest := by
  induction cs with
  | nil => rfl
  | cons c cs ih =>
    rw [List.flatMap_cons, List.append_assoc, List.map_cons, List.cons_append, ← ih, quoteChar]
    by_cases hquote : c = '\''
    · subst hquote
      rfl
    · rw [if_neg hquote, List.singleton_append, readSigns, if_neg hquote]

/-- The signs as which a value is read: those of its preparation, which mean themselves if the
value has a special character. -/
def valueSigns (cs : List Char) : List Sign :=
  if cs.any isSpecial then (prepare cs).map .literal else cs.map .plain

/-- **The first pass** reads a value up to its end, whatever follows. -/
theorem readSigns_escape (cs rest : List Char) :
    readSigns .outside (escape cs ++ rest) = valueSigns cs ++ readSigns .outside rest := by
  rw [escape_eq, valueSigns]
  split
  · rw [List.cons_append, List.cons_append, List.append_assoc, List.singleton_append, readSigns,
      if_pos rfl, readSigns_quoted]
  · next hplain =>
    refine readSigns_plain (fun c hc => ?_) rest
    have hc : isSpecial c = false := by
      simpa using fun h => hplain (List.any_eq_true.mpr ⟨c, hc, h⟩)
    constructor <;> rintro rfl <;> exact absurd hc (by decide)

/-- What is left of a value is its preparation. -/
theorem charsOf_valueSigns (cs : List Char) : charsOf (valueSigns cs) = prepare cs := by
  rw [valueSigns]
  split
  · exact charsOf_map_literal _
  · next hplain =>
    rw [charsOf_map_plain, prepare_eq_self]
    simpa using hplain

/-! ### The second pass -/

/-- The values in the arguments of a filter. -/
def readValues (cs : List Char) : List (List Char) :=
  ((readSigns .outside cs).splitOn (.plain ':')).map charsOf

/-- The values in a text that is read in both passes. -/
def readOptions (text : String) : List String :=
  (readValues (charsOf (readSigns .outside text.toList))).map String.ofList

/-- A character of a value as the second pass reads it. -/
def preparedSign (c : Char) : Sign := if c = '\\' ∨ c = ':' then .literal c else .plain c

@[simp]
theorem charsOf_map_preparedSign (cs : List Char) : charsOf (cs.map preparedSign) = cs := by
  have hchar : Sign.char ∘ preparedSign = id := funext fun c => by
    by_cases h : c = '\\' ∨ c = ':' <;> simp [preparedSign, h]
  rw [charsOf, List.map_map, hchar, List.map_id]

/-- A prepared value without quotes is read character by character. -/
theorem readSigns_prepare {cs : List Char} (h : '\'' ∉ cs) :
    readSigns .outside (prepare cs) = cs.map preparedSign := by
  induction cs with
  | nil => rfl
  | cons c cs ih =>
    obtain ⟨hc, hcs⟩ := not_or.mp (List.mem_cons.not.mp h)
    rw [prepare, List.flatMap_cons, ← prepare, List.map_cons, ← ih hcs, prepareChar, preparedSign]
    split
    · next hspecial => obtain rfl | rfl := hspecial <;> rfl
    · next hplain =>
      rw [List.singleton_append, readSigns, if_neg (Ne.symm hc),
        if_neg fun hslash => hplain (.inl hslash)]

/-- A prepared value without quotes has no colon that ends it. -/
theorem readValues_prepare {cs : List Char} (h : '\'' ∉ cs) : readValues (prepare cs) = [cs] := by
  have hcolon : Sign.plain ':' ∉ cs.map preparedSign := by
    intro hmem
    obtain ⟨c, -, heq⟩ := List.mem_map.mp hmem
    rw [preparedSign] at heq
    split at heq
    · cases heq
    · next hplain =>
      cases heq
      exact hplain (.inr rfl)
  rw [readValues, readSigns_prepare h, List.splitOn_eq_singleton hcolon, List.map_singleton,
    charsOf_map_preparedSign]

/-- **The second pass loses all quotes** of a prepared value: none of them stands after a
backslash. -/
theorem char_ne_quote_of_mem_readSigns (cs : List Char) :
    (∀ s ∈ readSigns .outside (prepare cs), s.char ≠ '\'') ∧
      ∀ s ∈ readSigns .quoted (prepare cs), s.char ≠ '\'' := by
  induction cs with
  | nil => exact ⟨fun _ h => absurd h List.not_mem_nil, fun _ h => absurd h List.not_mem_nil⟩
  | cons c cs ih =>
    obtain ⟨houtside, hquoted⟩ := ih
    rw [prepare, List.flatMap_cons, ← prepare, prepareChar]
    split
    · next hspecial =>
      obtain rfl | rfl := hspecial <;>
        simpa [readSigns] using ⟨houtside, hquoted⟩
    · next hplain =>
      by_cases hquote : c = '\''
      · subst hquote
        exact ⟨hquoted, houtside⟩
      · have hslash : c ≠ '\\' := fun h => hplain (.inl h)
        simpa [readSigns, hquote, hslash] using ⟨houtside, hquoted⟩

theorem not_mem_of_readValues_prepare {cs : List Char} (h : readValues (prepare cs) = [cs]) :
    '\'' ∉ cs := by
  obtain ⟨signs, hsplit, hsigns⟩ := List.map_eq_singleton_iff.mp h
  have hread : signs = readSigns .outside (prepare cs) := by
    have hjoin : [.plain ':'].intercalate ((readSigns .outside (prepare cs)).splitOn (.plain ':')) =
        readSigns .outside (prepare cs) := List.intercalate_splitOn _
    rwa [hsplit, List.intercalate_singleton] at hjoin
  intro hquote
  rw [← hsigns, hread] at hquote
  obtain ⟨s, hs, hchar⟩ := List.mem_map.mp hquote
  exact (char_ne_quote_of_mem_readSigns cs).1 s hs hchar

/-- **A text comes back from both passes**, as one value, exactly if it has no single quote. -/
theorem readOptions_escapeText_iff (s : String) :
    readOptions (escapeText s) = [s] ↔ '\'' ∉ s.toList := by
  have hfirst : charsOf (readSigns .outside (escapeText s).toList) = prepare s.toList := by
    have hread := readSigns_escape s.toList []
    rw [List.append_nil, readSigns, List.append_nil] at hread
    rw [escapeText, String.toList_ofList, hread, charsOf_valueSigns]
  have hsecond : readOptions (escapeText s) = [s] ↔ readValues (prepare s.toList) = [s.toList] := by
    rw [readOptions, hfirst, List.map_eq_singleton_iff]
    constructor
    · rintro ⟨cs, hvalues, rfl⟩
      rw [hvalues, String.toList_ofList]
    · exact fun hvalues => ⟨s.toList, hvalues, String.ofList_toList⟩
  rw [hsecond]
  exact ⟨not_mem_of_readValues_prepare, readValues_prepare⟩

/-- A single quote is lost. -/
theorem quote_in_text_is_lost :
    readOptions (escapeText "it's") = ["its"] ∧ readOptions (escapeText "it's") ≠ ["it's"] := by
  decide

end TimelineExport
