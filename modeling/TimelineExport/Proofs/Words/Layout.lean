import Mathlib.Data.List.Chain
import Mathlib.Data.List.TakeWhile
import TimelineExport.Words.Layout

/-!
# What the lines of a text keep

Runs are read as line breaks and words, each word with the blanks behind it (`Run.IsReading`).
`IsLayout` says what lines may be made of them: nothing that can be seen is lost, moved or given
another colour or weight; a new line begins only at a line break or before a word that would no
longer fit; and a line of several words fits, without the blanks behind its last word. Lines are
laid out one item after another, so all of this is an invariant of the lines under construction
(`LineState.Holds`), and breaking runs into lines yields such a layout, whatever the measure of the
words is (`isLayout_layoutLines`).
-/

namespace TimelineExport

/-! ### Words and lines -/

/-- Whether a text is a word with the blanks behind it, or consists of blanks. -/
def IsSpacedWord (cs : List Char) : Prop :=
  cs ≠ [] ∧ ∃ word blanks, cs = word ++ blanks ∧ (∀ c ∈ word, isBlank c = false) ∧
    ∀ c ∈ blanks, isBlank c = true

/-- Whether a word begins behind the blanks of another one. -/
def MeetAtBlank (u v : List Char) : Prop :=
  (∃ c ∈ u.getLast?, isBlank c = true) ∧ ∃ c ∈ v.head?, isBlank c = false

theorem isSpacedWord_singleton (c : Char) : IsSpacedWord [c] := by
  cases hc : isBlank c with
  | true => exact ⟨List.cons_ne_nil _ _, [], [c], rfl, nofun, by simpa using hc⟩
  | false => exact ⟨List.cons_ne_nil _ _, [c], [], rfl, by simpa using hc, nofun⟩

/-- A character goes in front of a word unless it is a blank and the word begins with none. -/
theorem IsSpacedWord.cons {c d : Char} {cs : List Char} (h : IsSpacedWord (d :: cs))
    (hc : ¬ (isBlank c = true ∧ isBlank d = false)) : IsSpacedWord (c :: d :: cs) := by
  obtain ⟨-, word, blanks, hsplit, hword, hblanks⟩ := h
  refine ⟨List.cons_ne_nil _ _, ?_⟩
  cases hblank : isBlank c with
  | false =>
    refine ⟨c :: word, blanks, by rw [hsplit, List.cons_append], ?_, hblanks⟩
    exact List.forall_mem_cons.mpr ⟨hblank, hword⟩
  | true =>
    have hd : isBlank d = true := by simpa [hblank] using hc
    -- The word begins with a blank, so nothing of it stands before its blanks.
    rcases word with _ | ⟨a, word⟩
    · refine ⟨[], c :: d :: cs, rfl, nofun, ?_⟩
      rw [hsplit, List.nil_append]
      exact List.forall_mem_cons.mpr ⟨hblank, hblanks⟩
    · obtain ⟨rfl, -⟩ := List.cons.inj hsplit
      rw [hword d List.mem_cons_self] at hd
      cases hd

/-- A word loses the blanks behind it when its end is trimmed, and all of it when its start is
trimmed, if it consists of blanks. -/
theorem IsSpacedWord.trimStart_eq {cs : List Char} (h : IsSpacedWord cs) :
    trimStart cs = cs ∨ trimStart cs = [] ∧ ∀ c ∈ cs, isBlank c = true := by
  obtain ⟨-, word, blanks, rfl, hword, hblanks⟩ := h
  rcases word with _ | ⟨c, word⟩
  · exact .inr ⟨List.dropWhile_eq_nil_iff.mpr hblanks, hblanks⟩
  · exact .inl (List.dropWhile_cons_of_neg (by simp [hword c List.mem_cons_self]))

/-- **The words of a line** are the line, cut wherever a word begins behind blanks. -/
theorem wordsOf_spec (cs : List Char) :
    (wordsOf cs).flatten = cs ∧ (∀ w ∈ wordsOf cs, IsSpacedWord w) ∧
      (wordsOf cs).IsChain MeetAtBlank := by
  induction cs with
  | nil => exact ⟨rfl, nofun, .nil⟩
  | cons c cs ih =>
    obtain ⟨hflatten, hwords, hchain⟩ := ih
    simp only [wordsOf]
    rcases hcs : wordsOf cs with _ | ⟨word, words⟩
    · rw [hcs] at hflatten
      subst hflatten
      exact ⟨rfl, List.forall_mem_singleton.mpr (isSpacedWord_singleton c), .singleton _⟩
    · rw [hcs] at hflatten hwords hchain
      obtain ⟨hword, hothers⟩ := List.forall_mem_cons.mp hwords
      rcases word with _ | ⟨d, word⟩
      · exact absurd rfl hword.1
      dsimp only
      split
      · next hcut =>
        rw [Bool.and_eq_true, Bool.not_eq_true'] at hcut
        refine ⟨by rw [← hflatten]; rfl, ?_, .cons_cons ⟨⟨c, rfl, hcut.1⟩, d, rfl, hcut.2⟩ hchain⟩
        exact List.forall_mem_cons.mpr
          ⟨isSpacedWord_singleton c, List.forall_mem_cons.mpr ⟨hword, hothers⟩⟩
      · next hcut =>
        rw [Bool.and_eq_true, Bool.not_eq_true'] at hcut
        refine ⟨by rw [← hflatten]; rfl, List.forall_mem_cons.mpr ⟨hword.cons hcut, hothers⟩, ?_⟩
        -- The first word ends where it ended before.
        rcases words with _ | ⟨v, words⟩
        · exact .singleton _
        · obtain ⟨⟨hlast, hhead⟩, hchain⟩ := List.isChain_cons_cons.mp hchain
          refine .cons_cons ⟨?_, hhead⟩ hchain
          rwa [List.getLast?_cons_cons]

/-- The parts of a list that is cut at a separator do not hold the separator. -/
theorem not_mem_of_mem_splitOn {β : Type} [BEq β] [LawfulBEq β] {sep : β} {xs part : List β}
    (h : part ∈ xs.splitOn sep) : sep ∉ part := by
  induction xs generalizing part with
  | nil =>
    rw [List.splitOn_nil, List.mem_singleton] at h
    exact h ▸ List.not_mem_nil
  | cons x xs ih =>
    rw [List.splitOn_cons_eq_if_modifyHead] at h
    obtain ⟨first, rest, hcut⟩ := List.exists_cons_of_ne_nil (List.splitOn_ne_nil sep xs)
    rw [hcut] at h ih
    split at h
    · obtain rfl | h := List.mem_cons.mp h
      · exact List.not_mem_nil
      · exact ih h
    · next hx =>
      obtain rfl | h := List.mem_cons.mp h
      · rw [List.mem_cons, not_or]
        exact ⟨fun heq => hx (beq_iff_eq.mpr heq.symm), ih List.mem_cons_self⟩
      · exact ih (List.mem_cons_of_mem first h)

/-! ### What runs are read as -/

/-- What runs consist of: line breaks, and words with the blanks behind them. -/
inductive LayoutItem where
  | lineBreak
  | word (run : Run)
  deriving DecidableEq

namespace LayoutItem

/-- The characters of an item. -/
def text : LayoutItem → List Char
  | lineBreak => ['\n']
  | word w => w.text

/-- The word that an item is, if it is one. -/
def word? : LayoutItem → Option Run
  | lineBreak => none
  | word w => some w

/-- Whether an item that follows another one is a word that begins behind blanks, if both are
words. -/
def Meet : LayoutItem → LayoutItem → Prop
  | word u, word v => MeetAtBlank u.text v.text
  | _, _ => True

end LayoutItem

namespace Run

/-- The words of a line of a run. -/
def wordItems (r : Run) (line : List Char) : List LayoutItem :=
  (wordsOf line).map fun w => .word { r with text := w }

/-- The words and line breaks of a run, in order. -/
def items (r : Run) : List LayoutItem :=
  [LayoutItem.lineBreak].intercalate ((r.text.splitOn '\n').map r.wordItems)

/-- Whether a run reads as some items: they spell its text, its words have its colour and weight,
and it is cut only at line breaks and where a word begins behind blanks. -/
structure IsReading (r : Run) (items : List LayoutItem) : Prop where
  text : items.flatMap LayoutItem.text = r.text
  words : ∀ w, .word w ∈ items → w = { r with text := w.text } ∧ IsSpacedWord w.text ∧ '\n' ∉ w.text
  meet : items.IsChain LayoutItem.Meet

theorem mem_wordItems {r : Run} {line : List Char} {item : LayoutItem} :
    item ∈ r.wordItems line ↔ ∃ w ∈ wordsOf line, .word { r with text := w } = item :=
  List.mem_map

theorem flatMap_text_wordItems (r : Run) (line : List Char) :
    (r.wordItems line).flatMap LayoutItem.text = line := by
  rw [wordItems, List.flatMap_map]
  exact List.flatMap_id'.trans (wordsOf_spec line).1

theorem isReading_items (r : Run) : IsReading r r.items := by
  suffices h : ∀ lines : List (List Char), (∀ line ∈ lines, '\n' ∉ line) →
      IsReading { r with text := ['\n'].intercalate lines }
        ([LayoutItem.lineBreak].intercalate (lines.map r.wordItems)) by
    have hreading := h (r.text.splitOn '\n') fun line => not_mem_of_mem_splitOn
    rwa [List.intercalate_splitOn] at hreading
  intro lines hlines
  -- One line after another, each with the line break before the next one.
  induction lines with
  | nil => exact ⟨rfl, nofun, .nil⟩
  | cons line lines ih =>
    obtain ⟨hline, hlines⟩ := List.forall_mem_cons.mp hlines
    have ih := ih hlines
    have hchain : (r.wordItems line).IsChain LayoutItem.Meet :=
      (List.isChain_map _).mpr (wordsOf_spec line).2.2
    have hwords : ∀ w, .word w ∈ r.wordItems line →
        w = { r with text := w.text } ∧ IsSpacedWord w.text ∧ '\n' ∉ w.text := by
      intro w hw
      obtain ⟨text, htext, heq⟩ := mem_wordItems.mp hw
      cases heq
      refine ⟨rfl, (wordsOf_spec line).2.1 text htext, fun hbreak => hline ?_⟩
      rw [← (wordsOf_spec line).1]
      exact List.mem_flatten_of_mem htext hbreak
    rcases lines with _ | ⟨next, lines⟩
    · rw [List.map_singleton, List.intercalate_singleton, List.intercalate_singleton]
      exact ⟨flatMap_text_wordItems r line, hwords, hchain⟩
    · rw [List.map_cons, List.map_cons, List.intercalate_cons_cons, List.intercalate_cons_cons,
        ← List.map_cons]
      refine ⟨?_, fun w hw => ?_, ?_⟩
      · rw [List.flatMap_append, List.flatMap_append, flatMap_text_wordItems, ih.text]
        rfl
      · simp only [List.mem_append, List.mem_singleton, reduceCtorEq, or_false] at hw
        rcases hw with hw | hw
        · exact hwords w hw
        · exact ih.words w hw
      · refine List.isChain_append.mpr ⟨List.isChain_append.mpr ⟨hchain, .singleton _, ?_⟩,
          ih.meet, ?_⟩
        · intro item _ item' hitem'
          cases hitem'
          cases item <;> trivial
        · intro item hitem item' _
          rw [List.getLast?_append, List.getLast?_singleton, Option.some_or] at hitem
          cases hitem
          cases item' <;> trivial

end Run

/-- The words and line breaks of runs, in order. -/
def layoutItems (runs : List Run) : List LayoutItem := runs.flatMap Run.items

/-! ### What can be told of runs -/

/-- What can be told of a run: its characters, each with the colour and the weight of the run. -/
def Run.marks (r : Run) : List (Char × Option Color × Bool) :=
  r.text.map fun c => (c, r.color, r.bold)

/-- What can be told of an item; a line break is not drawn. -/
def LayoutItem.marks : LayoutItem → List (Char × Option Color × Bool)
  | lineBreak => []
  | word w => w.marks

/-- The marks of runs but for line breaks. -/
def unbrokenMarks (runs : List Run) : List (Char × Option Color × Bool) :=
  (runs.flatMap Run.marks).filter (·.1 ≠ '\n')

/-- The marks of runs but for blanks. -/
def visibleMarks (runs : List Run) : List (Char × Option Color × Bool) :=
  (runs.flatMap Run.marks).filter (!isBlank ·.1)

theorem visibleMarks_eq_filter_unbrokenMarks (runs : List Run) :
    visibleMarks runs = (unbrokenMarks runs).filter (!isBlank ·.1) := by
  rw [unbrokenMarks, List.filter_filter, visibleMarks]
  refine List.filter_congr fun mark _ => ?_
  -- A line break is a blank itself.
  by_cases hmark : mark.1 = '\n'
  · rw [hmark]
    rfl
  · simp [hmark]

theorem Run.IsReading.marks {r : Run} {items : List LayoutItem} (h : r.IsReading items) :
    items.flatMap LayoutItem.marks = r.marks.filter (·.1 ≠ '\n') := by
  rw [Run.marks, ← h.text, List.map_flatMap, List.filter_flatMap]
  refine List.flatMap_congr fun item hitem => ?_
  rcases item with _ | w
  · rfl
  · obtain ⟨hw, -, hbreak⟩ := h.words w hitem
    rw [LayoutItem.marks, Run.marks, LayoutItem.text, List.filter_eq_self.mpr, hw]
    intro mark hmark
    obtain ⟨c, hc, rfl⟩ := List.mem_map.mp hmark
    exact decide_eq_true fun heq => hbreak (heq ▸ hc)

theorem flatMap_marks_layoutItems (runs : List Run) :
    (layoutItems runs).flatMap LayoutItem.marks = unbrokenMarks runs := by
  rw [layoutItems, unbrokenMarks, List.flatMap_assoc, List.filter_flatMap]
  exact List.flatMap_congr fun r _ => r.isReading_items.marks

theorem isSpacedWord_of_mem_layoutItems {runs : List Run} {w : Run}
    (h : .word w ∈ layoutItems runs) :
    IsSpacedWord w.text := by
  obtain ⟨r, -, hw⟩ := List.mem_flatMap.mp h
  exact (r.isReading_items.words w hw).2.1

/-! ### What lines keep -/

/-- Whether runs are the words of some items, in order. If lines are wrapped, words of blanks may
be missing. -/
inductive KeepsWords (wraps : Bool) : List LayoutItem → List Run → Prop
  | nil : KeepsWords wraps [] []
  | lineBreak {items : List LayoutItem} {runs : List Run} :
      KeepsWords wraps items runs → KeepsWords wraps (.lineBreak :: items) runs
  | word {items : List LayoutItem} {runs : List Run} (w : Run) :
      KeepsWords wraps items runs → KeepsWords wraps (.word w :: items) (w :: runs)
  | blank {items : List LayoutItem} {runs : List Run} {w : Run} :
      wraps = true → (∀ c ∈ w.text, isBlank c = true) → KeepsWords wraps items runs →
        KeepsWords wraps (.word w :: items) runs

namespace KeepsWords

variable {wraps : Bool} {items items' : List LayoutItem} {runs runs' : List Run}

theorem append (h : KeepsWords wraps items runs) (h' : KeepsWords wraps items' runs') :
    KeepsWords wraps (items ++ items') (runs ++ runs') := by
  induction h with
  | nil => exact h'
  | lineBreak _ ih => exact ih.lineBreak
  | word w _ ih => exact ih.word w
  | blank hwraps hblank _ ih => exact ih.blank hwraps hblank

theorem mem {r : Run} (h : KeepsWords wraps items runs) (hr : r ∈ runs) : .word r ∈ items := by
  induction h with
  | nil => cases hr
  | lineBreak _ ih => exact .tail _ (ih hr)
  | word w _ ih =>
    rcases List.mem_cons.mp hr with rfl | hr
    · exact List.mem_cons_self
    · exact .tail _ (ih hr)
  | blank _ _ _ ih => exact .tail _ (ih hr)

/-- Without wrapping, all can be told of the words that can be told of the items. -/
theorem marks (h : KeepsWords false items runs) :
    runs.flatMap Run.marks = items.flatMap LayoutItem.marks := by
  induction h with
  | nil => rfl
  | lineBreak _ ih => exact ih
  | word w _ ih => rw [List.flatMap_cons, List.flatMap_cons, ih, LayoutItem.marks]
  | blank hwraps => cases hwraps

/-- Nothing that can be seen is missing. -/
theorem visibleMarks (h : KeepsWords wraps items runs) :
    TimelineExport.visibleMarks runs =
      (items.flatMap LayoutItem.marks).filter (!isBlank ·.1) := by
  simp only [TimelineExport.visibleMarks]
  induction h with
  | nil => rfl
  | lineBreak _ ih => exact ih
  | word w _ ih =>
    rw [List.flatMap_cons, List.flatMap_cons, List.filter_append, List.filter_append, ih,
      LayoutItem.marks]
  | @blank _ _ w _ hblank _ ih =>
    have hmarks : w.marks.filter (!isBlank ·.1) = [] := by
      rw [List.filter_eq_nil_iff]
      intro mark hmark
      obtain ⟨c, hc, rfl⟩ := List.mem_map.mp hmark
      simp [hblank c hc]
    rw [List.flatMap_cons, List.filter_append, LayoutItem.marks, hmarks, ih, List.nil_append]

end KeepsWords

/-! ### Layouts -/

section
variable {α : Type} [Scalar α] (measure : Run → α) (wrap : Option α)

/-- How wide a line is with one more word, without the blanks behind that word. -/
def widthWith (line : List Run) (word : Run) : α :=
  Scalar.total (line.map measure) + measure { word with text := trimEnd word.text }

/-- Whether a line ends before an item: a line break, or a word with which it would be too wide. -/
def EndsLine (line : List Run) : LayoutItem → Prop
  | .lineBreak => True
  | .word w => ∃ limit, wrap = some limit ∧ limit < widthWith measure line w

/-- Whether a line of two words or more is not too wide, without the blanks behind its last word. -/
def Fits (line : List Run) : Prop :=
  ∀ limit, wrap = some limit → ∀ words last, line = words ++ [last] → words ≠ [] →
    ¬ limit < widthWith measure words last

/-- Whether items are divided between a line, with what comes before it, and what comes after it,
at an item before which the line ends. -/
def DividesAt (items : List LayoutItem) (before line after : List Run) : Prop :=
  ∃ first item rest, items = first ++ item :: rest ∧
    KeepsWords wrap.isSome first (before ++ line) ∧
    KeepsWords wrap.isSome (item :: rest) after ∧ EndsLine measure wrap line item

/-- **What lines keep of runs.** The runs are read as words and line breaks. The lines consist of
the words and show what the runs show, in the same order and with the same colours and weights;
without wrapping they also have the same blanks. No line is empty, and if nothing is left, there is
a single blank. A line ends only at a line break or before a word with which it would be too wide,
and no line of two words or more is too wide without the blanks behind its last word. -/
structure IsLayout (runs : List Run) (lines : List (List Run)) : Prop where
  reading : ∀ r ∈ runs, r.IsReading r.items
  keeps : unbrokenMarks runs ≠ [] → KeepsWords wrap.isSome (layoutItems runs) lines.flatten
  visible : visibleMarks lines.flatten = visibleMarks runs
  nonempty : ∀ line ∈ lines, line ≠ []
  blank : unbrokenMarks runs = [] → lines = [[{ text := [' '] }]]
  whole : wrap = none → unbrokenMarks runs ≠ [] →
    lines.flatten.flatMap Run.marks = unbrokenMarks runs
  breaks : ∀ before line next after, lines = before ++ line :: next :: after →
    DividesAt measure wrap (layoutItems runs) before.flatten line (next :: after).flatten
  fits : ∀ line ∈ lines, Fits measure wrap line

variable {measure wrap}

theorem fits_of_length_le_one {line : List Run} (h : line.length ≤ 1) : Fits measure wrap line := by
  intro limit _ words last hline hwords
  have hpos := List.length_pos_of_ne_nil hwords
  rw [hline, List.length_append, List.length_singleton] at h
  omega

theorem DividesAt.append {items items' : List LayoutItem} {before line after runs' : List Run}
    (h : DividesAt measure wrap items before line after)
    (h' : KeepsWords wrap.isSome items' runs') :
    DividesAt measure wrap (items ++ items') before line (after ++ runs') := by
  obtain ⟨first, item, rest, rfl, hfirst, hrest, hends⟩ := h
  exact ⟨first, item, rest ++ items', by rw [List.append_assoc, List.cons_append], hfirst,
    hrest.append h', hends⟩

namespace LineState

/-! ### Lines under construction -/

variable (measure wrap) in
/-- Lays out one more item. -/
def take (s : LineState α) : LayoutItem → LineState α
  | .lineBreak => s.breakLine
  | .word w => s.place measure wrap w

theorem placeLine_eq_foldl_take (r : Run) (s : LineState α) (line : List Char) :
    s.placeLine measure wrap r line = (r.wordItems line).foldl (take measure wrap) s := by
  rw [Run.wordItems, List.foldl_map]
  rfl

theorem placeRun_eq_foldl_take (s : LineState α) (r : Run) :
    s.placeRun measure wrap r = r.items.foldl (take measure wrap) s := by
  obtain ⟨first, rest, hlines⟩ := List.exists_cons_of_ne_nil (List.splitOn_ne_nil '\n' r.text)
  simp only [placeRun, Run.items, hlines]
  clear hlines
  induction rest generalizing s first with
  | nil =>
    rw [List.map_singleton, List.intercalate_singleton, List.foldl_nil, placeLine_eq_foldl_take]
  | cons next rest ih =>
    rw [List.foldl_cons, ih, List.map_cons, List.map_cons, List.map_cons,
      List.intercalate_cons_cons, List.foldl_append, List.foldl_append, placeLine_eq_foldl_take]
    rfl

theorem foldl_placeRun_eq_foldl_take (s : LineState α) (runs : List Run) :
    runs.foldl (placeRun measure wrap) s = (layoutItems runs).foldl (take measure wrap) s := by
  rw [layoutItems, List.foldl_flatMap]
  exact List.foldl_ext _ _ _ fun s r _ => placeRun_eq_foldl_take s r

/-- The lines so far, with the current one. -/
def lines (s : LineState α) : List (List Run) := s.finished ++ [s.current]

variable (measure wrap) in
/-- **The invariant of lines under construction.** They keep the words of the items so far, the
width is that of the current line, the items are divided at every finished line, and nothing is laid
out only if there was no word. -/
structure Holds (items : List LayoutItem) (s : LineState α) : Prop where
  width : s.width = Scalar.total (s.current.map measure)
  keeps : KeepsWords wrap.isSome items s.lines.flatten
  fits : ∀ line ∈ s.lines, Fits measure wrap line
  ends : ∀ before line after, s.finished = before ++ line :: after → line ≠ [] →
    DividesAt measure wrap items before.flatten line (after.flatten ++ s.current)
  begun : s.lines.flatten = [] → ∀ w, .word w ∉ items

theorem holds_nil : Holds measure wrap [] ({ width := 0 } : LineState α) where
  width := rfl
  keeps := .nil
  fits line hline := by
    rw [List.mem_singleton.mp hline]
    exact fits_of_length_le_one (Nat.zero_le 1)
  ends before line after h := by simp at h
  begun _ _ := List.not_mem_nil

variable {items : List LayoutItem} {item : LayoutItem} {s : LineState α}

/-- **A new line begins** before an item, at most with the word that the item is. -/
theorem Holds.newLine (h : Holds measure wrap items s) {current : List Run}
    (hends : s.current ≠ [] → EndsLine measure wrap s.current item)
    (hkeeps : KeepsWords wrap.isSome [item] current) (hcurrent : current.length ≤ 1)
    (hbegun : s.current = [] → current = [] → item = .lineBreak) :
    Holds measure wrap (items ++ [item])
      { finished := s.lines, current, width := Scalar.total (current.map measure) } where
  width := rfl
  keeps := by
    simp only [lines, List.flatten_append, List.flatten_singleton]
    have hitems := h.keeps
    simp only [lines, List.flatten_append, List.flatten_singleton] at hitems
    exact hitems.append hkeeps
  fits line hline := by
    rcases List.mem_append.mp hline with hline | hline
    · exact h.fits line hline
    · rw [List.mem_singleton.mp hline]
      exact fits_of_length_le_one hcurrent
  ends before line after hlines hline := by
    -- Either the line was the current one up to now, or it was finished before.
    rcases List.eq_nil_or_concat after with rfl | ⟨after, last, rfl⟩
    · obtain ⟨rfl, heq⟩ := List.append_inj' hlines rfl
      obtain rfl := List.singleton_inj.mp heq
      have hitems := h.keeps
      simp only [lines, List.flatten_append, List.flatten_singleton] at hitems
      exact ⟨items, item, [], rfl, hitems, hkeeps, hends hline⟩
    · rw [List.concat_eq_append, ← List.cons_append, ← List.append_assoc] at hlines
      obtain ⟨hfinished, heq⟩ := List.append_inj' hlines rfl
      obtain rfl := List.singleton_inj.mp heq
      have hdivides := (h.ends before line after hfinished hline).append hkeeps
      simpa only [List.concat_eq_append, List.flatten_append, List.flatten_singleton] using hdivides
  begun hempty w hw := by
    simp only [lines, List.flatten_append, List.flatten_singleton, List.append_eq_nil_iff] at hempty
    rcases List.mem_append.mp hw with hw | hw
    · refine h.begun ?_ w hw
      simp only [lines, List.flatten_append, List.flatten_singleton, List.append_eq_nil_iff]
      exact hempty.1
    · rw [hbegun hempty.1.2 hempty.2] at hw
      simp at hw

/-- **The current line grows** by a word that fits. -/
theorem Holds.addWord (h : Holds measure wrap items s) {w : Run}
    (hfits : s.overflows measure wrap w = false) :
    Holds measure wrap (items ++ [.word w])
      { s with current := s.current ++ [w], width := s.width + measure w } where
  width := by
    simp only [h.width, Scalar.total, List.map_append, List.map_singleton, List.foldl_append,
      List.foldl_cons, List.foldl_nil]
  keeps := by
    have hitems := h.keeps.append (.word w .nil)
    simpa only [lines, List.flatten_append, List.flatten_singleton, List.append_assoc] using hitems
  fits line hline := by
    rcases List.mem_append.mp hline with hline | hline
    · exact h.fits line (List.mem_append_left _ hline)
    · intro limit hlimit words last hwords hne
      rw [List.mem_singleton] at hline
      obtain ⟨rfl, heq⟩ := List.append_inj' (hline.symm.trans hwords) rfl
      obtain rfl := List.singleton_inj.mp heq
      subst hlimit
      simpa [overflows, widthWith, hne, h.width] using hfits
  ends before line after hlines hline := by
    have hdivides := (h.ends before line after hlines hline).append (.word w .nil)
    simpa only [List.append_assoc] using hdivides
  begun hempty := by simp [lines] at hempty

/-- **One step.** -/
theorem Holds.take (h : Holds measure wrap items s)
    (hword : ∀ w, item = .word w → IsSpacedWord w.text) :
    Holds measure wrap (items ++ [item]) (s.take measure wrap item) := by
  rcases item with _ | w
  · exact h.newLine (fun _ => trivial) (.lineBreak .nil) (Nat.zero_le 1) fun _ _ => rfl
  have hw := hword w rfl
  simp only [LineState.take, place]
  cases hover : s.overflows measure wrap w with
  | false =>
    have hne : w.text.isEmpty = false := List.isEmpty_eq_false_iff.mpr hw.1
    simp only [hne, Bool.false_eq_true, if_false]
    exact h.addWord hover
  | true =>
    -- A line is too wide only if it has words and lines are wrapped.
    obtain ⟨limit, rfl, hcurrent, hwide⟩ : ∃ limit, wrap = some limit ∧ s.current ≠ [] ∧
        limit < widthWith measure s.current w := by
      rcases wrap with _ | limit
      · cases hover
      · simp only [overflows, Bool.and_eq_true, Bool.not_eq_true', decide_eq_true_eq,
          List.isEmpty_eq_false_iff, h.width] at hover
        exact ⟨limit, rfl, hover⟩
    have hends : s.current ≠ [] → EndsLine measure (some limit) s.current (.word w) :=
      fun _ => ⟨limit, rfl, hwide⟩
    rcases hw.trimStart_eq with htrim | ⟨htrim, hblank⟩
    · have hne : w.text.isEmpty = false := List.isEmpty_eq_false_iff.mpr hw.1
      simp only [htrim, hne, if_true, Bool.false_eq_true, if_false]
      exact h.newLine hends (.word w .nil) (Nat.le_refl 1) fun hnil => absurd hnil hcurrent
    · simp only [htrim, if_true, List.isEmpty_nil]
      exact h.newLine hends (.blank rfl hblank .nil) (Nat.zero_le 1)
        fun hnil => absurd hnil hcurrent

/-- **A whole run** of items. -/
theorem holds_foldl_take (items : List LayoutItem)
    (hwords : ∀ w, .word w ∈ items → IsSpacedWord w.text) :
    Holds measure wrap items (items.foldl (take measure wrap) ({ width := 0 } : LineState α)) := by
  induction items using List.reverseRecOn with
  | nil => exact holds_nil
  | append_singleton items item ih =>
    rw [List.foldl_append, List.foldl_cons, List.foldl_nil]
    refine (ih fun w hw => hwords w (List.mem_append_left _ hw)).take fun w hw => hwords w ?_
    rw [hw]
    exact List.mem_append_right _ List.mem_cons_self

/-- The lines that have words are divided as the lines under construction are. -/
theorem Holds.dividesAt (h : Holds measure wrap items s) {before after : List (List Run)}
    {line next : List Run}
    (hlines : s.lines.filter (!·.isEmpty) = before ++ line :: next :: after) :
    DividesAt measure wrap items before.flatten line (next :: after).flatten := by
  obtain ⟨front, back, hsplit, hfront, hback⟩ := List.filter_eq_append_iff.mp hlines
  obtain ⟨empties, rest, rfl, hempties, hline, hrest⟩ := List.filter_eq_cons_iff.mp hback
  -- Another line with words follows, so the line is not the current one.
  rcases List.eq_nil_or_concat rest with rfl | ⟨rest, last, rfl⟩
  · cases hrest
  rw [List.concat_eq_append] at hsplit hrest
  have hfinished : s.finished = (front ++ empties) ++ line :: rest ∧ [s.current] = [last] := by
    refine List.append_inj' ?_ rfl
    rw [List.append_assoc, List.append_assoc]
    exact hsplit
  have hdivides := h.ends (front ++ empties) line rest hfinished.1 (by simpa using hline)
  have hbefore : (front ++ empties).flatten = before.flatten := by
    have hnil : empties.flatten = [] :=
      List.flatten_eq_nil_iff.mpr fun line hline => by simpa using hempties line hline
    rw [← hfront, List.flatten_filter_not_isEmpty, List.flatten_append, hnil, List.append_nil]
  have hafter : rest.flatten ++ s.current = (next :: after).flatten := by
    rw [← hrest, List.flatten_filter_not_isEmpty, List.flatten_append, List.flatten_singleton,
      List.singleton_inj.mp hfinished.2]
  rwa [hbefore, hafter] at hdivides

/-- No line has words just if there was nothing but line breaks. -/
theorem Holds.filter_lines_eq_nil_iff {runs : List Run}
    (h : Holds measure wrap (layoutItems runs) s) :
    s.lines.filter (!·.isEmpty) = [] ↔ unbrokenMarks runs = [] := by
  rw [← flatMap_marks_layoutItems, List.flatMap_eq_nil_iff]
  constructor
  · intro hnone item hitem
    rcases item with _ | w
    · rfl
    · refine absurd hitem (h.begun ?_ w)
      rw [← List.flatten_filter_not_isEmpty, hnone, List.flatten_nil]
  · intro hmarks
    -- A line that is kept has a word, and of a word something can be told.
    rw [List.filter_eq_nil_iff]
    intro line hline hwords
    obtain ⟨w, hw⟩ := List.exists_mem_of_ne_nil line (by simpa using hwords)
    have hitem := h.keeps.mem (List.mem_flatten_of_mem hline hw)
    exact (isSpacedWord_of_mem_layoutItems hitem).1 (List.map_eq_nil_iff.mp (hmarks _ hitem))

/-- The lines that have words are a layout, if there are any. -/
theorem Holds.isLayout {runs : List Run} (h : Holds measure wrap (layoutItems runs) s)
    (hsome : s.lines.filter (!·.isEmpty) ≠ []) :
    IsLayout measure wrap runs (s.lines.filter (!·.isEmpty)) := by
  have hflatten : (s.lines.filter (!·.isEmpty)).flatten = s.lines.flatten :=
    List.flatten_filter_not_isEmpty
  exact {
    reading := fun r _ => r.isReading_items
    keeps := fun _ => by
      rw [hflatten]
      exact h.keeps
    visible := by
      rw [hflatten, h.keeps.visibleMarks, flatMap_marks_layoutItems,
        visibleMarks_eq_filter_unbrokenMarks]
    nonempty := fun line hline => by simpa using (List.mem_filter.mp hline).2
    blank := fun hmarks => absurd (h.filter_lines_eq_nil_iff.mpr hmarks) hsome
    whole := fun hwrap _ => by
      subst hwrap
      rw [hflatten, h.keeps.marks, flatMap_marks_layoutItems]
    breaks := fun before line next after => h.dividesAt
    fits := fun line hline => h.fits line (List.mem_filter.mp hline).1 }

end LineState

/-- A single blank is a layout of nothing but line breaks. -/
theorem isLayout_blank {runs : List Run} (hmarks : unbrokenMarks runs = []) :
    IsLayout measure wrap runs [[{ text := [' '] }]] where
  reading := fun r _ => r.isReading_items
  keeps := fun hne => absurd hmarks hne
  visible := by
    rw [visibleMarks_eq_filter_unbrokenMarks runs, hmarks]
    rfl
  nonempty := by simp
  blank := fun _ => rfl
  whole := fun _ hne => absurd hmarks hne
  breaks := fun before line next after hlines => by
    have hlength := congrArg List.length hlines
    simp only [List.length_append, List.length_cons, List.length_nil] at hlength
    omega
  fits := fun line hline => by
    rw [List.mem_singleton.mp hline]
    exact fits_of_length_le_one (Nat.le_refl 1)

/-- What runs are broken into: a single blank if nothing is left of them, and otherwise the lines
that have words once all items are laid out. -/
theorem layoutLines_cases (measure : Run → α) (wrap : Option α) (runs : List Run) :
    (unbrokenMarks runs = [] ∧ layoutLines measure wrap runs = [[{ text := [' '] }]]) ∨
      ∃ s : LineState α, s.Holds measure wrap (layoutItems runs) ∧
        s.lines.filter (!·.isEmpty) ≠ [] ∧
        layoutLines measure wrap runs = s.lines.filter (!·.isEmpty) := by
  obtain ⟨s, hs, h⟩ : ∃ s : LineState α,
      runs.foldl (LineState.placeRun measure wrap) { width := 0 } = s ∧
        s.Holds measure wrap (layoutItems runs) := by
    refine ⟨_, rfl, ?_⟩
    rw [LineState.foldl_placeRun_eq_foldl_take]
    exact LineState.holds_foldl_take _ fun w => isSpacedWord_of_mem_layoutItems
  have hlayout : layoutLines measure wrap runs =
      if (s.lines.filter (!·.isEmpty)).isEmpty then [[{ text := [' '] }]]
      else s.lines.filter (!·.isEmpty) := by
    rw [← hs]
    rfl
  rw [hlayout]
  by_cases hnone : s.lines.filter (!·.isEmpty) = []
  · rw [hnone, List.isEmpty_nil, if_pos rfl]
    exact .inl ⟨h.filter_lines_eq_nil_iff.mp hnone, rfl⟩
  · rw [if_neg (by simpa using hnone)]
    exact .inr ⟨s, h, hnone, rfl⟩

/-- **Breaking runs into lines keeps them**, whatever the measure of the words is. -/
theorem isLayout_layoutLines (measure : Run → α) (wrap : Option α) (runs : List Run) :
    IsLayout measure wrap runs (layoutLines measure wrap runs) := by
  obtain ⟨hmarks, hlines⟩ | ⟨s, h, hsome, hlines⟩ := layoutLines_cases measure wrap runs
  · rw [hlines]
    exact isLayout_blank hmarks
  · rw [hlines]
    exact h.isLayout hsome

end

end TimelineExport
