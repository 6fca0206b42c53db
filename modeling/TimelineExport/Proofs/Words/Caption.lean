import Mathlib.Data.List.Infix
import Mathlib.Data.List.TakeWhile
import TimelineExport.Paint.ColorLibrary
import TimelineExport.Proofs.Outcome
import TimelineExport.Words.Run

/-!
# How a caption is cut at its highlights

A caption is read as plain words and highlights (`CaptionReads`): a highlight has a colour without a
quotation mark and words without a closing tag, and plain words last until the next highlight
begins. Each text is read in exactly one way, and `captionParts` finds it (`captionParts_eq_iff`).
Written down one after another, the parts are the text again; what a run shows of a part is the part
without its tags.

The first character of a tag does not occur in it again. So a tag that is looked for is never found
astride the border of two pieces of which the second one begins with the same tag
(`isPrefix_of_isPrefix_append`), and parts that were written down are read back, if no plain words
among them look like a highlight's beginning (`captionReads_written`). Two plain pieces side by side
may do so only together (`split_tag_is_highlight`).
-/

namespace TimelineExport

namespace CaptionPart

/-- How a part of a caption is written. -/
def source : CaptionPart → List Char
  | plain text => text
  | highlight color text =>
    highlightOpening ++ color ++ highlightMiddle ++ text ++ highlightClosing

/-- The words of a part, without the tags around them. -/
def words : CaptionPart → List Char
  | plain text => text
  | highlight _ text => text

/-- Whether a part can be told from its tags: plain words have no opening tag, a colour has no
quotation mark, and highlighted words have no closing tag. -/
def IsWritable : CaptionPart → Prop
  | plain text => ¬ highlightOpening <:+: text
  | highlight color text => '"' ∉ color ∧ ¬ highlightClosing <:+: text

instance : DecidablePred IsWritable
  | plain text => inferInstanceAs (Decidable (¬ highlightOpening <:+: text))
  | highlight color text =>
    inferInstanceAs (Decidable ('"' ∉ color ∧ ¬ highlightClosing <:+: text))

end CaptionPart

/-- Whether a text begins with a highlight. -/
def BeginsHighlight (cs : List Char) : Prop :=
  ∃ color text rest, '"' ∉ color ∧ cs = (CaptionPart.highlight color text).source ++ rest

/-- **How a text is read** as a caption: from the left, as plain words up to the next highlight, and
as highlights that end at the first closing tag. -/
inductive CaptionReads : List Char → List CaptionPart → Prop
  | nil : CaptionReads [] []
  | highlight {color text rest : List Char} {parts : List CaptionPart}
      (hwritable : (CaptionPart.highlight color text).IsWritable)
      (hrest : CaptionReads rest parts) :
      CaptionReads ((CaptionPart.highlight color text).source ++ rest)
        (.highlight color text :: parts)
  | plain {text rest : List Char} {parts : List CaptionPart} (hne : text ≠ [])
      (hplain : ∀ tail, tail <:+ text → tail ≠ [] → ¬ BeginsHighlight (tail ++ rest))
      (hnext : ∀ more, parts.head? ≠ some (.plain more)) (hrest : CaptionReads rest parts) :
      CaptionReads (text ++ rest) (.plain text :: parts)

/-! ### Looking for a tag -/

section
variable {stem cs before rest tail s : List Char} {c : Char}

theorem isPrefixOf?_eq_some_iff : stem.isPrefixOf? cs = some rest ↔ cs = stem ++ rest :=
  List.isPrefixOf?_eq_some_iff_append_eq.trans eq_comm

theorem isPrefixOf?_append (stem rest : List Char) :
    stem.isPrefixOf? (stem ++ rest) = some rest :=
  isPrefixOf?_eq_some_iff.mpr rfl

/-- **No tag lies astride the border** of two pieces of which the second one begins as the tag does,
if the first character of the tag does not occur in it again. -/
theorem isPrefix_of_isPrefix_append (hc : c ∉ tail) (hs : s ≠ [])
    (h : c :: tail <+: s ++ c :: rest) : c :: tail <+: s := by
  obtain hle | hlt := le_or_gt (c :: tail).length s.length
  · exact List.prefix_of_prefix_length_le h (List.prefix_append _ _) hle
  · have hborder : s ++ [c] <+: c :: tail := by
      refine List.prefix_of_prefix_length_le ⟨rest, by simp⟩ h ?_
      rw [List.length_append, List.length_singleton]
      exact hlt
    obtain ⟨d, s, rfl⟩ := List.exists_cons_of_ne_nil hs
    rw [List.cons_append, List.cons_prefix_cons] at hborder
    exact absurd (hborder.2.subset (List.mem_append_right _ (List.mem_singleton_self c))) hc

/-- A text is split at the first place at which a tag occurs. -/
theorem splitAtFirst?_eq_some_iff (hc : c ∉ tail) :
    splitAtFirst? (c :: tail) cs = some (before, rest) ↔
      cs = before ++ (c :: tail ++ rest) ∧ ¬ c :: tail <:+: before := by
  induction cs generalizing before with
  | nil =>
    refine iff_of_false nofun fun h => ?_
    simpa using congrArg List.length h.1
  | cons d cs ih =>
    rw [splitAtFirst?]
    split
    · next more hmore =>
      rw [isPrefixOf?_eq_some_iff] at hmore
      rw [hmore, Option.some.injEq, Prod.mk.injEq]
      constructor
      · rintro ⟨rfl, rfl⟩
        exact ⟨rfl, by simp⟩
      · rintro ⟨heq, hnot⟩
        -- an earlier occurrence would lie in what stands before
        obtain rfl : before = [] := by
          by_contra hne
          have hprefix : c :: tail <+: before ++ c :: (tail ++ rest) := ⟨more, heq⟩
          exact hnot (isPrefix_of_isPrefix_append hc hne hprefix).isInfix
        exact ⟨rfl, List.append_cancel_left heq⟩
    · next hnone =>
      have hstem : ∀ more, d :: cs ≠ c :: tail ++ more := fun more heq => by
        rw [isPrefixOf?_eq_some_iff.mpr heq] at hnone
        cases hnone
      rw [Option.map_eq_some_iff]
      constructor
      · rintro ⟨⟨before, rest⟩, hsplit, heq⟩
        cases heq
        obtain ⟨rfl, hnot⟩ := ih.mp hsplit
        refine ⟨rfl, fun hinfix => ?_⟩
        obtain ⟨more, hmore⟩ | hinfix := List.infix_cons_iff.mp hinfix
        · refine hstem (more ++ (c :: tail ++ rest)) ?_
          rw [← List.cons_append, ← hmore, List.append_assoc]
        · exact hnot hinfix
      · rintro ⟨heq, hnot⟩
        obtain - | ⟨b, before⟩ := before
        · exact absurd heq (hstem rest)
        · obtain ⟨rfl, rfl⟩ := List.cons.inj heq
          exact ⟨(before, rest), ih.mpr ⟨rfl, fun h => hnot (List.infix_cons h)⟩, rfl⟩

theorem isSome_splitAtFirst? (h : stem <:+: cs) : (splitAtFirst? stem cs).isSome := by
  induction cs with
  | nil => rw [List.infix_nil.mp h, splitAtFirst?, List.isEmpty_nil, if_pos rfl, Option.isSome_some]
  | cons d cs ih =>
    rw [splitAtFirst?]
    split
    · rfl
    · next hnone =>
      rw [Option.isSome_map]
      obtain ⟨more, hmore⟩ | hinfix := List.infix_cons_iff.mp h
      · rw [isPrefixOf?_eq_some_iff.mpr hmore.symm] at hnone
        cases hnone
      · exact ih hinfix

end

/-! ### Highlights -/

section
variable {cs color text rest : List Char}

/-- The characters of the opening tag after the first one, which does not occur among them. -/
theorem exists_highlightOpening : ∃ tail, highlightOpening = '<' :: tail ∧ '<' ∉ tail :=
  ⟨_, rfl, by decide⟩

theorem exists_highlightClosing : ∃ tail, highlightClosing = '<' :: tail ∧ '<' ∉ tail :=
  ⟨_, rfl, by decide⟩

theorem source_highlight (color text rest : List Char) :
    (CaptionPart.highlight color text).source ++ rest =
      highlightOpening ++ (color ++ (highlightMiddle ++ (text ++ (highlightClosing ++ rest)))) := by
  simp only [CaptionPart.source, List.append_assoc]

/-- A colour ends at the first quotation mark. -/
theorem takeWhile_color {more : List Char} (hcolor : '"' ∉ color) :
    (color ++ (highlightMiddle ++ more)).takeWhile (· ≠ '"') = color := by
  have hmiddle : (highlightMiddle ++ more).takeWhile (· ≠ '"') = [] :=
    List.takeWhile_cons_of_neg (a := '"') (by simp)
  have hkept : ∀ c ∈ color, decide (c ≠ '"') = true := fun c hc =>
    decide_eq_true fun heq => hcolor (heq ▸ hc)
  rw [List.takeWhile_append_of_pos hkept, hmiddle, List.append_nil]

/-- The closing tag is looked for from the left. -/
theorem splitAtFirst?_highlightClosing {before : List Char} :
    splitAtFirst? highlightClosing cs = some (before, rest) ↔
      cs = before ++ (highlightClosing ++ rest) ∧ ¬ highlightClosing <:+: before := by
  obtain ⟨tail, htail, hfirst⟩ := exists_highlightClosing
  rw [htail]
  exact splitAtFirst?_eq_some_iff hfirst

/-- **The highlight at the start of a text** ends at the first closing tag. -/
theorem highlight?_eq_some_iff :
    highlight? cs = some (color, text, rest) ↔
      (CaptionPart.highlight color text).IsWritable ∧
        cs = (CaptionPart.highlight color text).source ++ rest := by
  rw [source_highlight]
  constructor
  · intro h
    obtain ⟨behind, hopening, h⟩ := Option.bind_eq_some_iff.mp h
    obtain ⟨more, hmiddle, h⟩ := Option.bind_eq_some_iff.mp h
    obtain ⟨⟨before, after⟩, hsplit, h⟩ := Option.bind_eq_some_iff.mp h
    cases h
    obtain ⟨rfl, hnot⟩ := splitAtFirst?_highlightClosing.mp hsplit
    refine ⟨⟨fun hmem => ?_, hnot⟩, ?_⟩
    · simpa using List.mem_takeWhile_imp hmem
    · rw [← isPrefixOf?_eq_some_iff.mp hmiddle,
        ← List.prefix_append_drop (List.takeWhile_prefix (· ≠ '"'))]
      exact isPrefixOf?_eq_some_iff.mp hopening
  · rintro ⟨⟨hcolor, hnot⟩, rfl⟩
    have hsplit := splitAtFirst?_highlightClosing.mpr
      ⟨Eq.refl (text ++ (highlightClosing ++ rest)), hnot⟩
    simp only [highlight?, Option.bind_eq_bind, isPrefixOf?_append, Option.bind_some,
      takeWhile_color hcolor, List.drop_left, hsplit, Option.pure_def]

/-- No highlight is found exactly where none begins. -/
theorem highlight?_eq_none_iff : highlight? cs = none ↔ ¬ BeginsHighlight cs := by
  constructor
  · rintro hnone ⟨color, text, rest, hcolor, rfl⟩
    -- the words may end earlier than at this closing tag, but they do end
    have hclosed : highlightClosing <:+: text ++ (highlightClosing ++ rest) :=
      ⟨text, rest, List.append_assoc _ _ _⟩
    obtain ⟨⟨before, after⟩, hsplit⟩ := Option.isSome_iff_exists.mp (isSome_splitAtFirst? hclosed)
    obtain ⟨heq, hnot⟩ := splitAtFirst?_highlightClosing.mp hsplit
    have hfound : highlight? ((CaptionPart.highlight color text).source ++ rest) =
        some (color, before, after) := by
      refine highlight?_eq_some_iff.mpr ⟨⟨hcolor, hnot⟩, ?_⟩
      rw [source_highlight, source_highlight, heq]
    rw [hfound] at hnone
    cases hnone
  · intro hnot
    refine Option.eq_none_iff_forall_not_mem.mpr ?_
    rintro ⟨color, text, rest⟩ hfound
    obtain ⟨⟨hcolor, -⟩, heq⟩ := highlight?_eq_some_iff.mp hfound
    exact hnot ⟨color, text, rest, hcolor, heq⟩

/-- A highlight is not empty. -/
theorem length_source_highlight (color text : List Char) :
    0 < (CaptionPart.highlight color text).source.length := by
  obtain ⟨tail, htail, -⟩ := exists_highlightOpening
  rw [← List.append_nil (CaptionPart.highlight color text).source, source_highlight, htail]
  exact Nat.succ_pos _

end

/-! ### Readings -/

section
variable {cs rest text : List Char} {parts : List CaptionPart} {c : Char} {fuel : Nat}

/-- The parts of a reading spell the text. -/
theorem CaptionReads.flatMap_source (h : CaptionReads cs parts) :
    parts.flatMap CaptionPart.source = cs := by
  induction h with
  | nil => rfl
  | highlight _ _ ih => rw [List.flatMap_cons, ih]
  | plain _ _ _ _ ih =>
    rw [List.flatMap_cons, ih]
    rfl

/-- One more character in front of a text belongs to plain words, unless a highlight begins
there. -/
theorem CaptionReads.consPlain (h : CaptionReads cs parts) (hnot : ¬ BeginsHighlight (c :: cs)) :
    CaptionReads (c :: cs) (consPlain c parts) := by
  have hsingle : (∀ more, parts.head? ≠ some (.plain more)) →
      CaptionReads ([c] ++ cs) (.plain [c] :: parts) := by
    refine fun hnext => .plain (List.cons_ne_nil _ _) (fun tail htail hne => ?_) hnext h
    obtain rfl | htail := List.suffix_cons_iff.mp htail
    · exact hnot
    · exact absurd (List.suffix_nil.mp htail) hne
  cases h with
  | nil => exact hsingle nofun
  | highlight => exact hsingle nofun
  | @plain text rest parts hne hplain hnext hrest =>
    refine .plain (List.cons_ne_nil c text) (fun tail htail hne => ?_) hnext hrest
    obtain rfl | htail := List.suffix_cons_iff.mp htail
    · exact hnot
    · exact hplain tail htail hne

/-- **The parts that are found** are a reading of the text. -/
theorem captionReads_captionPartsOf (hfuel : cs.length ≤ fuel) :
    CaptionReads cs (captionPartsOf fuel cs) := by
  induction fuel generalizing cs with
  | zero =>
    obtain rfl := List.length_eq_zero_iff.mp (Nat.le_zero.mp hfuel)
    exact .nil
  | succ fuel ih =>
    obtain - | ⟨c, cs⟩ := cs
    · exact .nil
    · rw [captionPartsOf]
      split
      · next color text rest hfound =>
        obtain ⟨hwritable, heq⟩ := highlight?_eq_some_iff.mp hfound
        rw [heq]
        refine .highlight hwritable (ih ?_)
        have hlength := congrArg List.length heq
        rw [List.length_append] at hlength
        have hpos := length_source_highlight color text
        omega
      · next hnone =>
        exact (ih (Nat.le_of_succ_le_succ hfuel)).consPlain (highlight?_eq_none_iff.mp hnone)

/-- Where no highlight begins, a character of a text is put in front of the parts of the others. -/
theorem captionPartsOf_of_not_begins (hnot : ¬ BeginsHighlight (c :: cs)) :
    captionPartsOf (fuel + 1) (c :: cs) = consPlain c (captionPartsOf fuel cs) := by
  rw [captionPartsOf, highlight?_eq_none_iff.mpr hnot]

/-- Plain words in front of a text are read as one part. -/
theorem captionPartsOf_plain (hrest : ∀ fuel, rest.length ≤ fuel → captionPartsOf fuel rest = parts)
    (hnext : ∀ more, parts.head? ≠ some (.plain more)) (hne : text ≠ [])
    (hplain : ∀ tail, tail <:+ text → tail ≠ [] → ¬ BeginsHighlight (tail ++ rest))
    (hfuel : (text ++ rest).length ≤ fuel) :
    captionPartsOf fuel (text ++ rest) = .plain text :: parts := by
  induction text generalizing fuel with
  | nil => exact absurd rfl hne
  | cons c text ih =>
    obtain - | fuel := fuel
    · simp at hfuel
    have hnot : ¬ BeginsHighlight (c :: (text ++ rest)) :=
      hplain (c :: text) List.suffix_rfl (List.cons_ne_nil _ _)
    rw [List.cons_append, captionPartsOf_of_not_begins hnot]
    rw [List.cons_append, List.length_cons] at hfuel
    obtain - | ⟨d, text⟩ := text
    · rw [List.nil_append, hrest fuel (Nat.le_of_succ_le_succ hfuel)]
      rcases parts with _ | ⟨_ | _, parts⟩
      · rfl
      · exact absurd rfl (hnext _)
      · rfl
    · have hothers : ∀ tail, tail <:+ d :: text → tail ≠ [] → ¬ BeginsHighlight (tail ++ rest) :=
        fun tail htail => hplain tail (htail.trans (List.suffix_cons c _))
      rw [ih (List.cons_ne_nil _ _) hothers (Nat.le_of_succ_le_succ hfuel), consPlain]

/-- There is no other reading than the one that is found. -/
theorem CaptionReads.captionPartsOf_eq (h : CaptionReads cs parts) (hfuel : cs.length ≤ fuel) :
    captionPartsOf fuel cs = parts := by
  induction h generalizing fuel with
  | nil => cases fuel <;> rfl
  | @highlight color text rest parts hwritable _ ih =>
    have hfound := highlight?_eq_some_iff.mpr
      ⟨hwritable, Eq.refl ((CaptionPart.highlight color text).source ++ rest)⟩
    have hpos := length_source_highlight color text
    rw [List.length_append] at hfuel
    obtain - | fuel := fuel
    · omega
    rcases hcs : (CaptionPart.highlight color text).source ++ rest with _ | ⟨c, cs⟩
    · rw [(List.append_eq_nil_iff.mp hcs).1] at hpos
      cases hpos
    · rw [hcs] at hfound
      rw [captionPartsOf, hfound]
      dsimp only
      rw [ih (by omega)]
  | plain hne hplain hnext _ ih => exact captionPartsOf_plain (fun _ => ih) hnext hne hplain hfuel

/-- **A text is read in exactly one way**, and its parts are that reading. -/
theorem captionParts_eq_iff : captionParts cs = parts ↔ CaptionReads cs parts :=
  ⟨fun h => h ▸ captionReads_captionPartsOf le_rfl, fun h => h.captionPartsOf_eq le_rfl⟩

end

/-! ### Writing -/

/-- Puts plain words in front of parts; side by side with other plain words they are one part. -/
def putPlain (text : List Char) : List CaptionPart → List CaptionPart
  | .plain more :: parts => .plain (text ++ more) :: parts
  | parts => if text = [] then parts else .plain text :: parts

/-- Parts with the plain words that stand side by side put together, and empty ones left out. -/
def merged : List CaptionPart → List CaptionPart
  | [] => []
  | .plain text :: parts => putPlain text (merged parts)
  | .highlight color text :: parts => .highlight color text :: merged parts

/-- Whether no plain words are empty, and none stand side by side. -/
inductive IsMerged : List CaptionPart → Prop
  | nil : IsMerged []
  | highlight {color text : List Char} {parts : List CaptionPart} (h : IsMerged parts) :
      IsMerged (.highlight color text :: parts)
  | plain {text : List Char} {parts : List CaptionPart} (hne : text ≠ [])
      (hnext : ∀ more, parts.head? ≠ some (.plain more)) (h : IsMerged parts) :
      IsMerged (.plain text :: parts)

section
variable {cs text : List Char} {parts : List CaptionPart}

theorem isMerged_putPlain (h : IsMerged parts) : IsMerged (putPlain text parts) := by
  have hput : (∀ more, parts.head? ≠ some (.plain more)) →
      IsMerged (if text = [] then parts else .plain text :: parts) := fun hnext => by
    split
    · exact h
    · next hne => exact .plain hne hnext h
  cases h with
  | nil => exact hput nofun
  | highlight => exact hput nofun
  | plain hne hnext hparts =>
    exact .plain (List.append_ne_nil_of_right_ne_nil _ hne) hnext hparts

theorem isMerged_merged (parts : List CaptionPart) : IsMerged (merged parts) := by
  induction parts with
  | nil => exact .nil
  | cons part parts ih =>
    cases part with
    | plain text => exact isMerged_putPlain ih
    | highlight color text => exact .highlight ih

theorem flatMap_source_putPlain (text : List Char) (parts : List CaptionPart) :
    (putPlain text parts).flatMap CaptionPart.source =
      text ++ parts.flatMap CaptionPart.source := by
  unfold putPlain
  split
  · rw [List.flatMap_cons, List.flatMap_cons, CaptionPart.source, CaptionPart.source,
      List.append_assoc]
  · split
    · next hempty => rw [hempty, List.nil_append]
    · rw [List.flatMap_cons, CaptionPart.source]

/-- Merging parts does not change how they are written. -/
theorem flatMap_source_merged (parts : List CaptionPart) :
    (merged parts).flatMap CaptionPart.source = parts.flatMap CaptionPart.source := by
  induction parts with
  | nil => rfl
  | cons part parts ih =>
    cases part with
    | plain text =>
      rw [merged, flatMap_source_putPlain, ih, List.flatMap_cons, CaptionPart.source]
    | highlight color text => rw [merged, List.flatMap_cons, List.flatMap_cons, ih]

theorem BeginsHighlight.isPrefix (h : BeginsHighlight cs) : highlightOpening <+: cs := by
  obtain ⟨color, text, rest, -, rfl⟩ := h
  rw [source_highlight]
  exact List.prefix_append _ _

/-- No highlight begins in plain words that have no opening tag, if a highlight or nothing
follows. -/
theorem not_beginsHighlight_append {tail : List Char} (htext : ¬ highlightOpening <:+: text)
    (htail : tail <:+ text) (hne : tail ≠ []) (hnext : ∀ more, parts.head? ≠ some (.plain more)) :
    ¬ BeginsHighlight (tail ++ parts.flatMap CaptionPart.source) := by
  intro hbegins
  have hprefix := hbegins.isPrefix
  refine htext (List.IsInfix.trans (List.IsPrefix.isInfix ?_) htail.isInfix)
  rcases parts with _ | ⟨more | ⟨color, words⟩, parts⟩
  · rwa [List.flatMap_nil, List.append_nil] at hprefix
  · exact absurd rfl (hnext more)
  · obtain ⟨opening, hopening, hfirst⟩ := exists_highlightOpening
    rw [List.flatMap_cons, source_highlight, hopening] at hprefix
    rw [hopening]
    exact isPrefix_of_isPrefix_append hfirst hne hprefix

/-- **Parts that are written down are read back.** -/
theorem captionReads_written (hmerged : IsMerged parts) (h : ∀ part ∈ parts, part.IsWritable) :
    CaptionReads (parts.flatMap CaptionPart.source) parts := by
  induction hmerged with
  | nil => exact .nil
  | highlight _ ih =>
    obtain ⟨hwritable, h⟩ := List.forall_mem_cons.mp h
    exact .highlight hwritable (ih h)
  | plain hne hnext _ ih =>
    obtain ⟨hwritable, h⟩ := List.forall_mem_cons.mp h
    exact .plain hne (fun tail htail hne => not_beginsHighlight_append hwritable htail hne hnext)
      hnext (ih h)

end

/-! ### Runs -/

/-- **Whether a run shows a part**: plain words have no colour of their own and are not in bold; a
highlight is in bold and has the colour that its text names, or white if it names none. -/
inductive CaptionPart.IsShownBy (library : ColorLibrary) : CaptionPart → Run → Prop
  | plain (text : List Char) :
    IsShownBy library (.plain text) { text, color := none, bold := false }
  | highlight {color : List Char} (text : List Char) {shown : Color}
      (h : readColor library (some (String.ofList color)) .white = .ok shown) :
      IsShownBy library (.highlight color text) { text, color := some shown, bold := true }

section
variable {library : ColorLibrary}

theorem CaptionPart.toRun_eq_ok_iff {part : CaptionPart} {run : Run} :
    part.toRun library = .ok run ↔ part.IsShownBy library run := by
  cases part with
  | plain text =>
    constructor
    · rintro ⟨⟩
      exact .plain text
    · rintro ⟨⟩
      rfl
  | highlight color text =>
    constructor
    · intro h
      obtain ⟨shown, hshown, h⟩ := bind_eq_ok.mp h
      cases h
      exact .highlight text hshown
    · intro h
      cases h with
      | highlight _ hshown => exact bind_eq_ok.mpr ⟨_, hshown, rfl⟩

variable (library) in
/-- **Whether a caption is shown as some parts**: each of its runs shows one of them, in order. It
has runs if all colours can be read. -/
structure IsShownAs (text : String) (parts : List CaptionPart) : Prop where
  runs : ∀ runs, captionRuns library text = .ok runs →
    List.Forall₂ (CaptionPart.IsShownBy library) parts runs
  returns : (∀ color words, .highlight color words ∈ parts →
    Succeeds (readColor library (some (String.ofList color)) .white)) →
      Succeeds (captionRuns library text)

variable {text : String} {parts : List CaptionPart} {runs : List Run}

theorem CaptionReads.isShownAs (h : CaptionReads text.toList parts) :
    IsShownAs library text parts := by
  have hruns : captionRuns library text = parts.mapM (CaptionPart.toRun library) := by
    rw [captionRuns, captionParts_eq_iff.mpr h]
  constructor
  · intro runs hok
    rw [hruns, mapM_eq_ok_iff] at hok
    exact hok.imp fun _ _ => CaptionPart.toRun_eq_ok_iff.mp
  · intro hcolors
    rw [hruns]
    refine Succeeds.mapM fun part hpart => ?_
    cases part with
    | plain words => exact ⟨_, rfl⟩
    | highlight color words => exact (hcolors color words hpart).bind fun _ _ => ⟨_, rfl⟩

/-- A run shows the words of a part. -/
theorem text_of_isShownBy (h : List.Forall₂ (CaptionPart.IsShownBy library) parts runs) :
    runs.flatMap (·.text) = parts.flatMap CaptionPart.words := by
  induction h with
  | nil => rfl
  | cons hpart _ ih =>
    rw [List.flatMap_cons, List.flatMap_cons, ih]
    cases hpart <;> rfl

end

/-- **The runs of a caption.** Parts that are written down one after another are shown again, with
plain words put together, if these have no opening tag then. Whatever the text is, it is read in
exactly one way; its runs show the parts of that reading, so their words are the text without the
tags of its highlights. -/
theorem captionRuns_show_parts (library : ColorLibrary) :
    (∀ parts : List CaptionPart, (∀ part ∈ merged parts, part.IsWritable) →
      IsShownAs library (String.ofList (parts.flatMap CaptionPart.source)) (merged parts)) ∧
    ∀ text : String, ∃ parts, (∀ other, CaptionReads text.toList other ↔ other = parts) ∧
      parts.flatMap CaptionPart.source = text.toList ∧ IsShownAs library text parts ∧
      ∀ runs, captionRuns library text = .ok runs →
        runs.flatMap (·.text) = parts.flatMap CaptionPart.words := by
  refine ⟨fun parts hwritable => ?_, fun text => ?_⟩
  · refine CaptionReads.isShownAs ?_
    rw [String.toList_ofList, ← flatMap_source_merged]
    exact captionReads_written (isMerged_merged parts) hwritable
  · have hreads : CaptionReads text.toList (captionParts text.toList) := captionParts_eq_iff.mp rfl
    have hshown : IsShownAs library text (captionParts text.toList) := hreads.isShownAs
    refine ⟨captionParts text.toList, fun other => ?_, hreads.flatMap_source, hshown,
      fun runs hok => text_of_isShownBy (hshown.runs runs hok)⟩
    rw [← captionParts_eq_iff, eq_comm]

/-- A caption with a highlight, in pieces. -/
def greeting : List CaptionPart :=
  [.plain "say ".toList, .plain [], .highlight "#ffff00".toList "hello".toList,
    .highlight "red".toList [], .plain " <span wor".toList, .plain "ld".toList]

/-- The pieces of a greeting are read back, with the last two in one. -/
theorem greeting_is_shown :
    (∀ part ∈ merged greeting, part.IsWritable) ∧
      IsShownAs .standard (String.ofList (greeting.flatMap CaptionPart.source))
        (merged greeting) ∧
      captionRuns .standard (String.ofList (greeting.flatMap CaptionPart.source)) =
        .ok [{ text := "say ".toList },
          { text := "hello".toList, color := some ⟨255, 255, 0, 255⟩, bold := true },
          { text := [], color := some ⟨255, 0, 0, 255⟩, bold := true },
          { text := " <span world".toList }] := by
  have hwritable : ∀ part ∈ merged greeting, part.IsWritable := by decide +kernel
  exact ⟨hwritable, (captionRuns_show_parts .standard).1 greeting hwritable, by decide +kernel⟩

/-- An opening tag, split into two pieces of plain words. -/
def splitTag : List CaptionPart :=
  [.plain "<span color=".toList, .plain "\"red\">x</span>".toList]

/-- **Two pieces of plain words may form a highlight** together that neither of them has. -/
theorem split_tag_is_highlight :
    (∀ part ∈ splitTag, part.IsWritable) ∧
      merged splitTag = [.plain "<span color=\"red\">x</span>".toList] ∧
      captionRuns .standard (String.ofList (splitTag.flatMap CaptionPart.source)) =
        .ok [{ text := ['x'], color := some ⟨255, 0, 0, 255⟩, bold := true }] ∧
      ¬ IsShownAs .standard (String.ofList (splitTag.flatMap CaptionPart.source))
        (merged splitTag) := by
  have hruns : captionRuns .standard (String.ofList (splitTag.flatMap CaptionPart.source)) =
      .ok [{ text := ['x'], color := some ⟨255, 0, 0, 255⟩, bold := true }] := by decide +kernel
  have hmerged : merged splitTag = [.plain "<span color=\"red\">x</span>".toList] := by
    decide +kernel
  refine ⟨by decide +kernel, hmerged, hruns, fun h => ?_⟩
  -- what is shown is a highlight
  have hshown := h.runs _ hruns
  rw [hmerged] at hshown
  cases hshown with
  | cons hpart _ => cases hpart

end TimelineExport
