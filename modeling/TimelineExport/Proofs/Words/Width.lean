import Mathlib.Data.List.DropRight
import Mathlib.Order.Lattice
import TimelineExport.Proofs.Number.Rational
import TimelineExport.Proofs.Outcome
import TimelineExport.Proofs.Words.Layout
import TimelineExport.Words.Block

/-!
# How wide a text block is

A text block is as wide as the widest block around one of its lines alone (`width_of_ofRuns`,
`boxWidth_largest_le_iff`). Lines are wrapped at a width that leaves room for the padding, and a
line that does not end in blanks fits that width if its words do, so the block around it is at most
one pixel wider than the width that was asked for.

A line is wrapped without the blanks behind it, but measured with them. So a block keeps to the
width that was asked for just if no line that ends in blanks is too wide with them
(`ofRuns_width_le_iff`), and the blank at which a line is wrapped may already be too much
(`wrapped_blank_overruns`).
-/

namespace TimelineExport

/-! ### Rounding toward zero -/

theorem truncatedInt_mono {q r : Rat} (h : q ≤ r) : truncatedInt q ≤ truncatedInt r := by
  simp only [truncatedInt]
  split
  · next hq =>
    split
    · exact Rat.ceil_le_iff.mpr (h.trans (Rat.ceil_le_iff.mp le_rfl))
    · next hr =>
      have hceil : q.ceil ≤ 0 := Rat.ceil_le_iff.mpr (by exact_mod_cast hq.le)
      exact hceil.trans (Rat.le_floor_iff.mpr (by exact_mod_cast not_lt.mp hr))
  · next hq =>
    rw [if_neg (not_lt.mpr ((not_lt.mp hq).trans h))]
    exact Rat.floor_monotone h

theorem truncatedInt_intCast (n : Int) : truncatedInt n = n := by
  simp only [truncatedInt]
  split
  · exact Rat.ceil_intCast n
  · exact Rat.floor_intCast n

theorem truncatedInt_le {q : Rat} {n : Int} (h : q ≤ n) : truncatedInt q ≤ n :=
  (truncatedInt_mono h).trans_eq (truncatedInt_intCast n)

/-! ### The widest line -/

namespace BlockStyle

/-- How wide the lines of a block may be between its paddings. -/
def room (style : BlockStyle Rat) (maxWidth : Int) : Int :=
  ((maxWidth : Rat) - 2 * style.paddingX).floor

/-- How wide the block around a line of the given width is. -/
def boxWidth (style : BlockStyle Rat) (width : Rat) : Int :=
  truncatedInt (truncatedInt width + 1 + 2 * style.paddingX)

theorem boxWidth_mono (style : BlockStyle Rat) {w w' : Rat} (h : w ≤ w') :
    style.boxWidth w ≤ style.boxWidth w' := by
  have hcontent : (truncatedInt w : Rat) ≤ truncatedInt w' := by
    exact_mod_cast truncatedInt_mono h
  exact truncatedInt_mono (by linarith only [hcontent])

/-- The block around the widest line is narrow enough if the blocks around all lines are. -/
theorem boxWidth_largest_le_iff (style : BlockStyle Rat) {widths : List Rat} (h : widths ≠ [])
    {bound : Int} :
    style.boxWidth (largest widths) ≤ bound ↔ ∀ w ∈ widths, style.boxWidth w ≤ bound := by
  obtain ⟨w, widths, rfl⟩ := List.exists_cons_of_ne_nil h
  clear h
  -- The first width stands for the widest one so far.
  induction widths generalizing w with
  | nil => rw [List.forall_mem_singleton]; rfl
  | cons w' widths ih =>
    have hmono : Monotone style.boxWidth := fun _ _ => style.boxWidth_mono
    have hfirst : largest (w :: w' :: widths) = largest (max w w' :: widths) := by
      rw [← Scalar.greatest_rat]
      rfl
    rw [hfirst, ih, List.forall_mem_cons, List.forall_mem_cons, List.forall_mem_cons,
      hmono.map_max, max_le_iff, and_assoc]

/-- The width at which lines are wrapped, if there is room for a pixel between the paddings. -/
theorem wrapWidth_eq {style : BlockStyle Rat} {maxWidth : Int}
    (hroom : 1 ≤ (maxWidth : Rat) - 2 * style.paddingX) :
    style.wrapWidth (some maxWidth) = .ok (some (style.room maxWidth : Rat)) := by
  have hwrap : style.wrapWidth (some maxWidth) =
      .ok (some ((max 1 (truncatedInt (maxWidth - (2 : Nat) * style.paddingX)) : Int) : Rat)) := by
    rw [← Scalar.ofNat_rat]
    rfl
  have hpixel : 1 ≤ style.room maxWidth := Rat.le_floor_iff.mpr (by exact_mod_cast hroom)
  have hnonneg : ¬ (maxWidth : Rat) - 2 * style.paddingX < 0 := by linarith only [hroom]
  rw [hwrap, Nat.cast_ofNat, truncatedInt, if_neg hnonneg]
  exact congrArg (fun n : Int => Except.ok (some (n : Rat))) (max_eq_right hpixel)

/-- The block around a line for which there is room is at most a pixel wider than asked for. -/
theorem boxWidth_le_of_le_room {style : BlockStyle Rat} {maxWidth : Int} {w : Rat}
    (h : w ≤ style.room maxWidth) : style.boxWidth w ≤ maxWidth + 1 := by
  have hcontent : (truncatedInt w : Rat) ≤ style.room maxWidth := by
    exact_mod_cast truncatedInt_le h
  have hfloor : (style.room maxWidth : Rat) ≤ maxWidth - 2 * style.paddingX := Rat.floor_le _
  refine truncatedInt_le ?_
  push_cast
  linarith only [hcontent, hfloor]

end BlockStyle

/-- The size of a block around lines begins with the width of the block around the widest one. -/
theorem blockSize_eq (style : BlockStyle Rat) (widths : List Rat) :
    ∃ heights, blockSize style widths =
      .ok (style.boxWidth (BlockStyle.largest widths), heights) := by
  have hcontent : ((truncatedInt (BlockStyle.largest widths) + 1 : Int) : Rat) =
      truncatedInt (BlockStyle.largest widths) + 1 := by
    push_cast
    rfl
  rw [BlockStyle.boxWidth, ← hcontent, ← Nat.cast_ofNat (R := Rat), ← Scalar.ofNat_rat]
  exact ⟨_, rfl⟩

/-- **How wide a text block is**, without its margins: as wide as the block around its widest
line. -/
theorem width_of_ofRuns {face : Typeface Rat} {runs : List Run} {style : BlockStyle Rat}
    {maxWidth : Option Int} {wrap : Option Rat} {block : TextBlock Rat}
    (hwrap : style.wrapWidth maxWidth = .ok wrap)
    (h : TextBlock.ofRuns face runs style maxWidth = .ok block) :
    (block.width : Int) - 2 * block.margin = style.boxWidth (BlockStyle.largest
      ((layoutLines (style.runWidth face) wrap runs).map (style.lineWidth face))) := by
  obtain ⟨heights, hsize⟩ :=
    blockSize_eq style ((layoutLines (style.runWidth face) wrap runs).map (style.lineWidth face))
  simp only [TextBlock.ofRuns, hwrap, bind_eq_ok, mapError_eq_ok, ite_throw_bind_eq_ok,
    Except.ok.injEq] at h
  obtain ⟨_, rfl, size, hlines, margin, -, hsign, -, -, h⟩ := h
  obtain rfl := Except.ok.inj (hsize.symm.trans hlines)
  -- Whether there is a box or not, the picture has the same width.
  have hblock : block.width =
      (style.boxWidth (BlockStyle.largest ((layoutLines (style.runWidth face) wrap runs).map
        (style.lineWidth face))) + 2 * margin).toNat ∧ block.margin = margin := by
    split at h
    · obtain ⟨-, -, h⟩ := bind_eq_ok.mp h
      cases h
      exact ⟨rfl, rfl⟩
    · cases h
      exact ⟨rfl, rfl⟩
  rw [not_or, not_lt] at hsign
  rw [hblock.1, hblock.2, Int.toNat_of_nonneg hsign.1, Int.add_sub_cancel]

/-! ### Lines that are wrapped -/

/-- Whether every word of runs is at most so wide, without the blanks behind it. -/
def WordsFit (measure : Run → Rat) (runs : List Run) (limit : Rat) : Prop :=
  ∀ w, .word w ∈ layoutItems runs → measure { w with text := trimEnd w.text } ≤ limit

instance (measure : Run → Rat) (runs : List Run) (limit : Rat) :
    Decidable (WordsFit measure runs limit) :=
  decidable_of_iff (∀ item ∈ layoutItems runs, ∀ w ∈ item.word?,
      measure { w with text := trimEnd w.text } ≤ limit) <| by
    constructor
    · exact fun h w hw => h _ hw w rfl
    · rintro h (_ | w) hw _ ⟨⟩
      exact h w hw

/-- Whether a line ends in a blank. -/
def EndsInBlank (line : List Run) : Prop :=
  ∃ last ∈ line.getLast?, ∃ c ∈ last.text.getLast?, isBlank c = true

instance (line : List Run) : Decidable (EndsInBlank line) :=
  decidable_of_iff ((line.getLast?.bind (·.text.getLast?)).any isBlank = true) <| by
    rw [Option.any_eq_true]
    constructor
    · rintro ⟨c, hlast, hblank⟩
      obtain ⟨last, hline, hc⟩ := Option.bind_eq_some_iff.mp hlast
      exact ⟨last, hline, c, hc, hblank⟩
    · rintro ⟨last, hline, c, hc, hblank⟩
      exact ⟨c, Option.bind_eq_some_iff.mpr ⟨last, hline, hc⟩, hblank⟩

theorem trimEnd_eq_self {cs : List Char} (h : ∀ c ∈ cs.getLast?, isBlank c = false) :
    trimEnd cs = cs := by
  refine List.rdropWhile_eq_self_iff.mpr fun hne => ?_
  rw [h _ (List.getLast?_eq_getLast_of_ne_nil hne)]
  exact Bool.false_ne_true

/-- A line that does not end in a blank fits if its words do. -/
theorem total_le_of_not_endsInBlank {measure : Run → Rat} {limit : Rat} {runs line : List Run}
    (hwords : WordsFit measure runs limit)
    (hline : line ∈ layoutLines measure (some limit) runs) (hend : ¬ EndsInBlank line) :
    Scalar.total (line.map measure) ≤ limit := by
  obtain ⟨-, hlines⟩ | ⟨s, h, -, hlines⟩ := layoutLines_cases measure (some limit) runs
  · rw [hlines, List.mem_singleton] at hline
    rw [hline] at hend
    exact absurd (by decide) hend
  rw [hlines] at hline
  obtain ⟨hline, hnonempty⟩ := List.mem_filter.mp hline
  rcases List.eq_nil_or_concat line with rfl | ⟨words, last, rfl⟩
  · cases hnonempty
  rw [List.concat_eq_append] at hline hend ⊢
  have htrim : { last with text := trimEnd last.text } = last := by
    rw [trimEnd_eq_self]
    intro c hc
    by_contra hblank
    exact hend ⟨last, List.getLast?_concat, c, hc, Bool.eq_true_of_not_eq_false hblank⟩
  have htotal : Scalar.total ((words ++ [last]).map measure) = widthWith measure words last := by
    rw [widthWith, htrim, Scalar.total, List.map_append, List.foldl_append]
    rfl
  rw [htotal]
  rcases words with _ | ⟨word, words⟩
  · -- A single word is one of those that fit.
    have hlast := h.keeps.mem
      (List.mem_flatten_of_mem hline (List.mem_append_right _ List.mem_cons_self))
    have hzero : widthWith measure [] last = measure { last with text := trimEnd last.text } := by
      rw [widthWith, List.map_nil, Scalar.total, List.foldl_nil, Scalar.zero_rat, zero_add]
    rw [hzero]
    exact hwords last hlast
  · exact not_lt.mp (h.fits _ hline limit rfl (word :: words) last rfl (List.cons_ne_nil _ _))

theorem layoutLines_ne_nil {α : Type} [Scalar α] (measure : Run → α) (wrap : Option α)
    (runs : List Run) : layoutLines measure wrap runs ≠ [] := by
  simp only [layoutLines]
  split
  · exact List.cons_ne_nil _ _
  · next hlines => exact mt List.isEmpty_iff.mpr hlines

/-- **How wide a text block gets.** Let there be room for a pixel between the paddings, and let no
word be wider than the room, without the blanks behind it. Then the block is at most a pixel wider
than asked for just if no line that ends in a blank makes it wider. -/
theorem ofRuns_width_le_iff {face : Typeface Rat} {runs : List Run} {style : BlockStyle Rat}
    {maxWidth : Int} {block : TextBlock Rat}
    (hroom : 1 ≤ (maxWidth : Rat) - 2 * style.paddingX)
    (hwords : WordsFit (style.runWidth face) runs (style.room maxWidth))
    (h : TextBlock.ofRuns face runs style (some maxWidth) = .ok block) :
    (block.width : Int) - 2 * block.margin ≤ maxWidth + 1 ↔
      ∀ line ∈ layoutLines (style.runWidth face) (some (style.room maxWidth : Rat)) runs,
        EndsInBlank line → style.boxWidth (style.lineWidth face line) ≤ maxWidth + 1 := by
  rw [width_of_ofRuns (BlockStyle.wrapWidth_eq hroom) h, style.boxWidth_largest_le_iff
    (mt List.map_eq_nil_iff.mp (layoutLines_ne_nil _ _ _)), List.forall_mem_map]
  constructor
  · exact fun hwidths line hline _ => hwidths line hline
  · intro hblanks line hline
    by_cases hend : EndsInBlank line
    · exact hblanks line hline hend
    · exact BlockStyle.boxWidth_le_of_le_room (total_le_of_not_endsInBlank hwords hline hend)

/-! ### Plain words that are wrapped -/

/-- A line of plain words. -/
def plainWords (text : List Char) : List Run := [{ text }]

/-- Plain words in a block that is to be so wide, under the style of plain text. -/
def plainBlock (text : List Char) (maxWidth : Int) : Except BlockFault (TextBlock Rat) :=
  TextBlock.ofRuns Typeface.cells (plainWords text) .ofText (some maxWidth)

theorem short_words_keep_width :
    ∃ block, plainBlock ['a', ' ', 'b', 'c'] 100 = .ok block ∧
      (block.width : Int) - 2 * block.margin ≤ 100 + 1 := by
  have hdrawn : (plainBlock ['a', ' ', 'b', 'c'] 100).isOk := by decide +kernel
  obtain ⟨block, hblock⟩ := Succeeds.of_isOk hdrawn
  have hblanks := ofRuns_width_le_iff (by decide +kernel) (by decide +kernel) hblock
  exact ⟨block, hblock, hblanks.mpr (by decide +kernel)⟩

/-- **The blank at which a line is wrapped** makes a block too wide, though there is room for each
of its words. -/
theorem wrapped_blank_overruns :
    1 ≤ ((100 : Int) : Rat) - 2 * (BlockStyle.ofText : BlockStyle Rat).paddingX ∧
      (∀ r, 0 ≤ BlockStyle.ofText.runWidth (Typeface.cells : Typeface Rat) r) ∧
      WordsFit (BlockStyle.ofText.runWidth Typeface.cells) (plainWords "one two".toList)
        (BlockStyle.ofText.room 100) ∧
      ∃ block, plainBlock "one two".toList 100 = .ok block ∧
        ¬ (block.width : Int) - 2 * block.margin ≤ 100 + 1 := by
  refine ⟨by decide +kernel, fun r => ?_, by decide +kernel, ?_⟩
  · have hlength : (0 : Rat) ≤ r.text.length := Nat.cast_nonneg _
    simp only [BlockStyle.runWidth, Typeface.cells]
    split
    · exact mul_nonneg hlength (show (0 : Rat) ≤ Scalar.ofInt 48 * 0.75 by decide +kernel)
    · exact mul_nonneg hlength (show (0 : Rat) ≤ Scalar.ofInt 48 * 0.5 by decide +kernel)
  have hdrawn : (plainBlock "one two".toList 100).isOk := by decide +kernel
  obtain ⟨block, hblock⟩ := Succeeds.of_isOk hdrawn
  refine ⟨block, hblock, ?_⟩
  rw [width_of_ofRuns (BlockStyle.wrapWidth_eq (by decide +kernel)) hblock]
  decide +kernel

end TimelineExport
