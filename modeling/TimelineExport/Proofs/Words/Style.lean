import TimelineExport.Paint.ColorLibrary
import TimelineExport.Proofs.Number.Digits
import TimelineExport.Proofs.Paint.Color
import TimelineExport.Timeline.Codec
import TimelineExport.Words.BlockStyle

/-!
# Which styles can be drawn

A block style can be drawn if its colours and those of its shadows are in the range and no blur is
negative. `Style.IsReadable` says what an editor's style has to set for that: a malformed colour,
shadow or weight makes way for a default, but an infinite channel, a channel outside the range, and
a weight of digits that are no numeral or too many do not. Exactly the readable styles are made into
block styles that can be drawn (`BlockStyle.ofStyle_isDrawable_iff`), also if they are drawn more
transparent (`BlockStyle.exists_ofStyle`). This is so with every library of colours that has all its
channels in the range.
-/

namespace TimelineExport

/-! ### Weights -/

/-- Whether a weight, if it is all digits, is a numeral that is not too long. -/
def IsWeight (text : String) : Prop :=
  (∀ c ∈ text.toList, isDigitLike c = true) →
    (∀ c ∈ text.toList, isDecimalDigit c = true) ∧ text.toList.length ≤ maxDigits

theorem succeeds_isBoldWeight_iff (weight : Option String) :
    Succeeds (isBoldWeight weight) ↔ ∀ text ∈ weight, IsWeight text := by
  rcases weight with _ | w
  · exact iff_of_true ⟨false, rfl⟩ nofun
  simp only [isBoldWeight, Option.mem_def, Option.some.injEq, forall_eq', IsWeight]
  by_cases hempty : w = ""
  · rw [if_pos hempty]
    subst hempty
    exact iff_of_true ⟨false, rfl⟩ fun _ => ⟨nofun, Nat.zero_le _⟩
  have hne : w.toList ≠ [] := fun hnil => hempty (String.toList_eq_nil_iff.mp hnil)
  rw [if_neg hempty]
  split
  · next hdigits =>
    rw [List.all_eq_true] at hdigits
    have hnumeral := Numeral.readInt?_isSome_iff hdigits
    have hall : (∀ c ∈ w.toList, isDecimalDigit c = true) →
        w.toList.takeWhile isDecimalDigit = w.toList := List.takeWhile_eq_self_iff.mpr
    split
    · next hlong =>
      refine iff_of_false nofun fun h => ?_
      obtain ⟨hdecimal, hshort⟩ := h hdigits
      rw [hall hdecimal] at hlong
      omega
    · next hshort =>
      cases hread : Numeral.readInt? w with
      | none =>
        refine iff_of_false nofun fun h => ?_
        rw [hread] at hnumeral
        exact Bool.false_ne_true (hnumeral.mpr ⟨hne, (h hdigits).1⟩)
      | some n =>
        rw [hread] at hnumeral
        obtain ⟨-, hdecimal⟩ := hnumeral.mp rfl
        rw [hall hdecimal] at hshort
        exact iff_of_true ⟨_, rfl⟩ fun _ => ⟨hdecimal, Nat.not_lt.mp hshort⟩
  · next hdigits =>
    rw [List.all_eq_true] at hdigits
    exact iff_of_true ⟨_, rfl⟩ fun h => absurd h hdigits

/-! ### Shadows -/

/-- Whether a shadow can be drawn. -/
structure Shadow.IsDrawable (s : Shadow Float) : Prop where
  color : s.color.InRange
  blur : 0 ≤ s.blur

/-- What the text of a shadow names as its colour, if it is the text of a shadow and names one. -/
def shadowColorText? (text : String) : Option String :=
  if text = "" ∨ trimText text = "none" then none
  else
    let layer := trimBoth (firstLayer text.toList)
    let tokens := shadowTokens layer.length layer
    let colors := tokens.filter fun t => (pixelToken? (α := Float) t).isNone && t ≠ "inset".toList
    if 2 ≤ (tokens.filterMap (pixelToken? (α := Float))).length then colors.head?.map String.ofList
    else none

theorem greatest_zero_nonneg (x : Float) : 0 ≤ Scalar.greatest 0 x := by
  simp only [Scalar.greatest]
  split
  · next hpos =>
    obtain ⟨a, ha, b, hb, hlt⟩ := lt_iff_amount.mp hpos
    exact le_iff_amount.mpr ⟨a, ha, b, hb, hlt.le⟩
  · have hzero := exactValue_eq_ok_iff.mp exactValue_zero
    exact le_iff_amount.mpr ⟨_, hzero, _, hzero, le_rfl⟩

section
variable {library : ColorLibrary}

theorem readColor_option_inRange_iff (hlibrary : library.IsInRange) {default : Color}
    (hdefault : default.InRange) (text : Option String) :
    (∃ c, readColor library text default = .ok c ∧ c.InRange) ↔
      ∀ t ∈ text, IsDrawableText t := by
  cases text with
  | none => exact iff_of_true ⟨default, rfl, hdefault⟩ nofun
  | some t => simpa using readColor_inRange_iff hlibrary hdefault t

/-- **A shadow that is read can be drawn** just if the text of its colour is drawable. -/
theorem readShadow_isDrawable_iff (hlibrary : library.IsInRange) (value : Option String) :
    (∃ shadow, readShadow library value = .ok shadow ∧ ∀ s ∈ shadow, Shadow.IsDrawable s) ↔
      ∀ text ∈ value, ∀ color ∈ shadowColorText? text, IsDrawableText color := by
  rcases value with _ | text
  · exact iff_of_true ⟨none, rfl, nofun⟩ nofun
  simp only [readShadow, shadowColorText?, Option.mem_def, Option.some.injEq, forall_eq']
  split
  · exact iff_of_true ⟨none, rfl, nofun⟩ nofun
  split
  · next dx dy rest hlengths =>
    have htwo : 2 ≤ (dx :: dy :: rest).length := by simp
    simp only [hlengths, htwo, if_true]
    refine Iff.trans ?_ (readColor_option_inRange_iff hlibrary
      (inRange_mk_iff.mpr (by decide) : shadowColor.InRange) _)
    constructor
    · rintro ⟨shadow, hread, hdrawable⟩
      obtain ⟨c, hc, hshadow⟩ := bind_eq_ok.mp hread
      cases hshadow
      exact ⟨c, hc, (hdrawable _ rfl).color⟩
    · rintro ⟨c, hc, hrange⟩
      refine ⟨_, bind_eq_ok.mpr ⟨c, hc, rfl⟩, ?_⟩
      rintro _ ⟨⟩
      exact ⟨hrange, greatest_zero_nonneg _⟩
  · next hlengths =>
    refine iff_of_true ⟨none, rfl, nofun⟩ ?_
    -- Without two lengths no colour matters.
    split
    · next htwo =>
      obtain ⟨dx, rest, hdx⟩ := List.exists_cons_of_length_pos (Nat.zero_lt_of_lt htwo)
      rw [hdx] at htwo
      obtain ⟨dy, rest, rfl⟩ := List.exists_cons_of_length_pos (Nat.lt_of_succ_lt_succ htwo)
      exact absurd hdx (hlengths dx dy rest)
    · nofun

end

/-! ### Styles -/

/-- Whether the colours and shadows of a block style can be drawn. -/
structure BlockStyle.IsDrawable (b : BlockStyle Float) : Prop where
  color : b.color.InRange
  background : b.background.InRange
  textShadow : ∀ s ∈ b.textShadow, s.IsDrawable
  boxShadow : ∀ s ∈ b.boxShadow, s.IsDrawable

/-- Whether what a style sets can be read: a finite size, a weight, and colours that can be drawn or
make way for a default. -/
structure Style.IsReadable (s : Style Float) : Prop where
  fontSize : ∀ size ∈ BlockStyle.nonZero s.fontSize, ∃ q, exactValue size = .ok q
  fontWeight : ∀ text ∈ s.fontWeight, IsWeight text
  color : ∀ text ∈ s.textColor, IsDrawableText text
  background : ∀ text ∈ (nonEmpty s.backgroundColor).or s.background, IsDrawableText text
  textShadow : ∀ text ∈ s.textShadow, ∀ color ∈ shadowColorText? text, IsDrawableText color
  boxShadow : ∀ text ∈ s.boxShadow, ∀ color ∈ shadowColorText? text, IsDrawableText color

namespace BlockStyle

theorem inRange_default (caption : Bool) :
    (default caption : BlockStyle Float).color.InRange ∧
      (default caption : BlockStyle Float).background.InRange := by
  cases caption
  · exact ⟨inRange_mk_iff.mpr (by decide), inRange_mk_iff.mpr (by decide)⟩
  · exact ⟨inRange_mk_iff.mpr (by decide), inRange_mk_iff.mpr (by decide)⟩

/-- The size of the font that a style sets, if it is a number. -/
def readFontSize (s : Style Float) (caption : Bool) : Except NonFinite Int :=
  match nonZero s.fontSize with
  | some size => Scalar.truncated size
  | none => .ok (default caption : BlockStyle Float).fontSize

theorem readFontSize_eq_ok_iff {s : Style Float} {caption : Bool} :
    (∃ size, readFontSize s caption = .ok size) ↔
      ∀ size ∈ nonZero s.fontSize, ∃ q, exactValue size = .ok q := by
  unfold readFontSize
  cases nonZero s.fontSize with
  | none => exact iff_of_true ⟨_, rfl⟩ nofun
  | some size =>
    simp only [Scalar.truncated, Option.mem_def, Option.some.injEq, forall_eq']
    cases exactValue size <;> simp [Except.map]

variable {library : ColorLibrary}

/-- What is read of a style before a block style is made of it. -/
theorem ofStyle_some_eq_ok_iff {s : Style Float} {caption : Bool} {opacity : Float}
    {b : BlockStyle Float} :
    ofStyle library (some s) caption opacity = .ok b ↔
      ∃ background, readColor library ((nonEmpty s.backgroundColor).or s.background)
          (default caption : BlockStyle Float).background = .ok background ∧
        ∃ fontSize, readFontSize s caption = .ok fontSize ∧
        ∃ bold, isBoldWeight s.fontWeight = .ok bold ∧
        ∃ color,
          readColor library s.textColor (default caption : BlockStyle Float).color = .ok color ∧
        ∃ color', color.withAlpha opacity = .ok color' ∧
        ∃ background', background.withAlpha opacity = .ok background' ∧
        ∃ textShadow, readShadow library s.textShadow = .ok textShadow ∧
        ∃ boxShadow, readShadow library s.boxShadow = .ok boxShadow ∧
          { (default caption : BlockStyle Float) with
            fontFamily := s.fontFamily
            fontSize := fontSize, color := color', background := background'
            textShadow := textShadow, boxShadow := boxShadow
            bold := bold || (default caption : BlockStyle Float).bold
            borderRadius := (nonZero s.borderRadius).getD (default caption).borderRadius
            paddingX := s.padding.getD (default caption).paddingX
            paddingY := s.padding.getD (default caption).paddingY
            align := s.textAlign.getD (default caption : BlockStyle Float).align } = b := by
  simp only [ofStyle, readFontSize, bind_eq_ok, mapError_eq_ok]
  cases nonZero s.fontSize with
  | none => simp only [bind_eq_ok, mapError_eq_ok, pure, Except.pure, Except.ok.injEq]
  | some size => simp only [bind_eq_ok, mapError_eq_ok, pure, Except.pure, Except.ok.injEq]

/-- **A readable style can be drawn**, at any opacity. -/
theorem exists_ofStyle (hlibrary : library.IsInRange) {style : Option (Style Float)}
    (caption : Bool) (h : ∀ s ∈ style, s.IsReadable) {opacity : Float} (hlow : 0 ≤ opacity)
    (hhigh : opacity ≤ 1) :
    ∃ b, ofStyle library style caption opacity = .ok b ∧ b.IsDrawable := by
  obtain ⟨hcolor, hbackground⟩ := inRange_default caption
  rcases style with _ | s
  · obtain ⟨c, hc, hcrange⟩ := Color.exists_withAlpha hcolor hlow hhigh
    obtain ⟨d, hd, hdrange⟩ := Color.exists_withAlpha hbackground hlow hhigh
    refine ⟨{ (default caption : BlockStyle Float) with color := c, background := d }, ?_, ?_⟩
    · simp only [ofStyle, hc, hd]
      rfl
    · cases caption <;> exact ⟨hcrange, hdrange, nofun, nofun⟩
  · have hs := h s rfl
    obtain ⟨background, hreadBackground, hbackground⟩ :=
      (readColor_option_inRange_iff hlibrary hbackground _).mpr hs.background
    obtain ⟨color, hreadColor, hcolor⟩ :=
      (readColor_option_inRange_iff hlibrary hcolor _).mpr hs.color
    obtain ⟨size, hsize⟩ := readFontSize_eq_ok_iff.mpr hs.fontSize
    obtain ⟨bold, hbold⟩ := (succeeds_isBoldWeight_iff _).mpr hs.fontWeight
    obtain ⟨c, hc, hcrange⟩ := Color.exists_withAlpha hcolor hlow hhigh
    obtain ⟨d, hd, hdrange⟩ := Color.exists_withAlpha hbackground hlow hhigh
    obtain ⟨textShadow, htext, htextDrawable⟩ :=
      (readShadow_isDrawable_iff hlibrary _).mpr hs.textShadow
    obtain ⟨boxShadow, hbox, hboxDrawable⟩ :=
      (readShadow_isDrawable_iff hlibrary _).mpr hs.boxShadow
    refine ⟨_, ofStyle_some_eq_ok_iff.mpr ⟨background, hreadBackground, size, hsize, bold, hbold,
      color, hreadColor, c, hc, d, hd, textShadow, htext, boxShadow, hbox, rfl⟩, ?_⟩
    exact ⟨hcrange, hdrange, htextDrawable, hboxDrawable⟩

/-- **Exactly the readable styles can be drawn**, with every library that has only colours in the
range. -/
theorem ofStyle_isDrawable_iff {library : ColorLibrary} (hlibrary : library.IsInRange)
    (style : Option (Style Float)) (caption : Bool) :
    (∃ b, ofStyle library style caption (1 : Float) = .ok b ∧ b.IsDrawable) ↔
      ∀ s ∈ style, s.IsReadable := by
  obtain ⟨hcolor, hbackground⟩ := inRange_default caption
  constructor
  · rintro ⟨b, hb, hdrawable⟩ s ⟨⟩
    obtain ⟨background, hreadBackground, size, hsize, bold, hbold, color, hreadColor, c, hc, d, hd,
      textShadow, htext, boxShadow, hbox, rfl⟩ := ofStyle_some_eq_ok_iff.mp hb
    exact {
      fontSize := readFontSize_eq_ok_iff.mp ⟨size, hsize⟩
      fontWeight := (succeeds_isBoldWeight_iff _).mp ⟨bold, hbold⟩
      color := (readColor_option_inRange_iff hlibrary hcolor _).mp
        ⟨color, hreadColor, Color.inRange_of_withAlpha_one hc hdrawable.color⟩
      background := (readColor_option_inRange_iff hlibrary hbackground _).mp
        ⟨background, hreadBackground, Color.inRange_of_withAlpha_one hd hdrawable.background⟩
      textShadow := (readShadow_isDrawable_iff hlibrary _).mp ⟨textShadow, htext, hdrawable.textShadow⟩
      boxShadow := (readShadow_isDrawable_iff hlibrary _).mp ⟨boxShadow, hbox, hdrawable.boxShadow⟩ }
  · intro h
    have hone : (1 : Float) ≤ 1 := by decide +kernel
    exact exists_ofStyle hlibrary caption h (by decide +kernel) hone

/-- The named colours are in the range. -/
theorem isInRange_named : ColorLibrary.named.IsInRange := by
  rintro text c hc
  obtain ⟨n, -, rfl⟩ := Option.map_eq_some_iff.mp hc
  simp only [LibraryColor.ofHex, LibraryColor.channels, Option.toList_none, List.append_nil,
    List.forall_mem_cons, List.not_mem_nil, false_implies, implies_true, and_true]
  omega

/-- A style with a named colour and a background that is no colour can be drawn. -/
theorem misspelt_background_is_drawn :
    ColorLibrary.named.IsInRange ∧
      ∃ b, ofStyle .named (some { color := some "Tomato", backgroundColor := some "#12" }) false
        (1 : Float) = .ok b ∧ b.IsDrawable := by
  refine ⟨isInRange_named, (ofStyle_isDrawable_iff isInRange_named _ false).mpr ?_⟩
  rintro _ ⟨⟩
  exact {
    fontSize := nofun
    fontWeight := nofun
    color := by
      rintro _ ⟨⟩
      exact isDrawableText_of_plain (by decide +kernel) (by decide +kernel)
    background := by
      rintro _ ⟨⟩
      exact isDrawableText_of_plain (by decide +kernel) (by decide +kernel)
    textShadow := nofun
    boxShadow := nofun }

/-- **A colour with an infinite channel** is accepted, but no block style is made of it. -/
theorem infinite_channel_is_not_drawn :
    Style.ofJson (.object [("color", .text "rgb(inf, 0, 0)")]) =
        .valid { color := some "rgb(inf, 0, 0)" } ∧
      ∀ library : ColorLibrary,
        ¬ ∃ b, ofStyle library (some { color := some "rgb(inf, 0, 0)" }) false (1 : Float) =
          .ok b := by
  refine ⟨rfl, ?_⟩
  rintro library ⟨b, hb⟩
  have hinfinite : channelColor? [['i', 'n', 'f'], ['0'], ['0']] = .error .infinite := by
    decide +kernel
  obtain ⟨_, -, _, -, _, -, color, hcolor, -⟩ := ofStyle_some_eq_ok_iff.mp hb
  have hread : readColor library (some "rgb(inf, 0, 0)") .white = .ok color := hcolor
  have hspelt : readColor library (some "rgb(inf, 0, 0)") .white =
      (channelColor? [['i', 'n', 'f'], ['0'], ['0']]).map fun c => c.getD .white := by
    rfl
  rw [hspelt, hinfinite] at hread
  cases hread

end BlockStyle

end TimelineExport
