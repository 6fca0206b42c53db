import Mathlib.Data.List.Forall2
import TimelineExport.Filter.Graph
import TimelineExport.Proofs.Filter.Label
import TimelineExport.Proofs.Filter.Value

/-!
# How a program is read

The text of a program is read as signs first. Labels in brackets are taken together (`readItems`);
what is outside of them is divided into chains by semicolons, filters by commas, and the name and
the arguments of a filter by an equals sign (`readProgram`). Only signs that kept their meaning
count, so nothing inside a value does.

A text may be read as items from left to right, whatever follows (`ReadsAs`); so every writer of a
part of a program has one lemma that says as which items its text is read. The text of a whole
program is read as the chains of its graph (`readProgram_render`), each with its labels, and with
the names and prepared arguments of its filters. The only chains that cannot be read are those of a
single filter that has no name and no arguments: nothing is left between their labels.
-/

namespace TimelineExport

/-! ### Items -/

/-- A part of a program's text: a label in brackets, or a sign outside of them. -/
inductive Item where
  | label (name : String)
  | sign (s : Sign)
  deriving DecidableEq, Repr

namespace Item

/-- Whether an item is a label. -/
def isLabel : Item → Bool
  | label _ => true
  | sign _ => false

/-- The name of a label. -/
def name? : Item → Option String
  | label name => some name
  | sign _ => none

/-- The sign that stands outside of brackets. -/
def sign? : Item → Option Sign
  | label _ => none
  | sign s => some s

/-- Whether an item is white space. -/
def isWhite : Item → Bool
  | sign (.plain c) => isBlank c
  | _ => false

end Item

/-- Takes labels together, of which one may be open. One that is never closed cannot be read. -/
def readItems : (opened : Option (List Char)) → List Sign → Option (List Item)
  | none, [] => some []
  | some _, [] => none
  | none, s :: signs =>
    if s = .plain '[' then readItems (some []) signs
    else (readItems none signs).map (.sign s :: ·)
  | some name, s :: signs =>
    if s = .plain ']' then (readItems none signs).map (.label (String.ofList name) :: ·)
    else readItems (some (name ++ [s.char])) signs

/-- The items of a text. -/
def itemsOf (cs : List Char) : Option (List Item) := readItems none (readSigns .outside cs)

theorem readItems_signs {signs : List Sign} (h : .plain '[' ∉ signs) (rest : List Sign) :
    readItems none (signs ++ rest) = (readItems none rest).map (signs.map .sign ++ ·) := by
  induction signs with
  | nil => exact Option.map_id'.symm
  | cons s signs ih =>
    obtain ⟨hs, hsigns⟩ := not_or.mp (List.mem_cons.not.mp h)
    rw [List.cons_append, readItems, if_neg (Ne.symm hs), ih hsigns, Option.map_map]
    rfl

theorem readItems_closed {signs : List Sign} (h : .plain ']' ∉ signs) (name : List Char)
    (rest : List Sign) :
    readItems (some name) (signs ++ .plain ']' :: rest) =
      (readItems none rest).map (.label (String.ofList (name ++ charsOf signs)) :: ·) := by
  induction signs generalizing name with
  | nil => rw [List.nil_append, readItems, if_pos rfl, charsOf, List.map_nil, List.append_nil]
  | cons s signs ih =>
    obtain ⟨hs, hsigns⟩ := not_or.mp (List.mem_cons.not.mp h)
    rw [List.cons_append, readItems, if_neg (Ne.symm hs), ih hsigns, List.append_assoc]
    rfl

/-! ### Texts that are read as items -/

/-- **A text is read as items**, whatever follows. -/
def ReadsAs (cs : List Char) (items : List Item) : Prop :=
  ∀ rest, itemsOf (cs ++ rest) = (itemsOf rest).map (items ++ ·)

/-- Characters that neither protect others nor open a label. -/
def IsUnmarked (cs : List Char) : Prop := ∀ c ∈ cs, c ≠ '\'' ∧ c ≠ '\\' ∧ c ≠ '['

instance (cs : List Char) : Decidable (IsUnmarked cs) := List.decidableBAll _ cs

/-- A label that ends at its bracket. -/
def IsLabelName (label : String) : Prop := ∀ c ∈ label.toList, c ≠ ']' ∧ c ≠ '\'' ∧ c ≠ '\\'

instance (label : String) : Decidable (IsLabelName label) := List.decidableBAll _ label.toList

namespace ReadsAs

variable {cs ds : List Char} {items items' : List Item}

theorem itemsOf_eq (h : ReadsAs cs items) : itemsOf cs = some items := by
  rw [← List.append_nil cs, h []]
  exact congrArg some (List.append_nil items)

theorem nil : ReadsAs [] [] := fun _ => Option.map_id'.symm

theorem append (h : ReadsAs cs items) (h' : ReadsAs ds items') :
    ReadsAs (cs ++ ds) (items ++ items') := by
  intro rest
  rw [List.append_assoc, h, h', Option.map_map]
  exact congrArg (Option.map · _) (funext fun xs => (List.append_assoc items items' xs).symm)

/-- Parts that stand side by side are read side by side. -/
theorem flatMap {β : Type} {f : β → List Char} {g : β → List Item} {xs : List β}
    (h : ∀ x ∈ xs, ReadsAs (f x) (g x)) : ReadsAs (xs.flatMap f) (xs.flatMap g) := by
  induction xs with
  | nil => exact .nil
  | cons x xs ih =>
    obtain ⟨hx, hxs⟩ := List.forall_mem_cons.mp h
    exact hx.append (ih hxs)

/-- Parts with a separator between them are read in the same way. -/
theorem intercalate {texts : List (List Char)} {parts : List (List Item)}
    (hsep : ReadsAs ds items') (h : List.Forall₂ ReadsAs texts parts) :
    ReadsAs (ds.intercalate texts) (items'.intercalate parts) := by
  induction h with
  | nil => exact .nil
  | cons hx hrest ih =>
    cases hrest with
    | nil => simpa using hx
    | cons hy hrest =>
      rw [List.intercalate_cons_cons, List.intercalate_cons_cons]
      exact (hx.append hsep).append ih

/-- A text that is read as signs is read as these, if none opens a label. -/
theorem of_signs {signs : List Sign}
    (hread : ∀ rest, readSigns .outside (cs ++ rest) = signs ++ readSigns .outside rest)
    (h : .plain '[' ∉ signs) : ReadsAs cs (signs.map .sign) := by
  intro rest
  rw [itemsOf, hread, readItems_signs h]
  rfl

/-- Characters without a mark are read as they are. -/
theorem of_isUnmarked (h : IsUnmarked cs) :
    ReadsAs cs ((cs.map .plain).map .sign) := by
  refine of_signs (readSigns_plain fun c hc => ⟨(h c hc).1, (h c hc).2.1⟩) fun hmem => ?_
  obtain ⟨c, hc, heq⟩ := List.mem_map.mp hmem
  cases heq
  exact (h _ hc).2.2 rfl

/-- A label in brackets. -/
theorem label {name : String} (h : IsLabelName name) :
    ReadsAs ("[" ++ name ++ "]").toList [.label name] := by
  intro rest
  have hsigns : readSigns .outside (("[" ++ name ++ "]").toList ++ rest) =
      .plain '[' :: (name.toList.map .plain ++ .plain ']' :: readSigns .outside rest) := by
    rw [String.toList_append, String.toList_append, List.append_assoc, List.append_assoc]
    change .plain '[' :: readSigns .outside (name.toList ++ (']' :: rest)) = _
    rw [readSigns_plain fun c hc => (h c hc).2]
    rfl
  have hclosed : Sign.plain ']' ∉ name.toList.map .plain := by
    intro hmem
    obtain ⟨c, hc, heq⟩ := List.mem_map.mp hmem
    cases heq
    exact (h _ hc).1 rfl
  rw [itemsOf, hsigns, readItems, if_pos rfl, readItems_closed hclosed, List.nil_append,
    charsOf_map_plain, String.ofList_toList]
  rfl

end ReadsAs

/-! ### Programs -/

/-- What is read of a chain: its labels, and the name and the arguments of each filter. -/
structure ChainText where
  inputs : List String
  filters : List (String × String)
  outputs : List String
  deriving DecidableEq, Repr

/-- The name and the arguments of a filter. -/
def readFilter (signs : List Sign) : String × String :=
  (String.ofList (charsOf (signs.takeWhile (· ≠ .plain '='))),
    String.ofList (charsOf ((signs.dropWhile (· ≠ .plain '=')).drop 1)))

/-- A chain: labels, filters between commas, and labels again. -/
def readChain (items : List Item) : Option ChainText :=
  let inputs := items.takeWhile (·.isLabel)
  let rest := items.dropWhile (·.isLabel)
  let filters := rest.takeWhile (!·.isLabel)
  let outputs := rest.dropWhile (!·.isLabel)
  if outputs.all (·.isLabel) then
    some {
      inputs := inputs.filterMap (·.name?)
      filters := ((filters.filterMap (·.sign?)).splitOn (.plain ',')).map readFilter
      outputs := outputs.filterMap (·.name?) }
  else none

/-- The chains between semicolons, after each of which white space is left out. -/
def splitChains (items : List Item) : List (List Item) :=
  match items.splitOn (.sign (.plain ';')) with
  | [] => []
  | first :: rest => first :: rest.map (·.dropWhile (·.isWhite))

/-- The chains of a program. An empty text has none. -/
def readProgram (text : String) : Option (List ChainText) := do
  let items ← itemsOf text.toList
  if items.isEmpty then return []
  (splitChains items).mapM readChain

/-! ### Numbers -/

theorem isSpecial_of_isDigit {c : Char} (h : c.isDigit = true) : isSpecial c = false := by
  have hrange : 48 ≤ c.toNat ∧ c.toNat ≤ 57 := by
    simp only [Char.isDigit, Bool.and_eq_true, decide_eq_true_eq, ge_iff_le] at h
    exact ⟨UInt32.le_iff_toNat_le.mp h.1, UInt32.le_iff_toNat_le.mp h.2⟩
  have hne : ∀ d : Char, d.isDigit = false → c ≠ d := fun d hd heq => by
    rw [← heq, h] at hd
    cases hd
  have hblank : isBlank c = false := by
    simp [isBlank, isSpace]
    omega
  simp [isSpecial, hblank, hne]

/-- A text without special characters. -/
def IsPlain (cs : List Char) : Prop := ∀ c ∈ cs, isSpecial c = false

instance (cs : List Char) : Decidable (IsPlain cs) := List.decidableBAll _ cs

theorem isPlain_digits (n : Nat) : IsPlain (Nat.toDigits 10 n) := fun _ hc =>
  isSpecial_of_isDigit (isDigit_of_mem_digits hc)

theorem IsPlain.append {cs ds : List Char} (h : IsPlain cs) (h' : IsPlain ds) :
    IsPlain (cs ++ ds) := List.forall_mem_append.mpr ⟨h, h'⟩

theorem IsPlain.of_subset {cs ds : List Char} (h : IsPlain ds) (hsub : cs ⊆ ds) : IsPlain cs :=
  fun c hc => h c (hsub hc)

theorem isPlain_toString (n : Int) : IsPlain (toString n).toList := by
  cases n with
  | ofNat n =>
    change IsPlain (toString n).toList
    simpa using isPlain_digits n
  | negSucc n =>
    change IsPlain ("-" ++ toString (n + 1)).toList
    rw [String.toList_append]
    refine IsPlain.append (by decide) ?_
    simpa using isPlain_digits (n + 1)

theorem isPlain_positional (coefficient : Nat) (exponent : Int) :
    IsPlain (Decimal.positional coefficient exponent) := by
  have hzeros : ∀ n, IsPlain (List.replicate n '0') := fun n c hc => by
    rw [List.eq_of_mem_replicate hc]
    decide
  have hpadded := fun n => (hzeros n).append (isPlain_digits coefficient)
  unfold Decimal.positional
  dsimp only
  split
  · exact (isPlain_digits coefficient).append (hzeros _)
  · refine ((hpadded _).of_subset (List.take_subset _ _)).append
      (List.forall_mem_cons.mpr ⟨by decide, ?_⟩)
    exact (hpadded _).of_subset (List.drop_subset _ _)

theorem isPlain_plainText (d : Decimal) : IsPlain d.plainText.toList := by
  unfold Decimal.plainText
  split
  · decide
  · rw [String.toList_ofList]
    refine IsPlain.append ?_ (isPlain_positional _ _)
    split <;> decide

theorem isPlain_numberText (x : Float) : IsPlain (numberText x).toList := by
  unfold numberText
  split
  · decide
  · unfold infiniteText
    split <;> decide
  · dsimp only
    split <;> exact isPlain_plainText _

/-! ### Filters -/

/-- A sign that divides neither filters nor chains, and opens no label. -/
def Sign.IsQuiet (s : Sign) : Prop := ∀ c, s = .plain c → c = ':' ∨ isSpecial c = false

theorem Sign.IsQuiet.ne {s : Sign} (h : s.IsQuiet) {c : Char} (hcolon : c ≠ ':')
    (hspecial : isSpecial c = true) : s ≠ .plain c := by
  rintro rfl
  obtain heq | hplain := h c rfl
  · exact hcolon heq
  · rw [hspecial] at hplain
    cases hplain

theorem IsPlain.isQuiet {cs : List Char} (h : IsPlain cs) : ∀ s ∈ cs.map Sign.plain, s.IsQuiet := by
  intro s hs c heq
  obtain ⟨d, hd, rfl⟩ := List.mem_map.mp hs
  cases heq
  exact .inr (h _ hd)

theorem IsPlain.readsAs {cs : List Char} (h : IsPlain cs) :
    ReadsAs cs ((cs.map .plain).map .sign) := by
  refine .of_isUnmarked fun c hc => ?_
  have hplain := h c hc
  refine ⟨?_, ?_, ?_⟩ <;> rintro rfl <;> exact absurd hplain (by decide)

theorem isQuiet_valueSigns (cs : List Char) : ∀ s ∈ valueSigns cs, s.IsQuiet := by
  rw [valueSigns]
  split
  · intro s hs c heq
    obtain ⟨d, -, rfl⟩ := List.mem_map.mp hs
    cases heq
  · next hplain => exact IsPlain.isQuiet (by simpa [IsPlain] using hplain)

namespace Arg

/-- The signs as which an argument is read. -/
def signs : Arg Float → List Sign
  | formula f => valueSigns (renderFormula f).toList
  | a => a.render.toList.map .plain

/-- An argument as the first pass leaves it: a number, or a text for the second pass. -/
def prepared : Arg Float → String
  | formula f => String.ofList (prepare (renderFormula f).toList)
  | a => a.render

theorem isPlain_render_bool (b : Bool) : IsPlain (render (.bool b)).toList := by
  cases b <;> decide

theorem isQuiet_signs (a : Arg Float) : ∀ s ∈ a.signs, s.IsQuiet := by
  cases a with
  | int n => exact (isPlain_toString n).isQuiet
  | bool b => exact (isPlain_render_bool b).isQuiet
  | number x => exact (isPlain_numberText x).isQuiet
  | formula f => exact isQuiet_valueSigns _

theorem charsOf_signs (a : Arg Float) : charsOf a.signs = a.prepared.toList := by
  cases a with
  | formula f => rw [signs, charsOf_valueSigns, prepared, String.toList_ofList]
  | _ => exact charsOf_map_plain _

theorem readsAs (a : Arg Float) : ReadsAs a.render.toList (a.signs.map .sign) := by
  cases a with
  | int n => exact (isPlain_toString n).readsAs
  | bool b => exact (isPlain_render_bool b).readsAs
  | number x => exact (isPlain_numberText x).readsAs
  | formula f =>
    refine .of_signs (fun rest => ?_) fun hmem =>
      (isQuiet_valueSigns _ _ hmem).ne (by decide) (by decide) rfl
    rw [render, escapeText, String.toList_ofList, readSigns_escape]
    rfl

end Arg

/-- A text without characters that have a meaning in a program. -/
def IsWord (s : String) : Prop := ∀ c ∈ s.toList, isSpecial c = false ∧ c ≠ '='

instance (s : String) : Decidable (IsWord s) := List.decidableBAll _ s.toList

theorem IsWord.isPlain {s : String} (h : IsWord s) : IsPlain s.toList := fun c hc => (h c hc).1

theorem map_intercalate {β γ : Type} (f : β → γ) (sep : List β) (xss : List (List β)) :
    (sep.intercalate xss).map f = (sep.map f).intercalate (xss.map (·.map f)) := by
  induction xss with
  | nil => rfl
  | cons xs xss ih =>
    cases xss with
    | nil => simp
    | cons ys xss =>
      rw [List.intercalate_cons_cons, List.map_append, List.map_append, ih, List.map_cons,
        List.map_cons, List.map_cons, List.intercalate_cons_cons]

/-- Of a separator, all but the first character may as well begin the next part. -/
theorem intercalate_cons_left {β : Type} (a : β) (sep xs : List β) (xss : List (List β)) :
    (a :: sep).intercalate (xs :: xss) = [a].intercalate (xs :: xss.map (sep ++ ·)) := by
  induction xss generalizing xs with
  | nil => simp
  | cons ys xss ih =>
    rw [List.intercalate_cons_cons, ih, List.map_cons, List.intercalate_cons_cons]
    cases xss <;> simp [List.intercalate_cons_cons]

theorem mem_of_mem_intercalate {β : Type} {sep : List β} {xss : List (List β)} {x : β}
    (h : x ∈ sep.intercalate xss) : x ∈ sep ∨ ∃ xs ∈ xss, x ∈ xs := by
  induction xss with
  | nil => exact absurd h List.not_mem_nil
  | cons xs xss ih =>
    cases xss with
    | nil => exact .inr ⟨xs, List.mem_cons_self, by simpa using h⟩
    | cons ys xss =>
      rw [List.intercalate_cons_cons, List.mem_append, List.mem_append] at h
      obtain (h | h) | h := h
      · exact .inr ⟨xs, List.mem_cons_self, h⟩
      · exact .inl h
      · obtain hsep | ⟨zs, hzs, hx⟩ := ih h
        · exact .inl hsep
        · exact .inr ⟨zs, List.mem_cons_of_mem _ hzs, hx⟩

namespace Filter

/-- The signs as which each argument of a filter is read. -/
def argumentSigns (f : Filter Float) : List (List Sign) :=
  f.positional.map Arg.signs ++
    f.options.map fun (key, v) => key.toList.map .plain ++ .plain '=' :: v.signs

/-- The signs as which a filter is read. -/
def signs (f : Filter Float) : List Sign :=
  f.name.toList.map .plain ++
    if f.argumentTexts.isEmpty then [] else .plain '=' :: [.plain ':'].intercalate f.argumentSigns

/-- The arguments of a filter as the first pass leaves them. -/
def preparedTexts (f : Filter Float) : List String :=
  f.positional.map Arg.prepared ++ f.options.map fun (key, v) => key ++ "=" ++ v.prepared

/-- The name and the arguments of a filter, as they are read. -/
def content (f : Filter Float) : String × String := (f.name, ":".intercalate f.preparedTexts)

/-- A filter whose name and keys are words. Its arguments may be anything. -/
structure IsLegible (f : Filter Float) : Prop where
  name : IsWord f.name
  keys : ∀ option ∈ f.options, IsWord option.1

theorem charsOf_argumentSigns (f : Filter Float) :
    f.argumentSigns.map charsOf = f.preparedTexts.map String.toList := by
  rw [argumentSigns, preparedTexts, List.map_append, List.map_append, List.map_map, List.map_map,
    List.map_map, List.map_map]
  congr 1
  · exact List.map_congr_left fun a _ => a.charsOf_signs
  · refine List.map_congr_left fun option _ => ?_
    simp [Arg.charsOf_signs]

namespace IsLegible

variable {f : Filter Float}

theorem readsAs_arguments (h : f.IsLegible) :
    List.Forall₂ ReadsAs (f.argumentTexts.map String.toList)
      (f.argumentSigns.map (·.map .sign)) := by
  rw [argumentTexts, argumentSigns, List.map_append, List.map_append, List.map_map, List.map_map,
    List.map_map, List.map_map]
  refine List.rel_append ?_ ?_
  · refine List.forall₂_map_left_iff.mpr (List.forall₂_map_right_iff.mpr ?_)
    exact List.forall₂_same.mpr fun a _ => a.readsAs
  · refine List.forall₂_map_left_iff.mpr (List.forall₂_map_right_iff.mpr ?_)
    refine List.forall₂_same.mpr fun option hoption => ?_
    have hkey := (h.keys option hoption).isPlain.readsAs
    have hequals : ReadsAs ['='] [.sign (.plain '=')] := .of_isUnmarked (by decide)
    simpa [String.toList_append] using hkey.append (hequals.append option.2.readsAs)

/-- A filter is read as its signs. -/
theorem readsAs (h : f.IsLegible) : ReadsAs f.render.toList (f.signs.map .sign) := by
  have hname := h.name.isPlain.readsAs
  rw [render, signs]
  split
  · simpa using hname
  · have hequals : ReadsAs ['='] [.sign (.plain '=')] := .of_isUnmarked (by decide)
    have hcolon : ReadsAs [':'] [.sign (.plain ':')] := .of_isUnmarked (by decide)
    have harguments := ReadsAs.intercalate hcolon h.readsAs_arguments
    rw [List.map_append, List.map_cons, map_intercalate, String.toList_append,
      String.toList_append, String.toList_intercalate]
    simpa using hname.append (hequals.append harguments)

/-- **Nothing inside a filter divides** the program, whatever its arguments are. -/
theorem isQuiet_signs (h : f.IsLegible) : ∀ s ∈ f.signs, s.IsQuiet := by
  have hchar : ∀ c, (c = ':' ∨ isSpecial c = false) → (Sign.plain c).IsQuiet := by
    rintro c hc d heq
    cases heq
    exact hc
  refine List.forall_mem_append.mpr ⟨h.name.isPlain.isQuiet, ?_⟩
  split
  · exact fun _ hs => absurd hs List.not_mem_nil
  refine List.forall_mem_cons.mpr ⟨hchar _ (by decide), fun s hs => ?_⟩
  obtain hs | ⟨argument, hargument, hs⟩ := mem_of_mem_intercalate hs
  · rw [List.mem_singleton.mp hs]
    exact hchar _ (by decide)
  obtain hargument | hargument := List.mem_append.mp hargument
  · obtain ⟨a, -, rfl⟩ := List.mem_map.mp hargument
    exact a.isQuiet_signs s hs
  · obtain ⟨option, hoption, rfl⟩ := List.mem_map.mp hargument
    obtain hs | hs := List.mem_append.mp hs
    · exact (h.keys option hoption).isPlain.isQuiet s hs
    obtain rfl | hs := List.mem_cons.mp hs
    · exact hchar _ (by decide)
    · exact option.2.isQuiet_signs s hs

/-- **A filter is read back**: its name, and its arguments with colons between them. -/
theorem readFilter_signs (h : f.IsLegible) : readFilter f.signs = f.content := by
  have hname : ∀ s ∈ f.name.toList.map Sign.plain, decide (s ≠ .plain '=') = true := by
    intro s hs
    obtain ⟨c, hc, rfl⟩ := List.mem_map.mp hs
    simpa using (h.name c hc).2
  have hlength : f.argumentTexts.length = f.preparedTexts.length := by
    simp [argumentTexts, preparedTexts]
  rw [readFilter, signs, List.takeWhile_append_of_pos hname, List.dropWhile_append_of_pos hname]
  split
  · next hempty =>
    rw [List.isEmpty_iff, ← List.length_eq_zero_iff, hlength, List.length_eq_zero_iff] at hempty
    simp [content, hempty]
  · have harguments := map_intercalate Sign.char [.plain ':'] f.argumentSigns
    change charsOf _ = [':'].intercalate (f.argumentSigns.map charsOf) at harguments
    rw [List.takeWhile_cons_of_neg (by simp), List.dropWhile_cons_of_neg (by simp),
      List.drop_succ_cons, List.drop_zero, List.append_nil, charsOf_map_plain, String.ofList_toList,
      harguments, charsOf_argumentSigns, content]
    exact congrArg _ (String.toList_injective (by simp))

end IsLegible

end Filter

/-! ### Chains and graphs -/

namespace Chain

/-- The signs between the labels of a chain. -/
def body (c : Chain Float) : List Sign := [.plain ','].intercalate (c.filters.map Filter.signs)

/-- The items as which a chain is read. -/
def items (c : Chain Float) : List Item :=
  c.inputs.map .label ++ (c.body.map .sign ++ c.outputs.map .label)

/-- What is read of a chain. -/
def content (c : Chain Float) : ChainText := ⟨c.inputs, c.filters.map Filter.content, c.outputs⟩

/-- A chain whose labels end at their brackets, whose filters can be told apart, and that has
something between its labels. -/
structure IsLegible (c : Chain Float) : Prop where
  labels : ∀ label ∈ c.inputs ++ c.outputs, IsLabelName label
  filters : ∀ f ∈ c.filters, f.IsLegible
  body : c.filters ≠ [{ name := "" }]

namespace IsLegible

variable {c : Chain Float}

theorem isQuiet_body (h : c.IsLegible) {s : Sign} (hs : s ∈ c.body) :
    s = .plain ',' ∨ s.IsQuiet := by
  obtain hs | ⟨signs, hsigns, hs⟩ := mem_of_mem_intercalate hs
  · exact .inl (List.mem_singleton.mp hs)
  · obtain ⟨f, hf, rfl⟩ := List.mem_map.mp hsigns
    exact .inr ((h.filters f hf).isQuiet_signs s hs)

/-- Something stands between the labels. -/
theorem body_ne_nil (h : c.IsLegible) (hne : c.filters ≠ []) : c.body ≠ [] := by
  obtain ⟨f, fs, hfilters⟩ := List.exists_cons_of_ne_nil hne
  have hbody := h.body
  rw [Chain.body, hfilters]
  rw [hfilters] at hbody
  cases fs with
  | cons g gs => simp [List.intercalate_cons_cons]
  | nil =>
    intro hnil
    apply hbody
    rw [List.map_singleton, List.intercalate_singleton, Filter.signs,
      List.append_eq_nil_iff] at hnil
    obtain ⟨hname, harguments⟩ := hnil
    obtain ⟨name, positional, options⟩ := f
    have hname : name = "" := by simpa using hname
    have hempty : positional = [] ∧ options = [] := by
      simpa [Filter.argumentTexts, ite_eq_left_iff] using harguments
    rw [hname, hempty.1, hempty.2]

theorem readsAs (h : c.IsLegible) : ReadsAs c.render.toList c.items := by
  have hlabels : ∀ labels : List String, (∀ l ∈ labels, l ∈ c.inputs ++ c.outputs) →
      ReadsAs (renderLabels labels).toList (labels.map .label) := by
    intro labels hlabels
    rw [renderLabels, String.toList_join, List.flatMap_map, List.map_eq_flatMap]
    exact .flatMap fun l hl => .label (h.labels l (hlabels l hl))
  have hcomma : ReadsAs [','] [.sign (.plain ',')] := .of_isUnmarked (by decide)
  have hfilters : List.Forall₂ ReadsAs (c.filters.map fun f => f.render.toList)
      (c.filters.map fun f => f.signs.map .sign) :=
    List.forall₂_map_left_iff.mpr (List.forall₂_map_right_iff.mpr
      (List.forall₂_same.mpr fun f hf => (h.filters f hf).readsAs))
  have hbody : ReadsAs (",".intercalate (c.filters.map Filter.render)).toList
      (c.body.map .sign) := by
    rw [String.toList_intercalate, Chain.body, map_intercalate, List.map_map, List.map_map]
    exact hcomma.intercalate hfilters
  rw [render, String.toList_append, String.toList_append, List.append_assoc]
  exact (hlabels _ fun l hl => List.mem_append_left _ hl).append
    (hbody.append (hlabels _ fun l hl => List.mem_append_right _ hl))

/-- **A chain is read back.** -/
theorem readChain_items (h : c.IsLegible) (hne : c.filters ≠ []) :
    readChain c.items = some c.content := by
  obtain ⟨s, signs, hbody⟩ := List.exists_cons_of_ne_nil (h.body_ne_nil hne)
  have hlabel : ∀ labels : List String, ∀ i ∈ labels.map Item.label, i.isLabel = true := by
    intro labels i hi
    obtain ⟨l, -, rfl⟩ := List.mem_map.mp hi
    rfl
  have hsign : ∀ i ∈ c.body.map Item.sign, (!i.isLabel) = true := by
    intro i hi
    obtain ⟨s, -, rfl⟩ := List.mem_map.mp hi
    rfl
  -- the labels before the filters end where the filters begin, and the filters where labels follow
  have hinputs : c.items.takeWhile (·.isLabel) = c.inputs.map .label ∧
      c.items.dropWhile (·.isLabel) = c.body.map .sign ++ c.outputs.map .label := by
    rw [items, List.takeWhile_append_of_pos (hlabel _), List.dropWhile_append_of_pos (hlabel _),
      hbody]
    exact ⟨List.append_nil _, rfl⟩
  have houtputs : (c.body.map Item.sign ++ c.outputs.map Item.label).takeWhile (!·.isLabel) =
        c.body.map .sign ∧
      (c.body.map Item.sign ++ c.outputs.map Item.label).dropWhile (!·.isLabel) =
        c.outputs.map .label := by
    rw [List.takeWhile_append_of_pos hsign, List.dropWhile_append_of_pos hsign]
    cases c.outputs with
    | nil => exact ⟨List.append_nil _, rfl⟩
    | cons label labels => exact ⟨List.append_nil _, rfl⟩
  have hfilters : c.body.splitOn (.plain ',') = c.filters.map Filter.signs := by
    refine List.splitOn_intercalate _ (fun signs hsigns hmem => ?_) (by simpa using hne)
    obtain ⟨f, hf, rfl⟩ := List.mem_map.mp hsigns
    exact ((h.filters f hf).isQuiet_signs _ hmem).ne (by decide) (by decide) rfl
  have hnames : ∀ labels : List String,
      (labels.map Item.label).filterMap Item.name? = labels := fun labels => by
    rw [List.filterMap_map]
    exact List.filterMap_some
  have hsigns : (c.body.map Item.sign).filterMap Item.sign? = c.body := by
    rw [List.filterMap_map]
    exact List.filterMap_some
  rw [readChain, hinputs.1, hinputs.2, houtputs.1, houtputs.2, hsigns, hfilters, hnames, hnames,
    List.map_map, if_pos (List.all_eq_true.mpr (hlabel _)), content]
  exact congrArg (fun filters => some (ChainText.mk c.inputs filters c.outputs))
    (List.map_congr_left fun f hf => (h.filters f hf).readFilter_signs)

/-- An item of a chain is a label, or the sign of a comma, or one that is quiet. -/
theorem of_sign_mem_items (h : c.IsLegible) {s : Sign} (hs : .sign s ∈ c.items) :
    s = .plain ',' ∨ s.IsQuiet := by
  obtain hs | hs := List.mem_append.mp hs
  · obtain ⟨l, -, heq⟩ := List.mem_map.mp hs
    cases heq
  obtain hs | hs := List.mem_append.mp hs
  · obtain ⟨s', hs', heq⟩ := List.mem_map.mp hs
    cases heq
    exact h.isQuiet_body hs'
  · obtain ⟨l, -, heq⟩ := List.mem_map.mp hs
    cases heq

/-- No item of a chain divides it from another one. -/
theorem semicolon_not_mem_items (h : c.IsLegible) : .sign (.plain ';') ∉ c.items := by
  intro hmem
  obtain heq | hquiet := h.of_sign_mem_items hmem
  · cases heq
  · exact hquiet.ne (by decide) (by decide) rfl

/-- White space before a chain can be told from the chain. -/
theorem dropWhile_items (h : c.IsLegible) : c.items.dropWhile (·.isWhite) = c.items := by
  cases hitems : c.items with
  | nil => rfl
  | cons i items =>
    refine List.dropWhile_cons_of_neg ?_
    have hi : i ∈ c.items := by
      rw [hitems]
      exact List.mem_cons_self
    match i with
    | .label _ | .sign (.literal _) => exact Bool.false_ne_true
    | .sign (.plain char) =>
      intro hblank
      obtain heq | hquiet := h.of_sign_mem_items hi
      · cases heq
        revert hblank
        decide
      · obtain rfl | hplain := hquiet char rfl
        · revert hblank
          decide
        · simp [isSpecial, Item.isWhite] at hplain hblank
          simp [hblank] at hplain

end IsLegible

end Chain

namespace Graph

/-- **Graphs that are built** by adding chains and giving labels. -/
inductive IsBuilt {α : Type} : Graph α → Prop
  | empty : IsBuilt {}
  | add {g g' : Graph α} (h : IsBuilt g) (inputs : List String) (filters : List (Filter α))
      (outputs : List String) (hadd : g.add inputs filters outputs = .ok g') : IsBuilt g'
  | newLabel {g : Graph α} (h : IsBuilt g) (stem : String) : IsBuilt (g.newLabel stem).2

/-- Every chain of a graph that was built has a filter. -/
theorem IsBuilt.filters_ne_nil {α : Type} {g : Graph α} (h : g.IsBuilt) :
    ∀ c ∈ g.chains, c.filters ≠ [] := by
  induction h with
  | empty => exact fun _ hc => absurd hc List.not_mem_nil
  | newLabel _ _ ih => exact ih
  | add _ inputs filters outputs hadd ih =>
    rw [Graph.add] at hadd
    split at hadd
    · cases hadd
    · next hne =>
      cases hadd
      refine List.forall_mem_append.mpr ⟨ih, List.forall_mem_singleton.mpr fun hnil => ?_⟩
      exact hne (List.isEmpty_iff.mpr hnil)

variable {g : Graph Float}

theorem readsAs (h : ∀ c ∈ g.chains, c.IsLegible) :
    ReadsAs g.render.toList
      ([.sign (.plain ';'), .sign (.plain '\n')].intercalate (g.chains.map Chain.items)) := by
  have hseparator : ReadsAs [';', '\n'] [.sign (.plain ';'), .sign (.plain '\n')] :=
    .of_isUnmarked (by decide)
  have hchains : List.Forall₂ ReadsAs (g.chains.map fun c => c.render.toList)
      (g.chains.map Chain.items) :=
    List.forall₂_map_left_iff.mpr (List.forall₂_map_right_iff.mpr
      (List.forall₂_same.mpr fun c hc => (h c hc).readsAs))
  rw [render, String.toList_intercalate, List.map_map]
  exact hseparator.intercalate hchains

theorem mapM_eq_some {β γ : Type} {f : β → Option γ} {f' : β → γ} {xs : List β}
    (h : ∀ x ∈ xs, f x = some (f' x)) : xs.mapM f = some (xs.map f') := by
  induction xs with
  | nil => rfl
  | cons x xs ih =>
    obtain ⟨hx, hxs⟩ := List.forall_mem_cons.mp h
    rw [List.mapM_cons, hx, ih hxs]
    rfl

/-- The chains of a program are told apart. -/
theorem splitChains_items {c : Chain Float} {cs : List (Chain Float)}
    (h : ∀ d ∈ c :: cs, d.IsLegible) :
    splitChains ([.sign (.plain ';'), .sign (.plain '\n')].intercalate
      ((c :: cs).map Chain.items)) = (c :: cs).map Chain.items := by
  have hsplit : ∀ items ∈ c.items :: (cs.map Chain.items).map ([.sign (.plain '\n')] ++ ·),
      .sign (.plain ';') ∉ items := by
    refine List.forall_mem_cons.mpr ⟨(h c List.mem_cons_self).semicolon_not_mem_items, ?_⟩
    rw [List.map_map]
    intro items hitems
    obtain ⟨d, hd, rfl⟩ := List.mem_map.mp hitems
    have hd := (h d (List.mem_cons_of_mem c hd)).semicolon_not_mem_items
    simpa using hd
  rw [List.map_cons, intercalate_cons_left, splitChains,
    List.splitOn_intercalate _ hsplit (List.cons_ne_nil _ _)]
  dsimp only
  rw [List.map_map, List.map_map]
  refine congrArg (c.items :: ·) (List.map_congr_left fun d hd => ?_)
  exact (h d (List.mem_cons_of_mem c hd)).dropWhile_items

/-- **A program is read back** as the chains of its graph, whatever the arguments of its filters
are, if its labels and names can be told from the marks around them and every chain has something
between its labels. -/
theorem readProgram_render (hbuilt : g.IsBuilt) (h : ∀ c ∈ g.chains, c.IsLegible) :
    readProgram g.render = some (g.chains.map Chain.content) := by
  have hne := hbuilt.filters_ne_nil
  rw [readProgram, (readsAs h).itemsOf_eq]
  change (if _ then _ else _) = _
  cases hchains : g.chains with
  | nil => rfl
  | cons c cs =>
    rw [hchains] at h hne
    have hitems : c.items ≠ [] := by
      have hbody := (h c List.mem_cons_self).body_ne_nil (hne c List.mem_cons_self)
      simp [Chain.items, hbody]
    rw [if_neg, splitChains_items h, List.mapM_map]
    · exact mapM_eq_some fun d hd => (h d hd).readChain_items (hne d hd)
    · rw [List.isEmpty_iff, List.map_cons]
      cases cs <;> simp [List.intercalate_cons_cons, hitems]

/-- A caption whose words have the marks of a program in them. -/
def captioned : Graph Float where
  chains := [
    ⟨["0:v"], [
      { name := "drawtext"
        options := [("text", .text "it's [b]; a, c\\d: x"), ("y", .number 0.5)] },
      { name := "setsar", positional := [.int 1] }], ["v0"]⟩,
    ⟨["v0"], [{ name := "format", positional := [.text "yuv420p"] }], ["vout"]⟩]

theorem captioned_is_read_back :
    captioned.IsBuilt ∧ (∀ c ∈ captioned.chains, c.IsLegible) ∧
      readProgram captioned.render = some [
        ⟨["0:v"], [("drawtext", "text=it's [b]; a, c\\\\d\\: x:y=0.5"), ("setsar", "1")], ["v0"]⟩,
        ⟨["v0"], [("format", "yuv420p")], ["vout"]⟩] := by
  have hbuilt : captioned.IsBuilt := .add (.add .empty _ (_ :: _) _ rfl) _ (_ :: _) _ rfl
  have hlegible : ∀ c ∈ captioned.chains, c.IsLegible := by
    refine List.forall_mem_cons.mpr ⟨⟨by decide, ?_, by simp⟩,
      List.forall_mem_singleton.mpr ⟨by decide, ?_, by simp⟩⟩
    · refine List.forall_mem_cons.mpr ⟨⟨by decide, ?_⟩,
        List.forall_mem_singleton.mpr ⟨by decide, nofun⟩⟩
      exact List.forall_mem_cons.mpr ⟨by decide, List.forall_mem_singleton.mpr (by decide)⟩
    · exact List.forall_mem_singleton.mpr ⟨by decide, nofun⟩
  exact ⟨hbuilt, hlegible, (readProgram_render hbuilt hlegible).trans (by decide +kernel)⟩

/-- **A chain of one filter without a name** has nothing between its labels, and its output is read
as an input. -/
theorem output_is_read_as_input :
    ∃ g : Graph Float, g.IsBuilt ∧ (∀ c ∈ g.chains, ∀ f ∈ c.filters, f.IsLegible) ∧
      (∀ c ∈ g.chains, ∀ label ∈ c.inputs ++ c.outputs, IsWord label) ∧
      g.chains = [⟨["a"], [{ name := "" }], ["b"]⟩] ∧
      readProgram g.render = some [⟨["a", "b"], [("", "")], []⟩] ∧
      readProgram g.render ≠ some (g.chains.map Chain.content) := by
  refine ⟨⟨[⟨["a"], [{ name := "" }], ["b"]⟩], []⟩, .add .empty _ (_ :: _) _ rfl, ?_, by decide,
    rfl, by decide, by decide⟩
  exact List.forall_mem_singleton.mpr (List.forall_mem_singleton.mpr ⟨by decide, nofun⟩)

end Graph

end TimelineExport
