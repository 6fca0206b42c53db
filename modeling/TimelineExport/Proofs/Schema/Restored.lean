import Mathlib.Data.List.Basic
import TimelineExport.Json.Access
import TimelineExport.Schema.Checked

/-!
# Decoded values and their views

A decoder is lenient: a number may come as a text, and a field under one of several names. A view
is written in one way only. `Restores f view` says that whatever `f` decodes from anything is what
`f` decodes from its view, so a second look at a value finds nothing that the first one changed.

The decoders of single values are followed by those of fields. A view writes every field under its
preferred name and then the members without a meaning. None of these has a preferred name
(`otherMembers_shown_append`), so they come back as they are, in their order.
-/

namespace TimelineExport

variable {α β : Type}

/-! ### Valid results -/

namespace Checked

theorem map_eq_valid {f : α → β} {x : Checked α} {b : β} :
    f <$> x = valid b ↔ ∃ a, x = valid a ∧ f a = b := by
  cases x with
  | valid a =>
    change valid (f a) = valid b ↔ _
    simp
  | invalid es => exact iff_of_false nofun (by simp)

theorem seq_eq_valid {f : Checked (α → β)} {x : Checked α} {b : β} :
    f <*> x = valid b ↔ ∃ g, f = valid g ∧ ∃ a, x = valid a ∧ g a = b := by
  cases f with
  | valid g =>
    cases x with
    | valid a =>
      change valid (g a) = valid b ↔ _
      simp
    | invalid es => exact iff_of_false nofun (by simp)
  | invalid es => cases x <;> exact iff_of_false nofun (by simp)

theorem pure_eq_valid {a b : α} : (pure a : Checked α) = valid b ↔ a = b := by
  change valid a = valid b ↔ _
  simp

theorem within_eq_valid {step : Step} {x : Checked α} {a : α} :
    x.within step = valid a ↔ x = valid a := by
  cases x <;> simp [within]

/-- A value that is checked once more is valid if it passes. -/
theorem thenCheck_eq_valid {p : α → Prop} [DecidablePred p] {x : Checked α} {fault : Fault}
    {a : α} :
    (x.thenCheck fun b => if p b then valid b else fail fault) = valid a ↔ x = valid a ∧ p a := by
  cases x with
  | valid b =>
    have hcheck : (if p b then valid b else fail fault) = valid a ↔ b = a ∧ p b := by
      split
      · next hb => simp [hb]
      · next hb => simp [hb, fail]
    simp only [thenCheck, hcheck, valid.injEq]
    constructor
    · rintro ⟨rfl, hb⟩
      exact ⟨rfl, hb⟩
    · rintro ⟨rfl, hb⟩
      exact ⟨rfl, hb⟩
  | invalid es => simp [thenCheck]

end Checked

/-! ### Values -/

namespace Decoder

/-- **A view is restored** by a decoder: whatever is decoded from anything is decoded from its
view. -/
def Restores (f : Decoder α) (view : α → Json) : Prop :=
  ∀ v a, f v = .valid a → f (view a) = .valid a

theorem restores_text : text.Restores .text := fun _ _ _ => rfl

theorem restores_float : float.Restores .float := fun _ _ _ => rfl

theorem restores_object : object.Restores .object := fun _ _ _ => rfl

/-- What is taken from a list of names is the first of its name. -/
theorem among_eq_valid {all : List α} {name : α → String} {v : Json} {a : α} :
    among all name v = .valid a ↔ ∃ s, v = .text s ∧ all.find? (name · == s) = some a := by
  cases v with
  | text s =>
    unfold among
    dsimp only
    split
    · next b hb => simp [hb]
    · next hb => simp [hb, Checked.fail]
  | _ => simp [among, Checked.fail]

theorem restores_among (all : List α) (name : α → String) :
    (among all name).Restores fun a => .text (name a) := by
  intro v a h
  obtain ⟨s, -, hfound⟩ := among_eq_valid.mp h
  have hs : name a = s := by simpa using List.find?_some hfound
  exact among_eq_valid.mpr ⟨name a, rfl, hs ▸ hfound⟩

variable {f : Decoder α} {view : α → Json}

theorem nullable_of_not_isNull {v : Json} (h : v.isNull = false) : nullable f v = some <$> f v := by
  cases v with
  | null => cases h
  | _ => rfl

/-- A value that may be absent is read from its view if it is read where it is present, since its
view is never the null that stands for absence. -/
theorem nullable_ofOption_iff (hview : ∀ a, (view a).isNull = false) {o : Option α} :
    nullable f (.ofOption view o) = .valid o ↔ ∀ a ∈ o, f (view a) = .valid a := by
  cases o with
  | none => exact iff_of_true rfl nofun
  | some a =>
    change nullable f (view a) = _ ↔ _
    rw [nullable_of_not_isNull (hview a), Checked.map_eq_valid]
    simp

theorem Restores.nullable (h : f.Restores view) (hview : ∀ a, (view a).isNull = false) :
    (nullable f).Restores (.ofOption view) := by
  intro v o hv
  refine (nullable_ofOption_iff hview).mpr fun a ha => h v a ?_
  obtain rfl : o = some a := ha
  cases v with
  | null => cases hv
  | _ => simpa using Checked.map_eq_valid.mp hv

/-- A check that a decoded value has passed is passed again. -/
theorem Restores.thenCheck {p : α → Prop} [DecidablePred p] {fault : Fault}
    (h : f.Restores view) :
    Decoder.Restores
      (fun v => (f v).thenCheck fun a => if p a then .valid a else .fail fault) view := by
  intro v a hv
  obtain ⟨ha, hp⟩ := Checked.thenCheck_eq_valid.mp hv
  exact Checked.thenCheck_eq_valid.mpr ⟨h v a ha, hp⟩

variable {g : Decoder Float} {look : Float → Json} {bound : Int}

theorem Restores.moreThan (h : g.Restores look) : (moreThan bound g).Restores look := h.thenCheck

theorem Restores.atLeast (h : g.Restores look) : (atLeast bound g).Restores look := h.thenCheck

theorem Restores.atMost (h : g.Restores look) : (atMost bound g).Restores look := h.thenCheck

/-- What is decoded as a model comes from an object. -/
theorem exists_object_of_model {name : String} {fields : List (String × Json) → Checked α}
    {v : Json} {a : α} (h : model name fields v = .valid a) :
    ∃ m, v = .object m ∧ fields m = .valid a := by
  cases v with
  | object m => exact ⟨m, rfl, h⟩
  | _ => cases h

end Decoder

/-! ### Fields -/

section
variable {f : Decoder α} {view : α → Json} {m shown : List (String × Json)}
  {name : String} {names rest : List String} {a default : α}

theorem fieldSource_cons_of_find? {v : Json} (h : Json.find? m name = some v) :
    fieldSource m (name :: rest) = some (name, v) := by
  simp [fieldSource, h]

/-- A field is decoded from its view where this stands under the preferred name. -/
theorem optional_of_find? (h : f (view a) = .valid a)
    (hshown : Json.find? shown name = some (view a)) :
    optional shown (name :: rest) f default = .valid a := by
  rw [optional, fieldSource_cons_of_find? hshown]
  exact Checked.within_eq_valid.mpr h

/-- What a field with a default has been decoded to is restored if the default is. -/
theorem restored_of_optional (hf : f.Restores view) (hdefault : f (view default) = .valid default)
    (h : optional m names f default = .valid a) : f (view a) = .valid a := by
  unfold optional at h
  split at h
  · exact hf _ _ (Checked.within_eq_valid.mp h)
  · cases h
    exact hdefault

/-- A field with a default that has been decoded is decoded again from its view. -/
theorem optional_shown (hf : f.Restores view) (hdefault : f (view default) = .valid default)
    (h : optional m names f default = .valid a)
    (hshown : Json.find? shown name = some (view a)) :
    optional shown (name :: rest) f default = .valid a :=
  optional_of_find? (restored_of_optional hf hdefault h) hshown

/-- As `optional_shown`, for a field that has to be present. -/
theorem required_shown (hf : f.Restores view) (h : required m names f = .valid a)
    (hshown : Json.find? shown name = some (view a)) :
    required shown (name :: rest) f = .valid a := by
  unfold required at h
  rw [required, fieldSource_cons_of_find? hshown]
  refine Checked.within_eq_valid.mpr ?_
  split at h
  · exact hf _ _ (Checked.within_eq_valid.mp h)
  · cases h

/-! ### Members without a meaning -/

variable {fields : List (List String)}

theorem isSome_find?_iff : (Json.find? m name).isSome ↔ name ∈ m.map (·.1) := by
  simp [Json.find?]

/-- A member without a meaning has the preferred name of no field. -/
theorem not_mem_preferred_of_mem_otherMembers {p : String × Json}
    (hp : p ∈ otherMembers m fields) : ∀ rest, p.1 :: rest ∉ fields := by
  intro rest hmem
  obtain ⟨hm, hunused⟩ := List.mem_filter.mp hp
  obtain ⟨v, hv⟩ : ∃ v, Json.find? m p.1 = some v :=
    Option.isSome_iff_exists.mp (isSome_find?_iff.mpr (List.mem_map_of_mem hm))
  have hused : p.1 ∈ fields.filterMap fun names => (fieldSource m names).map (·.1) :=
    List.mem_filterMap.mpr ⟨_, hmem, by rw [fieldSource_cons_of_find? hv]; rfl⟩
  simp [hused] at hunused

/-- **What has no meaning stays as it is**: where every field is shown under its preferred name,
the members besides are those that were there before. -/
theorem otherMembers_shown_append (hfields : ∀ names ∈ fields, names ≠ [])
    (hshown : shown.map (·.1) = fields.map (·.headD "")) :
    otherMembers (shown ++ otherMembers m fields) fields = otherMembers m fields := by
  have hused : (fields.filterMap fun names =>
      (fieldSource (shown ++ otherMembers m fields) names).map (·.1)) = shown.map (·.1) := by
    rw [hshown, ← List.filterMap_eq_map]
    refine List.filterMap_congr fun names hnames => ?_
    obtain ⟨name, rest, rfl⟩ := List.exists_cons_of_ne_nil (hfields names hnames)
    have hmem : name ∈ shown.map (·.1) := hshown ▸ List.mem_map_of_mem hnames
    obtain ⟨v, hv⟩ : ∃ v, Json.find? (shown ++ otherMembers m fields) name = some v :=
      Option.isSome_iff_exists.mp (isSome_find?_iff.mpr (by simp [hmem]))
    rw [fieldSource_cons_of_find? hv]
    rfl
  rw [otherMembers, hused, List.filter_append]
  have hgone : (shown.filter fun p => !(shown.map (·.1)).contains p.1) = [] := by
    refine List.filter_eq_nil_iff.mpr fun p hp => ?_
    simpa using ⟨p.2, hp⟩
  have hkept : ((otherMembers m fields).filter fun p => !(shown.map (·.1)).contains p.1) =
      otherMembers m fields := by
    refine List.filter_eq_self.mpr fun p hp => ?_
    suffices p.1 ∉ shown.map (·.1) by simpa using this
    intro hname
    obtain ⟨names, hnames, heq⟩ := List.mem_map.mp (hshown ▸ hname)
    obtain ⟨name, rest, rfl⟩ := List.exists_cons_of_ne_nil (hfields names hnames)
    obtain rfl : name = p.1 := heq
    exact not_mem_preferred_of_mem_otherMembers hp rest hnames
  rw [hgone, hkept, List.nil_append]

end

end TimelineExport
