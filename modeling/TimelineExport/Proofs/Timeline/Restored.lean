import TimelineExport.Json.Access
import TimelineExport.Proofs.Schema.Restored
import TimelineExport.Timeline.Codec

/-!
# Timelines that are read back

Every part of an element is decoded from its view as it was decoded before: the lengths in pixels,
the weights, the spellings and the kinds are in their normal form after one pass. The parts are
taken one by one. For each, `ofJson_object_iff` reads the decoder apart into its fields and
`restores` puts the fields of the view together again.

What is done with a whole element at last, the lifting of its transitions, is not idempotent. An
explicit "none" holds against the transition of the properties, but lifting leaves nothing of it
behind, and the properties keep what they have. So the second pass lifts what the first one has
switched off (`Transition.lifted_again_iff`). `Element.ofJson_toJson` is what a second pass gives in
every case.
-/

namespace TimelineExport

open Checked Decoder

/-! ### Values -/

theorem decodeLength_restores : decodeLength.Restores (.ofOption .float) := by
  intro v x hx
  cases x <;> rfl

theorem decodeWeight_restores : decodeWeight.Restores (.ofOption .text) := by
  intro v s hs
  cases s <;> rfl

theorem decodeKind_restores : decodeKind.Restores fun k => .text k.name := by
  intro v k hk
  cases k <;> rfl

/-- The word for an effect, or for its absence. -/
theorem decodeEffect_restores :
    decodeEffect.Restores fun e => .text ((e.map Effect.name).getD "none") := by
  intro v e he
  rcases e with _ | e
  · rfl
  · cases e <;> rfl

theorem restores_nullable_text : (nullable text).Restores (.ofOption .text) :=
  restores_text.nullable fun _ => rfl

theorem restores_nullable_float : (nullable float).Restores (.ofOption .float) :=
  restores_float.nullable fun _ => rfl

/-! ### Parts of an element -/

namespace Transition

theorem ofJson_object_iff {m : List (String × Json)} {t : Transition Float} :
    ofJson (.object m) = .valid t ↔
      required m ["kind", "type"] decodeEffect = .valid t.effect ∧
      optional m ["durationMs", "duration_ms", "duration"] (.atLeast 0 .float) defaultMs =
        .valid t.durationMs := by
  cases t
  simp only [ofJson, model, seq_eq_valid, map_eq_valid]
  simp

theorem restores : ofJson.Restores toJson := by
  intro v t h
  obtain ⟨m, rfl, -⟩ := exists_object_of_model h
  obtain ⟨heffect, hduration⟩ := ofJson_object_iff.mp h
  refine ofJson_object_iff.mpr
    ⟨required_shown decodeEffect_restores heffect rfl,
      optional_shown restores_float.atLeast rfl hduration rfl⟩

end Transition

namespace Style

theorem ofJson_object_iff {m : List (String × Json)} {s : Style Float} :
    ofJson (.object m) = .valid s ↔
      optional m ["fontSize", "font_size"] decodeLength none = .valid s.fontSize ∧
      optional m ["color"] (.nullable .text) none = .valid s.color ∧
      optional m ["fontColor", "font_color"] (.nullable .text) none = .valid s.fontColor ∧
      optional m ["fontFamily", "font_family"] (.nullable .text) none = .valid s.fontFamily ∧
      optional m ["fontWeight", "font_weight"] decodeWeight none = .valid s.fontWeight ∧
      optional m ["fontStyle", "font_style"] (.nullable .text) none = .valid s.fontStyle ∧
      optional m ["textAlign", "text_align"] (.nullable (.among Align.all Align.name)) none =
        .valid s.textAlign ∧
      optional m ["backgroundColor", "background_color"] (.nullable .text) none =
        .valid s.backgroundColor ∧
      optional m ["background"] (.nullable .text) none = .valid s.background ∧
      optional m ["borderRadius", "border_radius"] decodeLength none = .valid s.borderRadius ∧
      optional m ["padding"] decodeLength none = .valid s.padding ∧
      optional m ["boxShadow", "box_shadow"] (.nullable .text) none = .valid s.boxShadow ∧
      optional m ["textShadow", "text_shadow"] (.nullable .text) none = .valid s.textShadow ∧
      optional m ["gradient"] (.nullable .text) none = .valid s.gradient ∧
      optional m ["transform"] (.nullable .text) none = .valid s.transform ∧
      otherMembers m fields = s.others := by
  cases s
  simp only [ofJson, model, seq_eq_valid, map_eq_valid, pure_eq_valid, spelled]
  simp [and_assoc]

theorem restores : ofJson.Restores toJson := by
  intro v s h
  obtain ⟨m, rfl, -⟩ := exists_object_of_model h
  obtain ⟨hsize, hcolor, hfontColor, hfamily, hweight, hstyle, halign, hbackColor, hback, hradius,
    hpadding, hbox, hshadow, hgradient, htransform, hothers⟩ := ofJson_object_iff.mp h
  have halign' := restores_among Align.all Align.name |>.nullable fun _ => rfl
  refine ofJson_object_iff.mpr
    ⟨optional_shown decodeLength_restores rfl hsize rfl,
      optional_shown restores_nullable_text rfl hcolor rfl,
      optional_shown restores_nullable_text rfl hfontColor rfl,
      optional_shown restores_nullable_text rfl hfamily rfl,
      optional_shown decodeWeight_restores rfl hweight rfl,
      optional_shown restores_nullable_text rfl hstyle rfl,
      optional_shown halign' rfl halign rfl,
      optional_shown restores_nullable_text rfl hbackColor rfl,
      optional_shown restores_nullable_text rfl hback rfl,
      optional_shown decodeLength_restores rfl hradius rfl,
      optional_shown decodeLength_restores rfl hpadding rfl,
      optional_shown restores_nullable_text rfl hbox rfl,
      optional_shown restores_nullable_text rfl hshadow rfl,
      optional_shown restores_nullable_text rfl hgradient rfl,
      optional_shown restores_nullable_text rfl htransform rfl, ?_⟩
  rw [← hothers]
  exact otherMembers_shown_append (by decide) rfl

end Style

namespace Point

theorem ofJson_object_iff {m : List (String × Json)} {p : Point Float} :
    ofJson (.object m) = .valid p ↔
      optional m ["x"] .float 0 = .valid p.x ∧ optional m ["y"] .float 0 = .valid p.y := by
  cases p
  simp only [ofJson, model, seq_eq_valid, map_eq_valid]
  simp

theorem restores : ofJson.Restores toJson := by
  intro v p h
  obtain ⟨m, rfl, -⟩ := exists_object_of_model h
  obtain ⟨hx, hy⟩ := ofJson_object_iff.mp h
  exact ofJson_object_iff.mpr
    ⟨optional_shown restores_float rfl hx rfl, optional_shown restores_float rfl hy rfl⟩

end Point

namespace CropBox

theorem ofJson_object_iff {m : List (String × Json)} {c : CropBox Float} :
    ofJson (.object m) = .valid c ↔
      optional m ["left"] .float 0 = .valid c.left ∧
      optional m ["top"] .float 0 = .valid c.top ∧
      required m ["width"] .float = .valid c.width ∧
      required m ["height"] .float = .valid c.height ∧
      optional m ["borderRadius", "border_radius"] (.nullable .float) none =
        .valid c.borderRadius := by
  cases c
  simp only [ofJson, model, seq_eq_valid, map_eq_valid]
  simp [and_assoc]

theorem restores : ofJson.Restores toJson := by
  intro v c h
  obtain ⟨m, rfl, -⟩ := exists_object_of_model h
  obtain ⟨hleft, htop, hwidth, hheight, hradius⟩ := ofJson_object_iff.mp h
  exact ofJson_object_iff.mpr
    ⟨optional_shown restores_float rfl hleft rfl, optional_shown restores_float rfl htop rfl,
      required_shown restores_float hwidth rfl, required_shown restores_float hheight rfl,
      optional_shown restores_nullable_float rfl hradius rfl⟩

end CropBox

namespace ExternalAsset

theorem ofJson_object_iff {m : List (String × Json)} {a : ExternalAsset} :
    ofJson (.object m) = .valid a ↔
      optional m ["url"] (.nullable .text) none = .valid a.url ∧
      optional m ["platform"] (.nullable .text) none = .valid a.platform ∧
      optional m ["originalData", "original_data"] .object [] = .valid a.originalData ∧
      otherMembers m fields = a.others := by
  cases a
  simp only [ofJson, model, seq_eq_valid, map_eq_valid, pure_eq_valid]
  simp [and_assoc]

theorem restores : ofJson.Restores toJson := by
  intro v a h
  obtain ⟨m, rfl, -⟩ := exists_object_of_model h
  obtain ⟨hurl, hplatform, hdata, hothers⟩ := ofJson_object_iff.mp h
  refine ofJson_object_iff.mpr
    ⟨optional_shown restores_nullable_text rfl hurl rfl,
      optional_shown restores_nullable_text rfl hplatform rfl,
      optional_shown restores_object rfl hdata rfl, ?_⟩
  rw [← hothers]
  exact otherMembers_shown_append (by decide) rfl

end ExternalAsset

namespace Properties

theorem ofJson_object_iff {m : List (String × Json)} {p : Properties Float} :
    ofJson (.object m) = .valid p ↔
      optional m ["style"] (.nullable Style.ofJson) none = .valid p.style ∧
      optional m ["placement"] (.nullable (.among Placement.all Placement.name)) none =
        .valid p.placement ∧
      optional m ["position"] (.nullable Point.ofJson) none = .valid p.position ∧
      optional m ["scale"] (.moreThan 0 .float) 1 = .valid p.scale ∧
      optional m ["crop"] (.nullable CropBox.ofJson) none = .valid p.crop ∧
      optional m ["rotation"] (.nullable .float) none = .valid p.rotation ∧
      optional m ["externalAsset", "external_asset"] (.nullable ExternalAsset.ofJson) none =
        .valid p.externalAsset ∧
      optional m ["text"] (.nullable .text) none = .valid p.text ∧
      optional m ["transitionIn", "transition_in"] (.nullable Transition.ofJson) none =
        .valid p.transitionIn ∧
      optional m ["transitionOut", "transition_out"] (.nullable Transition.ofJson) none =
        .valid p.transitionOut ∧
      otherMembers m fields = p.others := by
  cases p
  simp only [ofJson, model, seq_eq_valid, map_eq_valid, pure_eq_valid]
  simp [and_assoc]

theorem restores : ofJson.Restores toJson := by
  intro v p h
  obtain ⟨m, rfl, -⟩ := exists_object_of_model h
  obtain ⟨hstyle, hplacement, hposition, hscale, hcrop, hrotation, hasset, htext, hin, hout,
    hothers⟩ := ofJson_object_iff.mp h
  have hplacement' := (restores_among Placement.all Placement.name).nullable fun _ => rfl
  have htransition := Transition.restores.nullable fun _ => rfl
  refine ofJson_object_iff.mpr
    ⟨optional_shown (Style.restores.nullable fun _ => rfl) rfl hstyle rfl,
      optional_shown hplacement' rfl hplacement rfl,
      optional_shown (Point.restores.nullable fun _ => rfl) rfl hposition rfl,
      optional_shown restores_float.moreThan rfl hscale rfl,
      optional_shown (CropBox.restores.nullable fun _ => rfl) rfl hcrop rfl,
      optional_shown restores_nullable_float rfl hrotation rfl,
      optional_shown (ExternalAsset.restores.nullable fun _ => rfl) rfl hasset rfl,
      optional_shown restores_nullable_text rfl htext rfl,
      optional_shown htransition rfl hin rfl, optional_shown htransition rfl hout rfl, ?_⟩
  rw [← hothers]
  exact otherMembers_shown_append (by decide) rfl

/-- The transitions of decoded properties are restored, each on its own. -/
theorem transition_restored {p : Properties Float} (h : ofJson p.toJson = .valid p)
    {t : Transition Float} (ht : t ∈ p.transitionIn ∨ t ∈ p.transitionOut) :
    Transition.ofJson t.toJson = .valid t := by
  obtain ⟨-, -, -, -, -, -, -, -, hin, hout, -⟩ := ofJson_object_iff.mp h
  have htransition := Transition.restores.nullable fun _ => rfl
  have hview : ∀ t : Transition Float, t.toJson.isNull = false := fun _ => rfl
  rcases ht with ht | ht
  · exact (nullable_ofOption_iff hview).mp (restored_of_optional htransition rfl hin) t ht
  · exact (nullable_ofOption_iff hview).mp (restored_of_optional htransition rfl hout) t ht

end Properties

/-! ### Lifting once more -/

section
variable {α : Type}

/-- **An effect is switched off** at an end that shows no transition although the properties have
one with an effect there. -/
def Transition.IsOff (shown nested : Option (Transition α)) : Prop :=
  shown = none ∧ ∃ t ∈ nested, t.effect.isSome

/-- Lifting once more changes nothing at an end unless it has switched off an effect there. -/
theorem Transition.lifted_again_iff (own nested : Option (Transition α)) :
    ((((own.or nested).filter (·.effect.isSome)).or nested).filter (·.effect.isSome)) =
        (own.or nested).filter (·.effect.isSome) ↔
      ¬ IsOff ((own.or nested).filter (·.effect.isSome)) nested := by
  generalize hshown : (own.or nested).filter (·.effect.isSome) = shown
  cases shown with
  | none =>
    cases nested with
    | none => simp [IsOff]
    | some t => simp [IsOff]
  | some t =>
    have heffect : t.effect.isSome := (Option.filter_eq_some_iff.mp hshown).2
    simp [IsOff, heffect]

theorem Element.liftTransitions_eq_self_iff (e : Element α) :
    e.liftTransitions = e ↔
      (e.transitionIn.or e.properties.transitionIn).filter (·.effect.isSome) = e.transitionIn ∧
      (e.transitionOut.or e.properties.transitionOut).filter (·.effect.isSome) =
        e.transitionOut := by
  cases e
  simp [liftTransitions]

end

/-! ### Elements -/

namespace Element

theorem ofMembers_iff {m : List (String × Json)} {e : Element Float} :
    ofMembers m = .valid e ↔
      required m ["id"] .text = .valid e.id ∧
      required m ["kind", "type"] decodeKind = .valid e.kind ∧
      required m ["trackId", "track_id"] .text = .valid e.trackId ∧
      required m ["timelineStartMs", "timeline_start_ms"] .float = .valid e.startMs ∧
      required m ["timelineEndMs", "timeline_end_ms"] .float = .valid e.endMs ∧
      optional m ["sourceStartMs", "source_start_ms"] (.nullable .float) none =
        .valid e.sourceStartMs ∧
      optional m ["sourceEndMs", "source_end_ms"] (.nullable .float) none =
        .valid e.sourceEndMs ∧
      optional m ["speed"] (.moreThan 0 .float) 1 = .valid e.speed ∧
      optional m ["volume"] (.atLeast 0 .float) 1 = .valid e.volume ∧
      optional m ["opacity"] (.atLeast 0 (.atMost 1 .float)) 1 = .valid e.opacity ∧
      optional m ["transitionIn", "transition_in"] (.nullable Transition.ofJson) none =
        .valid e.transitionIn ∧
      optional m ["transitionOut", "transition_out"] (.nullable Transition.ofJson) none =
        .valid e.transitionOut ∧
      optional m ["source"] (.nullable .text) none = .valid e.source ∧
      optional m ["text"] (.nullable .text) none = .valid e.text ∧
      optional m ["properties"] Properties.ofJson { scale := 1 } = .valid e.properties := by
  cases e
  simp only [ofMembers, seq_eq_valid, map_eq_valid]
  simp [and_assoc]

/-- The fields of an element are restored from its view, also if its transitions have been replaced
by others that are restored. -/
theorem ofMembers_toJson {m : List (String × Json)} {own : Element Float}
    (h : ofMembers m = .valid own) {first last : Option (Transition Float)}
    (hfirst : ∀ t ∈ first, Transition.ofJson t.toJson = .valid t)
    (hlast : ∀ t ∈ last, Transition.ofJson t.toJson = .valid t) :
    ofMembers (toJson { own with transitionIn := first, transitionOut := last }).members =
      .valid { own with transitionIn := first, transitionOut := last } := by
  obtain ⟨hid, hkind, htrack, hstart, hend, hsourceStart, hsourceEnd, hspeed, hvolume, hopacity,
    -, -, hsource, htext, hproperties⟩ := ofMembers_iff.mp h
  have hview : ∀ t : Transition Float, t.toJson.isNull = false := fun _ => rfl
  exact ofMembers_iff.mpr
    ⟨required_shown restores_text hid rfl, required_shown decodeKind_restores hkind rfl,
      required_shown restores_text htrack rfl, required_shown restores_float hstart rfl,
      required_shown restores_float hend rfl,
      optional_shown restores_nullable_float rfl hsourceStart rfl,
      optional_shown restores_nullable_float rfl hsourceEnd rfl,
      optional_shown restores_float.moreThan rfl hspeed rfl,
      optional_shown restores_float.atLeast rfl hvolume rfl,
      optional_shown restores_float.atMost.atLeast rfl hopacity rfl,
      optional_of_find? ((nullable_ofOption_iff hview).mpr hfirst) rfl,
      optional_of_find? ((nullable_ofOption_iff hview).mpr hlast) rfl,
      optional_shown restores_nullable_text rfl hsource rfl,
      optional_shown restores_nullable_text rfl htext rfl,
      optional_shown Properties.restores rfl hproperties rfl⟩

/-- The own transitions of a decoded element and those of its properties are restored. -/
theorem transition_restored {m : List (String × Json)} {own : Element Float}
    (h : ofMembers m = .valid own) {t : Transition Float}
    (ht : t ∈ own.transitionIn.or own.properties.transitionIn ∨
      t ∈ own.transitionOut.or own.properties.transitionOut) :
    Transition.ofJson t.toJson = .valid t := by
  obtain ⟨-, -, -, -, -, -, -, -, -, -, hin, hout, -, -, hproperties⟩ := ofMembers_iff.mp h
  have hrestored := restored_of_optional Properties.restores rfl hproperties
  have htransition := Transition.restores.nullable fun _ => rfl
  have hview : ∀ t : Transition Float, t.toJson.isNull = false := fun _ => rfl
  rcases ht with ht | ht
  · rcases Option.or_eq_some_iff.mp ht with hown | ⟨-, hnested⟩
    · exact (nullable_ofOption_iff hview).mp (restored_of_optional htransition rfl hin) t hown
    · exact Properties.transition_restored hrestored (.inl hnested)
  · rcases Option.or_eq_some_iff.mp ht with hown | ⟨-, hnested⟩
    · exact (nullable_ofOption_iff hview).mp (restored_of_optional htransition rfl hout) t hown
    · exact Properties.transition_restored hrestored (.inr hnested)

/-- **A second pass** accepts the view of what a first one gave, and its result differs in nothing
but that the transitions are lifted once more. -/
theorem ofJson_toJson {v : Json} {e : Element Float} (h : ofJson v = .valid e) :
    ofJson e.toJson = .valid e.liftTransitions := by
  obtain ⟨m, rfl, hm⟩ := exists_object_of_model h
  obtain ⟨own, hown, rfl⟩ := map_eq_valid.mp hm
  refine map_eq_valid.mpr ⟨own.liftTransitions, ofMembers_toJson hown ?_ ?_, rfl⟩
  · intro t ht
    exact transition_restored hown (.inl (Option.mem_filter_iff.mp ht).1)
  · intro t ht
    exact transition_restored hown (.inr (Option.mem_filter_iff.mp ht).1)

/-- **The normal form of an element**: a second pass gives the same element exactly if no effect is
switched off at either end. -/
theorem ofJson_toJson_eq_iff {v : Json} {e : Element Float} (h : ofJson v = .valid e) :
    ofJson e.toJson = .valid e ↔
      ¬ Transition.IsOff e.transitionIn e.properties.transitionIn ∧
      ¬ Transition.IsOff e.transitionOut e.properties.transitionOut := by
  rw [ofJson_toJson h, valid.injEq]
  obtain ⟨m, rfl, hm⟩ := exists_object_of_model h
  obtain ⟨own, hown, rfl⟩ := map_eq_valid.mp hm
  rw [liftTransitions_eq_self_iff]
  exact and_congr (Transition.lifted_again_iff _ _) (Transition.lifted_again_iff _ _)

/-- An animated picture with a fade in its properties and a transition of its own, as an older
editor writes it. -/
def fadingPicture (own : Json) : Json :=
  .object [("id", .text "g"), ("type", .text "gif"), ("track_id", .text "t"),
    ("timelineStartMs", .int 0), ("timelineEndMs", .int 3000), ("transitionIn", own),
    ("properties", .object [
      ("style", .object [("fontSize", .text "24px"), ("fontWeight", .int 700), ("zoom", .int 2)]),
      ("transition_in", .object [("type", .text "fade"), ("duration", .int 500)])])]

/-- A fade that is only lifted is in normal form. -/
theorem fadingPicture_null_normal :
    ∃ e, ofJson (fadingPicture .null) = .valid e ∧ ofJson e.toJson = .valid e := by
  refine ⟨_, rfl, (ofJson_toJson_eq_iff (v := fadingPicture .null) rfl).mpr ⟨?_, ?_⟩⟩
  · exact fun hoff => Option.some_ne_none _ hoff.1
  · rintro ⟨-, t, ht, -⟩
    cases ht

/-- The fade that an explicit "none" has switched off is back after the second pass. -/
theorem fadingPicture_none_not_normal :
    ∃ e, ofJson (fadingPicture (.object [("kind", .text "none")])) = .valid e ∧
      ofJson e.toJson ≠ .valid e := by
  refine ⟨_, rfl, fun hsame => ?_⟩
  have hagain := ofJson_toJson (v := fadingPicture (.object [("kind", .text "none")])) rfl
  have hlifted := valid.inj (hagain.symm.trans hsame)
  exact Option.some_ne_none _ (congrArg transitionIn hlifted)

end Element

end TimelineExport
