import TimelineExport.Proofs.Asset.Join
import TimelineExport.Proofs.Timeline.Accepted
import TimelineExport.Server.Stage

/-!
# How a timeline is divided

An element belongs on the overlay if its own route says that it is styled and its kind can be
drawn. An export divides its timeline by ids instead: it draws every element that has the id of one
that belongs on the overlay (`mem_drawnElements_iff`). So the division is right (`IsDivided`)
exactly if no element that belongs on the overlay shares its id with one that does not
(`divided_rightly_iff`). The ids of a resolved timeline are among those of the request
(`ids_of_resolution`), so distinct ids in the request are enough; but nothing asks for them.
-/

namespace TimelineExport

section
variable {α : Type} [Scalar α]

/-- Whether an element belongs on the overlay: it is styled, and of a kind that can be drawn. -/
def Element.BelongsOnOverlay (e : Element α) : Prop :=
  e.route = .styled ∧ e.kind ∈ [.text, .caption, .sticker, .image]

omit [Scalar α] in
theorem Element.canDraw_iff {e : Element α} :
    e.canDraw = true ↔ e.kind ∈ [.text, .caption, .sticker, .image] := by
  unfold canDraw
  cases e.kind <;> decide

/-- Words and stickers are styled. -/
theorem Element.route_eq_styled {e : Element α} (h : e.kind ∈ [.text, .caption, .sticker]) :
    e.route = .styled := by
  have hrule : Rule.applies e .textOrCaption = true ∨ Rule.applies e .sticker = true := by
    simp only [List.mem_cons, List.not_mem_nil, or_false] at h
    rcases h with h | h | h <;> simp [Rule.applies, ElementKind.isText, h]
  unfold route rule Rule.all
  rcases hrule with h | h
  · rw [List.find?_cons_of_pos h]
    rfl
  · cases htext : Rule.applies e .textOrCaption with
    | true =>
      rw [List.find?_cons_of_pos htext]
      rfl
    | false =>
      rw [List.find?_cons_of_neg (by simp [htext]), List.find?_cons_of_pos h]
      rfl

/-- **A right division** of elements into those that are drawn and those that are composited
natively: each element is in one of two lists, in order, and is drawn exactly if it belongs on the
overlay. So no moving picture and no sound is drawn, and words and stickers are. -/
structure IsDivided (es drawn rest : List (Element α)) : Prop where
  drawn_sublist : drawn.Sublist es
  rest_sublist : rest.Sublist es
  perm : (drawn ++ rest).Perm es
  belongs_of_drawn : ∀ e ∈ drawn, e.BelongsOnOverlay
  not_belongs_of_rest : ∀ e ∈ rest, ¬ e.BelongsOnOverlay
  kind_of_drawn : ∀ e ∈ drawn, e.kind ≠ .video ∧ e.kind ≠ .audio
  kind_of_rest : ∀ e ∈ rest, e.kind ≠ .text ∧ e.kind ≠ .caption ∧ e.kind ≠ .sticker

/-- A division is right if it asks of each element whether it belongs on the overlay. -/
theorem isDivided_filter {es : List (Element α)} {p : Element α → Bool}
    (h : ∀ e ∈ es, p e = true ↔ e.BelongsOnOverlay) :
    IsDivided es (es.filter p) (es.filter fun e => !p e) where
  drawn_sublist := List.filter_sublist
  rest_sublist := List.filter_sublist
  perm := List.filter_append_perm p es
  belongs_of_drawn e he := (h e (List.mem_of_mem_filter he)).mp (List.of_mem_filter he)
  not_belongs_of_rest e he hbelongs := by
    have hp := List.of_mem_filter he
    rw [(h e (List.mem_of_mem_filter he)).mpr hbelongs] at hp
    cases hp
  kind_of_drawn e he := by
    have hkind := ((h e (List.mem_of_mem_filter he)).mp (List.of_mem_filter he)).2
    constructor <;> intro heq <;> rw [heq] at hkind <;> revert hkind <;> decide
  kind_of_rest e he := by
    have hp := List.of_mem_filter he
    have hbelongs : ¬ e.BelongsOnOverlay := fun hbelongs => by
      rw [(h e (List.mem_of_mem_filter he)).mpr hbelongs] at hp
      cases hp
    have hkind : e.kind ∉ [.text, .caption, .sticker] := fun hkind =>
      hbelongs ⟨Element.route_eq_styled hkind, by
        simp only [List.mem_cons, List.not_mem_nil, or_false] at hkind ⊢
        tauto⟩
    simpa using hkind

end

/-! ### Ids -/

/-- The elements that are kept have their ids, in order. -/
theorem ids_of_joinElements {α : Type} {policy : AssetPolicy} {outcomes : SourceOutcomes}
    {elements : List (Element α)} {r r' : ResolvedTimeline α}
    (h : elements.foldlM (joinElement policy outcomes) r = .ok r') :
    ∃ kept : List (Element α), r'.elements = r.elements ++ kept ∧
      (kept.map (·.id)).Sublist (elements.map (·.id)) := by
  induction elements generalizing r with
  | nil =>
    cases h
    exact ⟨[], (List.append_nil _).symm, .slnil⟩
  | cons e elements ih =>
    rw [List.foldlM_cons] at h
    obtain ⟨r₁, hjoin, h⟩ := bind_eq_ok.mp h
    obtain ⟨kept, hkept, hsublist⟩ := ih h
    have hstep : r₁.elements = r.elements ∨
        ∃ e' : Element α, e'.id = e.id ∧ r₁.elements = r.elements ++ [e'] := by
      unfold joinElement at hjoin
      split at hjoin
      · cases hjoin
        exact .inr ⟨e, rfl, rfl⟩
      · next asset _ =>
        cases hjoin
        exact .inr ⟨{ e with source := some asset.path }, rfl, rfl⟩
      · split at hjoin
        · cases hjoin
          exact .inl rfl
        · cases hjoin
    obtain heq | ⟨e', hid, heq⟩ := hstep
    · exact ⟨kept, heq ▸ hkept, hsublist.cons e.id⟩
    · refine ⟨e' :: kept, by rw [hkept, heq, List.append_assoc, List.singleton_append], ?_⟩
      rw [List.map_cons, hid]
      exact hsublist.cons_cons e.id

namespace Execution

variable {settings : ServiceSettings} {h : Host} {e : Execution}
  {timeline : ResolvedTimeline Float} {leases : Leases}

/-- The ids of a resolved timeline are among those of the request, in order. -/
theorem ids_of_resolution (hresolved : (resolution settings h e).1 = .ok (timeline, leases)) :
    (timeline.elements.map (·.id)).Sublist (e.request.clips.map (·.id)) := by
  unfold resolution resolveTimeline concludeResolution at hresolved
  dsimp only at hresolved
  split at hresolved
  · next r hjoin =>
    cases hresolved
    obtain ⟨kept, hkept, hsublist⟩ := ids_of_joinElements hjoin
    rw [hkept]
    exact hsublist
  · cases hresolved

/-! ### The division of an export -/

theorem mem_drawnIds_iff {id : String} :
    id ∈ drawnIds timeline ↔ ∃ x ∈ timeline.elements, x.BelongsOnOverlay ∧ x.id = id := by
  simp only [drawnIds, classify, List.mem_map, List.mem_filter, decide_eq_true_eq,
    Element.canDraw_iff, Element.BelongsOnOverlay, and_assoc]

/-- **An element is drawn** if one with its id belongs on the overlay. -/
theorem mem_drawnElements_iff {y : Element Float} :
    y ∈ drawnElements timeline ↔
      y ∈ timeline.elements ∧ ∃ x ∈ timeline.elements, x.BelongsOnOverlay ∧ x.id = y.id := by
  rw [drawnElements, List.mem_filter, List.contains_iff_mem, mem_drawnIds_iff]

/-- The division of an export is right exactly if whatever shares an id with an element that belongs
on the overlay belongs there too. -/
theorem isDivided_iff :
    IsDivided timeline.elements (drawnElements timeline) (nativeElements timeline) ↔
      ∀ x ∈ timeline.elements, ∀ y ∈ timeline.elements, x.BelongsOnOverlay → y.id = x.id →
        y.BelongsOnOverlay := by
  constructor
  · intro hdivided x hx y hy hbelongs hid
    exact hdivided.belongs_of_drawn y (mem_drawnElements_iff.mpr ⟨hy, x, hx, hbelongs, hid.symm⟩)
  · intro hids
    refine isDivided_filter fun y hy => ?_
    rw [List.contains_iff_mem, mem_drawnIds_iff]
    constructor
    · rintro ⟨x, hx, hbelongs, hid⟩
      exact hids x hx y hy hbelongs hid.symm
    · exact fun hbelongs => ⟨y, hy, hbelongs, rfl⟩

/-- **The timeline of an export is divided rightly** exactly if no element that belongs on the
overlay shares its id with one that does not; and so it is if the request gives every element an id
of its own. -/
theorem divided_rightly_iff (hresolved : (resolution settings h e).1 = .ok (timeline, leases)) :
    (IsDivided timeline.elements (drawnElements timeline) (nativeElements timeline) ↔
      ∀ x ∈ timeline.elements, ∀ y ∈ timeline.elements, x.BelongsOnOverlay → y.id = x.id →
        y.BelongsOnOverlay) ∧
    ((e.request.clips.map (·.id)).Nodup →
      IsDivided timeline.elements (drawnElements timeline) (nativeElements timeline)) := by
  refine ⟨isDivided_iff, fun hnodup => isDivided_iff.mpr fun x hx y hy hbelongs hid => ?_⟩
  have hdistinct := (ids_of_resolution hresolved).nodup hnodup
  rw [List.inj_on_of_nodup_map hdistinct hy hx hid]
  exact hbelongs

/-- An export of a video with words over it. -/
def subtitled (video words : String) : Execution :=
  { job := { id := "job", durationMs := 1000, createdAt := 0 }
    request :=
      { clips := [.plain .video video "main" "c.mp4" 0 1000, .plain .text words "words" "" 0 1000]
        tracks := [{ id := "main" }, { id := "words" }] } }

/-- A host with the video. -/
def videoHost : Host :=
  { files := { nodes := [(["c.mp4"], .file { size := 5 })] }
    outside :=
      { probe := fun _ => .exited 0 "\x7b\"streams\":[\x7b\"codec_type\":\"video\"\x7d]\x7d" "" }
    storage := .directory ⟨["store"], "http://localhost"⟩ }

/-- The words are drawn and the video is not. -/
theorem subtitled_divided_rightly :
    ∃ timeline leases,
      (resolution {} videoHost (subtitled "video" "words")).1 = .ok (timeline, leases) ∧
      (drawnElements timeline).map (·.id) = ["words"] ∧
      (nativeElements timeline).map (·.id) = ["video"] ∧
      IsDivided timeline.elements (drawnElements timeline) (nativeElements timeline) := by
  have hlists : (resolution {} videoHost (subtitled "video" "words")).1.toOption.map
      (fun a => ((drawnElements a.1).map (·.id), (nativeElements a.1).map (·.id))) =
        some (["words"], ["video"]) := by
    decide +kernel
  obtain ⟨⟨timeline, leases⟩, hresolved⟩ :
      Succeeds (resolution {} videoHost (subtitled "video" "words")).1 :=
    .of_isOk (by decide +kernel)
  rw [hresolved] at hlists
  obtain ⟨hdrawn, hnative⟩ := Prod.mk.inj (Option.some.inj hlists)
  exact ⟨timeline, leases, hresolved, hdrawn, hnative,
    (divided_rightly_iff hresolved).2 (by decide)⟩

/-- **A video that has the id of its words** is drawn with them, though the timeline is valid. -/
theorem video_with_the_id_of_words_is_drawn :
    ∃ timeline leases,
      validate (subtitled "x" "x").request.clips (subtitled "x" "x").request.tracks
        (subtitled "x" "x").request.settings = .ok () ∧
      (resolution {} videoHost (subtitled "x" "x")).1 = .ok (timeline, leases) ∧
      (drawnElements timeline).map (·.kind) = [.video, .text] ∧
      ¬ IsDivided timeline.elements (drawnElements timeline) (nativeElements timeline) := by
  obtain ⟨_, hvalid⟩ : Succeeds (validate (subtitled "x" "x").request.clips
      (subtitled "x" "x").request.tracks (subtitled "x" "x").request.settings) :=
    .of_isOk (by decide +kernel)
  have hlists : (resolution {} videoHost (subtitled "x" "x")).1.toOption.map
      (fun a => (drawnElements a.1).map (·.kind)) = some [.video, .text] := by
    decide +kernel
  obtain ⟨⟨timeline, leases⟩, hresolved⟩ :
      Succeeds (resolution {} videoHost (subtitled "x" "x")).1 :=
    .of_isOk (by decide +kernel)
  rw [hresolved] at hlists
  have hdrawn : (drawnElements timeline).map (·.kind) = [.video, .text] := Option.some.inj hlists
  refine ⟨timeline, leases, hvalid, hresolved, hdrawn, ?_⟩
  intro hdivided
  have hkinds : ∀ kind ∈ (drawnElements timeline).map (·.kind), kind ≠ .video :=
    List.forall_mem_map.mpr fun e he => (hdivided.kind_of_drawn e he).1
  rw [hdrawn] at hkinds
  exact hkinds .video List.mem_cons_self rfl

end Execution

end TimelineExport
