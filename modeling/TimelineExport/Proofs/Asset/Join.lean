import TimelineExport.Proofs.Asset.Gather
import TimelineExport.Proofs.Lookup
import TimelineExport.Proofs.Outcome

/-!
# Joining results to elements

The results of a resolution are joined to the elements by id, and the last result of an id counts
(`lookup_outcomesById`). So each element is joined to its own result, whatever the results are,
exactly if the elements that have a source have ids of their own (`hasOwnIds_iff`).
-/

namespace TimelineExport

variable {α : Type}

/-! ### Results by id -/

theorem lookup_setEntry {β : Type} (entries : List (String × β)) (name other : String) (value : β) :
    (setEntry entries name value).lookup other =
      if other = name then some value else entries.lookup other :=
  lookup_set value entries

/-- **The last result** of an id counts. -/
theorem lookup_outcomesById (ids : List String) (results : List (Except AssetFault CachedAsset))
    (id : String) :
    (outcomesById ids results).lookup id = (ids.zip results).reverse.lookup id := by
  suffices hfold : ∀ (l : SourceOutcomes) (out : SourceOutcomes),
      (l.foldl (fun out r => setEntry out r.1 r.2) out).lookup id =
        (l.reverse.lookup id).or (out.lookup id) by
    rw [outcomesById, hfold, List.lookup_nil, Option.or_none]
  intro l
  induction l with
  | nil => exact fun out => rfl
  | cons r l ih =>
    intro out
    rw [List.foldl_cons, ih, lookup_setEntry, List.reverse_cons, List.lookup_append, Option.or_assoc]
    by_cases hid : id = r.1
    · rw [if_pos hid, hid, List.lookup_cons_self, Option.some_or]
    · have hne : (id == r.1) = false := beq_false_of_ne hid
      rw [if_neg hid, List.lookup_cons, hne, List.lookup_nil, Option.none_or]

theorem mem_of_lookup_outcomesById {ids : List String}
    {results : List (Except AssetFault CachedAsset)} {id : String}
    {result : Except AssetFault CachedAsset}
    (h : (outcomesById ids results).lookup id = some result) : result ∈ results := by
  rw [lookup_outcomesById] at h
  exact (List.of_mem_zip (List.mem_reverse.mp (mem_of_lookup h))).2

/-! ### Elements that have a source -/

theorem pendingSources_cons_of_none {e : Element α} (h : e.usedSource = none)
    (elements : List (Element α)) : pendingSources (e :: elements) = pendingSources elements :=
  List.filterMap_cons_none (by rw [h]; rfl)

theorem pendingSources_cons_of_some {e : Element α} {source : String}
    (h : e.usedSource = some source) (elements : List (Element α)) :
    pendingSources (e :: elements) = (e.id, source) :: pendingSources elements :=
  List.filterMap_cons_some (by rw [h]; rfl)

/-- The ids of the elements that have a source, in the order of the elements. -/
def idsOf (elements : List (Element α)) : List String := (pendingSources elements).map (·.1)

/-- The sources of the elements that have one. -/
def sourcesOf (elements : List (Element α)) : List String := (pendingSources elements).map (·.2)

/-- Whether no element that has a source shares its id with another element. -/
structure HasOwnIds (elements : List (Element α)) : Prop where
  /-- No two elements that have a source share an id. -/
  nodup : (idsOf elements).Nodup
  /-- No element without a source has one of their ids. -/
  apart : ∀ e ∈ elements, e.usedSource = none → e.id ∉ idsOf elements

instance (elements : List (Element α)) : Decidable (HasOwnIds elements) :=
  decidable_of_iff
    ((idsOf elements).Nodup ∧ ∀ e ∈ elements, e.usedSource = none → e.id ∉ idsOf elements)
    ⟨fun h => ⟨h.1, h.2⟩, fun h => ⟨h.nodup, h.apart⟩⟩

/-- Under the id of an element that has a source is the result of that element. -/
theorem HasOwnIds.forall₂_lookup {elements : List (Element α)} (h : HasOwnIds elements)
    {results : List (Except AssetFault CachedAsset)}
    (hlength : (pendingSources elements).length = results.length) :
    List.Forall₂ (fun p result => (outcomesById (idsOf elements) results).lookup p.1 = some result)
      (pendingSources elements) results := by
  have hnames : (((idsOf elements).zip results).reverse.map (·.1)).Nodup := by
    rw [List.map_reverse, List.map_fst_zip (by rw [idsOf, List.length_map, hlength])]
    exact List.nodup_reverse.mpr h.nodup
  refine List.forall₂_iff_zip.mpr ⟨hlength, fun {p result} hmem => ?_⟩
  rw [lookup_outcomesById]
  refine lookup_of_mem (p := (p.1, result)) hnames (List.mem_reverse.mpr ?_)
  rw [idsOf, List.zip_map_left]
  exact List.mem_map_of_mem (f := Prod.map (·.1) id) hmem

/-- Under the id of an element that has no source is nothing. -/
theorem HasOwnIds.lookup_eq_none {elements : List (Element α)} (h : HasOwnIds elements)
    (results : List (Except AssetFault CachedAsset)) {e : Element α} (he : e ∈ elements)
    (hsource : e.usedSource = none) :
    (outcomesById (idsOf elements) results).lookup e.id = none := by
  rw [lookup_outcomesById]
  refine List.lookup_eq_none_iff.mpr fun p hp => bne_iff_ne.mpr fun heq => ?_
  exact h.apart e he hsource (heq ▸ (List.of_mem_zip (List.mem_reverse.mp hp)).1)

/-! ### Elements joined to their own results -/

/-- The elements that are kept and the ids of those that are dropped, when each element is joined
to what became of its own source. The results are those of the elements that have a source. -/
inductive JoinsOwn (path? : String → Option String) : List (Element α) →
    List (Except AssetFault CachedAsset) → List (Element α) → List String → Prop
  | nil : JoinsOwn path? [] [] [] []
  | unchanged {e : Element α} {es results kept dropped} (hsource : e.usedSource = none)
    (hrest : JoinsOwn path? es results kept dropped) :
    JoinsOwn path? (e :: es) results (e :: kept) dropped
  | resolved {e : Element α} {es results kept dropped} {source : String} {asset : CachedAsset}
    (hsource : e.usedSource = some source) (hkey : asset.key = source)
    (hpath : path? source = some asset.path) (hrest : JoinsOwn path? es results kept dropped) :
    JoinsOwn path? (e :: es) (.ok asset :: results)
      ({ e with source := some asset.path } :: kept) dropped
  | dropped {e : Element α} {es results kept dropped} {source : String} {fault : AssetFault}
    (hsource : e.usedSource = some source) (hfault : fault.resolution?.isSome)
    (hrest : JoinsOwn path? es results kept dropped) :
    JoinsOwn path? (e :: es) (.error fault :: results) kept (e.id :: dropped)

section
variable {path? : String → Option String} {elements kept : List (Element α)}
  {results : List (Except AssetFault CachedAsset)} {dropped : List String} {e : Element α}

/-- Every element is either kept or dropped. -/
theorem JoinsOwn.length_add_length (h : JoinsOwn path? elements results kept dropped) :
    kept.length + dropped.length = elements.length := by
  induction h with
  | nil => rfl
  | unchanged _ _ ih | resolved _ _ _ _ ih | dropped _ _ _ ih =>
    simp only [List.length_cons]
    omega

/-- Elements without a source are kept. -/
theorem JoinsOwn.mem_kept (h : JoinsOwn path? elements results kept dropped) (he : e ∈ elements)
    (hsource : e.usedSource = none) : e ∈ kept := by
  induction h with
  | nil => exact he
  | unchanged _ _ ih =>
    obtain rfl | he := List.mem_cons.mp he
    · exact List.mem_cons_self
    · exact List.mem_cons_of_mem _ (ih he)
  | resolved hsource' _ _ _ ih =>
    obtain rfl | he := List.mem_cons.mp he
    · cases hsource.symm.trans hsource'
    · exact List.mem_cons_of_mem _ (ih he)
  | dropped hsource' _ _ ih =>
    obtain rfl | he := List.mem_cons.mp he
    · cases hsource.symm.trans hsource'
    · exact ih he

/-- An element whose own source was acquired is kept. -/
theorem JoinsOwn.exists_kept (h : JoinsOwn path? elements results kept dropped)
    {p : String × String} {asset : CachedAsset}
    (hp : (p, .ok asset) ∈ (pendingSources elements).zip results) : ∃ e ∈ kept, e.id = p.1 := by
  induction h with
  | nil => cases hp
  | @unchanged e es results kept dropped hsource _ ih =>
    rw [pendingSources_cons_of_none hsource] at hp
    obtain ⟨e', he', hid⟩ := ih hp
    exact ⟨e', List.mem_cons_of_mem _ he', hid⟩
  | @resolved e es results kept dropped source asset hsource _ _ _ ih =>
    rw [pendingSources_cons_of_some hsource, List.zip_cons_cons] at hp
    obtain heq | hp := List.mem_cons.mp hp
    · cases heq
      exact ⟨_, List.mem_cons_self, rfl⟩
    · obtain ⟨e', he', hid⟩ := ih hp
      exact ⟨e', List.mem_cons_of_mem _ he', hid⟩
  | @dropped e es results kept dropped source fault hsource _ _ ih =>
    rw [pendingSources_cons_of_some hsource, List.zip_cons_cons] at hp
    obtain heq | hp := List.mem_cons.mp hp
    · cases heq
    · exact ih hp

end

/-! ### Joining -/

/-- **Joining the results** joins each element to its own if its id leads there. -/
theorem exists_joinsOwn {policy : AssetPolicy} {outcomes : SourceOutcomes}
    {path? : String → Option String} {elements : List (Element α)}
    {results : List (Except AssetFault CachedAsset)}
    (hresults : List.Forall₂ (fun p => IsResultOf path? p.2) (pendingSources elements) results)
    (hlookup : List.Forall₂ (fun p result => outcomes.lookup p.1 = some result)
      (pendingSources elements) results)
    (hnone : ∀ e ∈ elements, e.usedSource = none → outcomes.lookup e.id = none)
    {r r' : ResolvedTimeline α} (h : elements.foldlM (joinElement policy outcomes) r = .ok r') :
    ∃ kept dropped, r'.elements = r.elements ++ kept ∧ r'.dropped = r.dropped ++ dropped ∧
      JoinsOwn path? elements results kept dropped := by
  induction elements generalizing results r with
  | nil =>
    cases h
    cases hresults
    exact ⟨[], [], (List.append_nil _).symm, (List.append_nil _).symm, .nil⟩
  | cons e elements ih =>
    obtain ⟨hnone, hnones⟩ := List.forall_mem_cons.mp hnone
    rw [List.foldlM_cons] at h
    obtain ⟨r₁, hjoin, h⟩ := bind_eq_ok.mp h
    unfold joinElement at hjoin
    cases hsource : e.usedSource with
    | none =>
      rw [hnone hsource] at hjoin
      cases hjoin
      rw [pendingSources_cons_of_none hsource] at hresults hlookup
      obtain ⟨kept, dropped, hkept, hdropped, hjoins⟩ := ih hresults hlookup hnones h
      exact ⟨e :: kept, dropped, by rw [hkept, List.append_assoc, List.singleton_append], hdropped,
        .unchanged hsource hjoins⟩
    | some source =>
      rw [pendingSources_cons_of_some hsource] at hresults hlookup
      obtain ⟨result, results, hown, hrest, rfl⟩ := List.forall₂_cons_left_iff.mp hresults
      obtain ⟨hfound, hlookups⟩ := List.forall₂_cons.mp hlookup
      rw [hfound] at hjoin
      cases result with
      | ok asset =>
        cases hjoin
        obtain ⟨kept, dropped, hkept, hdropped, hjoins⟩ := ih hrest hlookups hnones h
        obtain ⟨hkey, hpath⟩ := hown asset rfl
        exact ⟨_, dropped, by rw [hkept, List.append_assoc, List.singleton_append], hdropped,
          .resolved hsource hkey hpath hjoins⟩
      | error fault =>
        dsimp only at hjoin
        split at hjoin
        · next hfault h =>
          cases hjoin
          obtain ⟨kept, dropped, hkept, hdropped, hjoins⟩ := ih hrest hlookups hnones h
          exact ⟨kept, e.id :: dropped, hkept,
            by rw [hdropped, List.append_assoc, List.singleton_append],
            .dropped hsource (Option.isSome_of_eq_some hfault) hjoins⟩
        · cases hjoin

/-- **An element that is kept** is as it was if nothing is found under its id, and otherwise shows
the file of what is found there. -/
theorem of_mem_joinElements {policy : AssetPolicy} {outcomes : SourceOutcomes}
    {elements : List (Element α)} {r r' : ResolvedTimeline α}
    (h : elements.foldlM (joinElement policy outcomes) r = .ok r') {e' : Element α}
    (he' : e' ∈ r'.elements) :
    e' ∈ r.elements ∨ ∃ e ∈ elements, e'.id = e.id ∧
      (outcomes.lookup e.id = none ∧ e' = e ∨
        ∃ asset, outcomes.lookup e.id = some (.ok asset) ∧ e'.source = some asset.path) := by
  induction elements generalizing r with
  | nil =>
    cases h
    exact .inl he'
  | cons e elements ih =>
    rw [List.foldlM_cons] at h
    obtain ⟨r₁, hjoin, h⟩ := bind_eq_ok.mp h
    obtain he' | ⟨e₀, he₀, hkept⟩ := ih h
    · unfold joinElement at hjoin
      split at hjoin
      · next hnone =>
        cases hjoin
        obtain he' | he' := List.mem_append.mp he'
        · exact .inl he'
        · rw [List.mem_singleton.mp he']
          exact .inr ⟨e, List.mem_cons_self, rfl, .inl ⟨hnone, rfl⟩⟩
      · next asset hfound =>
        cases hjoin
        obtain he' | he' := List.mem_append.mp he'
        · exact .inl he'
        · rw [List.mem_singleton.mp he']
          exact .inr ⟨e, List.mem_cons_self, rfl, .inr ⟨asset, hfound, rfl⟩⟩
      · split at hjoin
        · cases hjoin
          exact .inl he'
        · cases hjoin
    · exact .inr ⟨e₀, List.mem_cons_of_mem _ he₀, hkept⟩

/-- Elements can be dropped for failures of resolution, so a lenient resolution returns if there are
no other failures. -/
theorem succeeds_joinElements {outcomes : SourceOutcomes}
    (h : ∀ id fault, outcomes.lookup id = some (.error fault) → fault.resolution?.isSome)
    (elements : List (Element α)) (r : ResolvedTimeline α) :
    Succeeds (elements.foldlM (joinElement .lenient outcomes) r) := by
  induction elements generalizing r with
  | nil => exact ⟨r, rfl⟩
  | cons e elements ih =>
    have hjoin : Succeeds (joinElement .lenient outcomes r e) := by
      unfold joinElement
      split
      · exact ⟨_, rfl⟩
      · exact ⟨_, rfl⟩
      · next fault hfound =>
        obtain ⟨error, herror⟩ := Option.isSome_iff_exists.mp (h _ _ hfound)
        rw [herror]
        exact ⟨_, rfl⟩
    rw [List.foldlM_cons]
    exact hjoin.bind fun r₁ _ => ih r₁

/-! ### Whatever the results are -/

/-- Whether each element is joined to its own result, whatever the results are. -/
def JoinsOwnAlways (elements : List (Element α)) : Prop :=
  ∀ (path? : String → Option String) (results : List (Except AssetFault CachedAsset))
    (policy : AssetPolicy) (r : ResolvedTimeline α),
    List.Forall₂ (IsResultOf path?) (sourcesOf elements) results →
    joinElements policy (outcomesById (idsOf elements) results) elements = .ok r →
    JoinsOwn path? elements results r.elements r.dropped

section
variable {elements : List (Element α)} {e : Element α}

private theorem forall₂_map_map {β δ ε : Type} {R : δ → ε → Prop} {f : β → δ} {g : β → ε}
    {l : List β} (h : ∀ x, R (f x) (g x)) : List.Forall₂ R (l.map f) (l.map g) :=
  List.forall₂_map_left_iff.mpr (List.forall₂_map_right_iff.mpr
    (List.forall₂_same.mpr fun x _ => h x))

/-- An element without a source would be given the file of its id. -/
theorem JoinsOwnAlways.not_mem_idsOf (h : JoinsOwnAlways elements) (he : e ∈ elements)
    (hsource : e.usedSource = none) : e.id ∉ idsOf elements := by
  intro hmem
  -- Every source is acquired under one path, which is not the source of the element.
  let path := e.source.getD "" ++ "x"
  have hpath : e.source ≠ some path := by
    intro heq
    have hlength := congrArg String.length (congrArg (·.getD "") heq)
    simp [path] at hlength
  let found (key : String) : Except AssetFault CachedAsset :=
    .ok { key, path, size := 0, owned := false }
  let results := (sourcesOf elements).map found
  have hresults : List.Forall₂ (IsResultOf fun _ => some path) (sourcesOf elements) results := by
    refine List.forall₂_map_right_iff.mpr (List.forall₂_same.mpr fun key _ asset hasset => ?_)
    cases hasset
    exact ⟨rfl, rfl⟩
  have hfound : ∀ id result, (outcomesById (idsOf elements) results).lookup id = some result →
      ∃ key, result = found key := by
    intro id result hlookup
    obtain ⟨key, -, heq⟩ := List.mem_map.mp (mem_of_lookup_outcomesById hlookup)
    exact ⟨key, heq.symm⟩
  obtain ⟨r, hr⟩ := succeeds_joinElements (fun id fault hlookup => by
    obtain ⟨key, heq⟩ := hfound id _ hlookup
    cases heq) elements {}
  have hkept := (h _ results .lenient r hresults hr).mem_kept he hsource
  obtain hkept | ⟨e₀, -, hid, ⟨hnone, -⟩ | ⟨asset, hasset, heq⟩⟩ := of_mem_joinElements hr hkept
  · cases hkept
  · rw [← hid, lookup_outcomesById, List.lookup_eq_none_iff] at hnone
    have hlength : (idsOf elements).length ≤ results.length := by
      simp [idsOf, results, sourcesOf]
    rw [← List.map_fst_zip hlength] at hmem
    obtain ⟨p, hp, hid⟩ := List.mem_map.mp hmem
    exact bne_iff_ne.mp (hnone p (List.mem_reverse.mpr hp)) hid.symm
  · obtain ⟨key, hkey⟩ := hfound _ _ hasset
    cases hkey
    exact hpath heq

/-- Of two sources with one id, the first one would not count. -/
theorem JoinsOwnAlways.ne_of_sublist (h : JoinsOwnAlways elements) {p p' : String × String}
    (hsublist : [p, p'].Sublist (pendingSources elements)) : p.1 ≠ p'.1 := by
  intro hid
  obtain ⟨before, after, hpending, hp, hp'⟩ := List.cons_sublist_iff.mp hsublist
  rw [List.singleton_sublist] at hp'
  -- Everything up to the first one is acquired, and all the rest is not.
  let asset (key : String) : CachedAsset := { key, path := key, size := 0, owned := false }
  let fault : AssetFault := .resolution (.asset p.2 "file not found")
  let results : List (Except AssetFault CachedAsset) :=
    before.map (fun q => .ok (asset q.2)) ++ after.map fun _ => .error fault
  have hresults : List.Forall₂ (IsResultOf some) (sourcesOf elements) results := by
    rw [sourcesOf, hpending, List.map_append]
    refine List.rel_append (forall₂_map_map fun q _ hasset => ?_)
      (forall₂_map_map fun q _ hasset => nomatch hasset)
    cases hasset
    exact ⟨rfl, rfl⟩
  have hlookup : (outcomesById (idsOf elements) results).lookup p.1 = some (.error fault) := by
    let rest : SourceOutcomes := after.map fun q => (q.1, .error fault)
    have hlast : rest.reverse.lookup p.1 = some (.error fault) := by
      refine lookup_eq_some_of_forall ?_ fun q hq => ?_
      · rw [List.map_reverse, List.mem_reverse, hid]
        exact List.mem_map.mpr ⟨(p'.1, .error fault), List.mem_map.mpr ⟨p', hp', rfl⟩, rfl⟩
      · obtain ⟨q, -, rfl⟩ := List.mem_map.mp (List.mem_reverse.mp hq)
        rfl
    rw [lookup_outcomesById, idsOf, hpending, List.map_append, List.zip_append (by simp),
      List.reverse_append, List.lookup_append, List.zip_map', hlast, Option.some_or]
  have hfaults : ∀ id fault', (outcomesById (idsOf elements) results).lookup id =
      some (.error fault') → fault'.resolution?.isSome := by
    intro id fault' hfault
    obtain hmem | hmem := List.mem_append.mp (mem_of_lookup_outcomesById hfault)
    · obtain ⟨_, -, heq⟩ := List.mem_map.mp hmem
      cases heq
    · obtain ⟨_, -, heq⟩ := List.mem_map.mp hmem
      cases heq
      rfl
  obtain ⟨r, hr⟩ := succeeds_joinElements hfaults elements {}
  have hown : (p, .ok (asset p.2)) ∈ (pendingSources elements).zip results := by
    rw [hpending, List.zip_append (by simp), ← List.map_prod_left_eq_zip]
    exact List.mem_append_left _ (List.mem_map_of_mem hp)
  obtain ⟨e, hkept, he⟩ := (h _ results .lenient r hresults hr).exists_kept hown
  obtain hkept | ⟨e₀, -, heq, ⟨hnone, -⟩ | ⟨_, hasset, -⟩⟩ := of_mem_joinElements hr hkept
  · cases hkept
  · rw [← heq, he, hlookup] at hnone
    cases hnone
  · rw [← heq, he, hlookup] at hasset
    cases hasset

/-- **Elements are joined to their own results** whatever these are, exactly if no element that has
a source shares its id. -/
theorem hasOwnIds_iff : HasOwnIds elements ↔ JoinsOwnAlways elements := by
  refine ⟨fun hids path? results policy r hresults h => ?_, fun h => ⟨?_, ?_⟩⟩
  · have hown := List.forall₂_map_left_iff.mp hresults
    obtain ⟨kept, dropped, hkept, hdropped, hjoins⟩ := exists_joinsOwn hown
      (hids.forall₂_lookup hown.length_eq) (fun _ => hids.lookup_eq_none results) h
    rw [List.nil_append] at hkept hdropped
    exact hkept ▸ hdropped ▸ hjoins
  · exact List.pairwise_map.mpr (List.pairwise_iff_forall_sublist.mpr h.ne_of_sublist)
  · exact fun e he hsource => h.not_mem_idsOf he hsource

end

end TimelineExport
