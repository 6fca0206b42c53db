import TimelineExport.Proofs.Asset.Join
import TimelineExport.Proofs.Timeline.Accepted

/-!
# What a resolution joins to an element

As long as no element that has a source shares its id with another element, a resolution joins each
element to what became of its own source, however the acquisitions interleave and whatever files,
network and probe program do (`resolution_joins_own`). The results are joined by id, and the last
one of an id counts; so two pictures with one id both show the file of the second one, though
validation accepts them (`pictures_with_one_id_show_one_file`).
-/

namespace TimelineExport

variable {α γ : Type}

/-- A list on which a partial function has values is mapped to these. -/
theorem map_eq_map_some_filterMap {β δ : Type} {f : β → Option δ} {l : List β}
    (h : ∀ x ∈ l, ∃ y, f x = some y) : l.map f = (l.filterMap f).map some := by
  induction l with
  | nil => rfl
  | cons x l ih =>
    obtain ⟨⟨y, hy⟩, h⟩ := List.forall_mem_cons.mp h
    rw [List.map_cons, List.filterMap_cons_some hy, List.map_cons, hy, ih h]

/-- **A resolution that returns** has joined each element to its own result, if no element that has
a source shares its id. -/
theorem joinsOwn_of_concludeResolution {elements : List (Element α)} (hids : HasOwnIds elements)
    {path? : String → Option String} {results : List (Except AssetFault CachedAsset)}
    (hresults : List.Forall₂ (IsResultOf path?) (sourcesOf elements) results)
    {policy : AssetPolicy} {s s' : CacheScene γ} {r : ResolvedTimeline α} {leases : Leases}
    (h : concludeResolution policy elements results s = (.ok (r, leases), s')) :
    JoinsOwn path? elements results r.elements r.dropped := by
  unfold concludeResolution at h
  dsimp only at h
  split at h
  · next r' hjoin =>
    cases h
    exact hasOwnIds_iff.mp hids path? results policy r hresults hjoin
  · cases h

/-- An acquisition of the sources of a timeline that nobody else takes part in. Those of elements that
may have sound are probed, and every loader finds what is outside in some condition. -/
structure CacheScene.GathersFor [FileContent γ] (s : CacheScene γ) (options : LoadOptions)
    (P : Outside γ → Prop) (elements : List (Element α)) (events : List (CacheEvent γ))
    (results : List (Except AssetFault CachedAsset)) : Prop where
  probes : ∀ event ∈ events,
    s.cache.Probes (sourcesOf elements) (probedSources elements) options P event
  results : (List.range (sourcesOf elements).length).map (s.vacated.run events).result? =
    results.map some

theorem CacheScene.GathersFor.gathersUnder [FileContent γ] {s : CacheScene γ}
    {options : LoadOptions} {P : Outside γ → Prop} {elements : List (Element α)}
    {events : List (CacheEvent γ)} {results : List (Except AssetFault CachedAsset)}
    (h : s.GathersFor options P elements events results) :
    s.GathersUnder options P (sourcesOf elements) events results :=
  ⟨fun event hevent => (h.probes event hevent).loads, h.results⟩

/-- **Resolving a timeline one source after another** is a way to resolve it side by side, in which
the same sources are probed. What is outside is in the same condition at every load if loading
leaves it so. -/
theorem exists_gathersFor_resolveTimeline [FileContent γ] (elements : List (Element α))
    {s : CacheScene γ} (hkeys : (s.cache.entries.map (·.key)).Nodup) (options : LoadOptions)
    (policy : AssetPolicy) {P : Outside γ → Prop}
    (hP : ∀ files probed key target o, P o → P (loadSource options files probed key target o).2)
    {o : Outside γ} (ho : P o) :
    ∃ events results, s.GathersFor options P elements events results ∧
      ∃ rest, resolveTimeline options policy elements s o =
        ((concludeResolution policy elements results (s.vacated.run events)).1,
          (concludeResolution policy elements results (s.vacated.run events)).2, rest) := by
  let ids := List.range (sourcesOf elements).length
  have hids : (ids.zip (sourcesOf elements)).map (·.1) = ids :=
    List.map_fst_zip List.length_range.le
  have hsources : ∀ p ∈ ids.zip (sourcesOf elements), (sourcesOf elements)[p.1]? = some p.2 := by
    intro p hp
    obtain ⟨i, hi, rfl⟩ := List.mem_iff_getElem.mp hp
    have hi : i < (sourcesOf elements).length := by
      rw [List.length_zip, List.length_range, min_self] at hi
      exact hi
    rw [List.getElem_zip, List.getElem_range]
    exact List.getElem?_eq_getElem hi
  have hnodup : ([] ++ (ids.zip (sourcesOf elements)).map (·.1) : List Nat).Nodup := by
    rw [List.nil_append, hids]
    exact List.nodup_range
  obtain ⟨events, hrun, hevents, hserved⟩ := CacheScene.exists_run_acquireInOrder options
    (probedSources elements) hP hsources hnodup
    (CacheScene.sound_of_callers_eq_nil (s := s.vacated) hkeys rfl) rfl
    ⟨rfl, fun _ hc => absurd hc List.not_mem_nil⟩ ho
  rw [List.nil_append, hids] at hserved
  refine ⟨events, ids.filterMap (s.vacated.run events).result?, ⟨hevents, ?_⟩, ?_⟩
  · exact map_eq_map_some_filterMap fun id hid => hserved.exists_result hid
  · have hresolve : resolveTimeline options policy elements s o =
        let acquired := acquireInOrder options (probedSources elements)
          (ids.zip (sourcesOf elements)) s.vacated o
        let concluded := concludeResolution policy elements
          (ids.filterMap acquired.1.result?) acquired.1
        (concluded.1, concluded.2, acquired.2) := rfl
    rw [hresolve]
    dsimp only
    rw [hrun]
    exact ⟨_, rfl⟩

/-- The same, without saying which sources are probed. -/
theorem exists_run_resolveTimeline [FileContent γ] (elements : List (Element α))
    {s : CacheScene γ} (hkeys : (s.cache.entries.map (·.key)).Nodup) (options : LoadOptions)
    (policy : AssetPolicy) {P : Outside γ → Prop}
    (hP : ∀ files probed key target o, P o → P (loadSource options files probed key target o).2)
    {o : Outside γ} (ho : P o) :
    ∃ events results, s.GathersUnder options P (sourcesOf elements) events results ∧
      ∃ rest, resolveTimeline options policy elements s o =
        ((concludeResolution policy elements results (s.vacated.run events)).1,
          (concludeResolution policy elements results (s.vacated.run events)).2, rest) := by
  obtain ⟨events, results, hgathers, rest, heq⟩ :=
    exists_gathersFor_resolveTimeline elements hkeys options policy hP ho
  exact ⟨events, results, hgathers.gathersUnder, rest, heq⟩

/-- A resolution of a timeline one source after another gathers the results of its sources. -/
theorem exists_gathers_of_resolveTimeline [FileContent γ] (elements : List (Element α))
    {s : CacheScene γ} (hcache : s.cache.IsFaithful) (options : LoadOptions) (policy : AssetPolicy)
    (o : Outside γ) :
    ∃ events results, s.Gathers (sourcesOf elements) events results ∧
      (resolveTimeline options policy elements s o).1 =
        (concludeResolution policy elements results (s.vacated.run events)).1 := by
  obtain ⟨events, results, hgathers, rest, heq⟩ := exists_run_resolveTimeline elements
    hcache.keys options policy (P := fun _ => True) (fun _ _ _ _ _ h => h) (o := o) trivial
  exact ⟨events, results, hgathers.gathers, congrArg (·.1) heq⟩

/-- **Each element is joined to its own source**, however the acquisitions interleave and whatever
the loaders find, as long as no element that has a source shares its id. Resolving one source after
another is one way to resolve them side by side. -/
theorem resolution_joins_own [FileContent γ] {elements : List (Element α)}
    (hids : HasOwnIds elements) {s : CacheScene γ} (hcache : s.cache.IsFaithful)
    (policy : AssetPolicy) :
    (∀ events results, s.Gathers (sourcesOf elements) events results → ∀ r leases s',
      concludeResolution policy elements results (s.vacated.run events) = (.ok (r, leases), s') →
        JoinsOwn s.cache.localPath? elements results r.elements r.dropped) ∧
    ∀ options o r leases rest,
      resolveTimeline options policy elements s o = (.ok (r, leases), rest) →
        ∃ events results, s.Gathers (sourcesOf elements) events results ∧
          JoinsOwn s.cache.localPath? elements results r.elements r.dropped := by
  have hjoins : ∀ events results, s.Gathers (sourcesOf elements) events results → ∀ r leases s',
      concludeResolution policy elements results (s.vacated.run events) = (.ok (r, leases), s') →
        JoinsOwn s.cache.localPath? elements results r.elements r.dropped :=
    fun events results hgathers r leases s' h =>
      joinsOwn_of_concludeResolution hids (hgathers.forall₂_isResultOf hcache) h
  refine ⟨hjoins, fun options o r leases rest h => ?_⟩
  obtain ⟨events, results, hgathers, hresolve⟩ :=
    exists_gathers_of_resolveTimeline elements hcache options policy o
  rw [h] at hresolve
  exact ⟨events, results, hgathers,
    hjoins events results hgathers r leases _ (Prod.ext hresolve.symm rfl)⟩

/-- A directory with two pictures, and a cache without entries. -/
def withPictures : CacheScene (List UInt8) :=
  { cache := { directory := "cache" }
    files := { nodes := [(["a.png"], .file [1]), (["b.png"], .file [2, 3])] } }

/-- A resolution of local files, which asks nobody outside. -/
def resolveLocally (policy : AssetPolicy) (elements : List (Element Rat)) :=
  resolveTimeline { retries := { attempts := 1, baseDelay := 0, jitter := fun _ => 0 } } policy
    elements withPictures { probe := fun _ => .timedOut }

/-- A picture by its address, words and a picture that is missing. -/
def pictureAndWords : List (Element Rat) :=
  [.plain .image "a" "main" "file:///a%2Epng" 0 1000, .plain .caption "words" "main" "" 0 1000,
    .plain .image "c" "main" "c.png" 1000 2000]

/-- The picture is found, the words are kept and the missing picture is dropped. -/
theorem picture_and_words_join_own :
    HasOwnIds pictureAndWords ∧ withPictures.cache.IsFaithful ∧
    ∃ r leases rest, resolveLocally .lenient pictureAndWords = (.ok (r, leases), rest) ∧
      r.elements.map (·.source) = [some "/a.png", some ""] ∧ r.dropped = ["c"] ∧
      ∃ events results, withPictures.Gathers (sourcesOf pictureAndWords) events results ∧
        JoinsOwn withPictures.cache.localPath? pictureAndWords results r.elements r.dropped := by
  have hids : HasOwnIds pictureAndWords := by decide +kernel
  have hcache : withPictures.cache.IsFaithful := AssetCache.isFaithful_of_entries_eq_nil rfl
  have hanswer : (resolveLocally .lenient pictureAndWords).1.toOption.map
      (fun a => (a.1.elements.map (·.source), a.1.dropped)) =
        some ([some "/a.png", some ""], ["c"]) := by
    decide +kernel
  obtain ⟨⟨r, leases⟩, hr⟩ : Succeeds (resolveLocally .lenient pictureAndWords).1 :=
    .of_isOk (by decide +kernel)
  rw [hr] at hanswer
  obtain ⟨hsources, hdropped⟩ := Prod.mk.inj (Option.some.inj hanswer)
  have hresolve : resolveLocally .lenient pictureAndWords =
      (.ok (r, leases), (resolveLocally .lenient pictureAndWords).2) :=
    Prod.ext hr rfl
  exact ⟨hids, hcache, r, leases, _, hresolve, hsources, hdropped,
    (resolution_joins_own hids hcache .lenient).2 _ _ r leases _ hresolve⟩

/-- Two pictures with one id, one after another. -/
def picturesWithOneId : List (Element Rat) :=
  [.plain .image "x" "main" "a.png" 0 1000, .plain .image "x" "main" "b.png" 1000 2000]

/-- **Two pictures with one id** both show the file of the second one, though the timeline is
valid. -/
theorem pictures_with_one_id_show_one_file :
    ∃ r leases rest, validate picturesWithOneId [{ id := "main" }] {} = .ok () ∧
      resolveLocally .strict picturesWithOneId = (.ok (r, leases), rest) ∧
      r.elements.map (·.source) = [some "b.png", some "b.png"] ∧
      ∀ results, ¬ JoinsOwn withPictures.cache.localPath? picturesWithOneId results r.elements
        r.dropped := by
  have haccepted : Accepted picturesWithOneId [{ id := "main" }] {} :=
    .of_pairwise (List.cons_ne_nil _ _) (by decide +kernel) (by decide +kernel)
      (by decide +kernel)
  have hanswer : (resolveLocally .strict picturesWithOneId).1.toOption.map
      (fun a => a.1.elements.map (·.source)) = some [some "b.png", some "b.png"] := by
    decide +kernel
  obtain ⟨⟨r, leases⟩, hr⟩ : Succeeds (resolveLocally .strict picturesWithOneId).1 :=
    .of_isOk (by decide +kernel)
  rw [hr] at hanswer
  have hsources : r.elements.map (·.source) = [some "b.png", some "b.png"] :=
    Option.some.inj hanswer
  refine ⟨r, leases, _, (validate_eq_ok_iff _ _ _).mpr haccepted, Prod.ext hr rfl, hsources, ?_⟩
  intro results hjoins
  have hlength := hjoins.length_add_length
  have hkept := congrArg List.length hsources
  generalize r.elements = kept, r.dropped = dropped at hjoins hlength hkept hsources
  rw [List.length_map] at hkept
  cases hjoins with
  | unchanged hsource => exact absurd hsource (by decide +kernel)
  | resolved hsource _ hpath =>
    cases (Option.some.inj hsource : "a.png" = _)
    have hfile := Option.some.inj (List.cons.inj hsources).1
    rw [hfile] at hpath
    exact absurd hpath (by decide +kernel)
  | dropped =>
    rw [hkept, List.length_cons] at hlength
    simp [picturesWithOneId] at hlength

end TimelineExport
