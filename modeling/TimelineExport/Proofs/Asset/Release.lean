import TimelineExport.Proofs.Asset.Lease
import TimelineExport.Proofs.Asset.Resolve

/-!
# Giving leases back

A resolution that returns has taken one lease for each id whose source was acquired, and one that
fails has taken none. However often leases are given back and for whatever ids, at every time the
cache has lent what the table of leases still lists; and when all are given back, each source has
the leases that it had before the resolution (`resolution_balances_leases`).
-/

namespace TimelineExport

variable {α γ : Type}

/-! ### The table of leases -/

/-- Results whose ids differ are listed by id as they come. -/
theorem outcomesById_eq_zip {ids : List String} (hids : ids.Nodup)
    {results : List (Except AssetFault CachedAsset)} (hlength : ids.length ≤ results.length) :
    outcomesById ids results = ids.zip results := by
  suffices hfold : ∀ l out : SourceOutcomes, ((out ++ l).map (·.1)).Nodup →
      l.foldl (fun out r => setEntry out r.1 r.2) out = out ++ l by
    refine (hfold (ids.zip results) [] ?_).trans (List.nil_append _)
    rwa [List.nil_append, List.map_fst_zip hlength]
  intro l
  induction l with
  | nil => exact fun out _ => (List.append_nil out).symm
  | cons r l ih =>
    intro out hnames
    have hnew : ¬ out.any (·.1 = r.1) = true := by
      rw [List.map_append, List.map_cons, List.nodup_middle, List.nodup_cons] at hnames
      rw [List.any_eq_true]
      rintro ⟨q, hq, hname⟩
      exact hnames.1 (List.mem_append_left _
        (List.mem_map.mpr ⟨q, hq, of_decide_eq_true hname⟩))
    rw [List.append_cons] at hnames ⊢
    rw [List.foldl_cons, setEntry, if_neg hnew]
    exact ih _ hnames

theorem leasesOf_eq (outcomes : SourceOutcomes) :
    leasesOf outcomes = outcomes.filterMap fun o => (acquiredKey o.2).map (o.1, ·) := by
  unfold leasesOf acquiredKey
  refine List.filterMap_congr fun o _ => ?_
  cases o.2 <;> rfl

/-- Each id holds one lease at most. -/
theorem names_leasesOf (outcomes : SourceOutcomes) :
    ((leasesOf outcomes).map (·.1)).Sublist (outcomes.map (·.1)) := by
  rw [leasesOf_eq]
  induction outcomes with
  | nil => exact .slnil
  | cons o outcomes ih =>
    rw [List.filterMap_cons, List.map_cons]
    cases acquiredKey o.2 with
    | none => exact ih.cons o.1
    | some key => exact ih.cons_cons o.1

/-- The leases of a table, by source. -/
theorem keys_leasesOf (outcomes : SourceOutcomes) :
    (leasesOf outcomes).map (·.2) = (outcomes.map (·.2)).filterMap acquiredKey := by
  rw [leasesOf_eq, List.map_filterMap, List.filterMap_map]
  refine List.filterMap_congr fun o _ => ?_
  rw [Option.map_map]
  exact Option.map_id'

/-- The leases of one id, of all leases of a source. -/
theorem count_erase {leases : Leases} (hnames : (leases.map (·.1)).Nodup) {id key : String}
    (h : leases.lookup id = some key) (other : String) :
    (leases.map (·.2)).count other =
      ((leases.filter (·.1 ≠ id)).map (·.2)).count other + if key = other then 1 else 0 := by
  obtain ⟨first, last, rfl⟩ := List.append_of_mem (mem_of_lookup h)
  rw [List.map_append, List.map_cons, List.nodup_middle, List.nodup_cons, List.mem_append,
    not_or] at hnames
  obtain ⟨⟨hfirst, hlast⟩, -⟩ := hnames
  have hothers : ∀ others : Leases, id ∉ others.map (·.1) → others.filter (·.1 ≠ id) = others :=
    fun others hnone => List.filter_eq_self.mpr fun p hp =>
      decide_eq_true fun hid => hnone (hid ▸ List.mem_map_of_mem hp)
  rw [List.filter_append, List.filter_cons_of_neg (by simp), hothers first hfirst,
    hothers last hlast]
  simp only [List.map_append, List.map_cons, List.count_append, List.count_cons, beq_iff_eq]
  omega

/-! ### Giving back -/

/-- Whether a cache has lent, beyond what it had lent before, the leases of a table and no others.
-/
structure AssetCache.HasLent (before after : AssetCache) (leases : Leases) : Prop where
  keys : (after.entries.map (·.key)).Nodup
  counts : ∀ key, after.leaseCount key = before.leaseCount key + (leases.map (·.2)).count key

variable {before cache : AssetCache} {leases : Leases}

/-- **Giving back leases** takes them from the table and from the cache alike. -/
theorem AssetCache.HasLent.giveBack (h : before.HasLent cache leases)
    (hnames : (leases.map (·.1)).Nodup) (ids : List String) :
    before.HasLent (giveBack ids cache leases).1 (giveBack ids cache leases).2.1 ∧
      (giveBack ids cache leases).2.1.Sublist leases := by
  induction ids generalizing cache leases with
  | nil => exact ⟨h, .refl _⟩
  | cons id ids ih =>
    unfold TimelineExport.giveBack
    split
    · next key hkey =>
      -- The table lists the id once, so it loses one lease of the source, as the cache does.
      have hrest : before.HasLent (cache.release key) (leases.filter (·.1 ≠ id)) := by
        refine ⟨(AssetCache.alike_release cache key).nodup_iff.mpr h.keys, fun other => ?_⟩
        rw [AssetCache.leaseCount_release, h.counts, count_erase hnames hkey]
        omega
      obtain ⟨hlent, hsublist⟩ := ih hrest ((List.filter_sublist.map _).nodup hnames)
      exact ⟨hlent, hsublist.trans List.filter_sublist⟩
    · exact ⟨h, .refl _⟩

/-- **Ids that differ** give back their leases and no others. -/
theorem giveBack_of_nodup {ids : List String} (hids : ids.Nodup)
    (hheld : ∀ id ∈ ids, (leases.lookup id).isSome) (cache : AssetCache) :
    (giveBack ids cache leases).2 = (leases.filter (·.1 ∉ ids), none) := by
  induction ids generalizing cache leases with
  | nil => simp [giveBack]
  | cons id ids ih =>
    obtain ⟨hid, hids⟩ := List.nodup_cons.mp hids
    obtain ⟨hsome, hheld⟩ := List.forall_mem_cons.mp hheld
    obtain ⟨key, hkey⟩ := Option.isSome_iff_exists.mp hsome
    unfold giveBack
    rw [hkey]
    dsimp only
    have hrest : ∀ id' ∈ ids, ((leases.filter (·.1 ≠ id)).lookup id').isSome := by
      intro id' hmem
      rw [lookup_erase, if_neg (ne_of_mem_of_not_mem hmem hid)]
      exact hheld id' hmem
    rw [ih hids hrest, List.filter_filter]
    refine congrArg (·, none) (List.filter_congr fun p _ => ?_)
    simp only [List.mem_cons, not_or, ne_eq, Bool.decide_and, Bool.and_comm]

/-- **Giving back comes to its end** just for ids that differ and each hold a lease. -/
theorem giveBack_completes_iff {ids : List String} :
    (giveBack ids cache leases).2.2 = none ↔
      ids.Nodup ∧ ∀ id ∈ ids, (leases.lookup id).isSome := by
  induction ids generalizing cache leases with
  | nil => simp [giveBack]
  | cons id ids ih =>
    unfold giveBack
    rw [List.nodup_cons, List.forall_mem_cons]
    cases hkey : leases.lookup id with
    | none => simp
    | some key =>
      dsimp only
      -- Once its lease is given back, the id holds none, so it may not be listed again.
      have hlater : ∀ id' ∈ ids, ((leases.filter (·.1 ≠ id)).lookup id').isSome ↔
          id' ≠ id ∧ (leases.lookup id').isSome := by
        intro id' _
        rw [lookup_erase]
        split <;> simp [*]
      rw [ih, forall₂_congr hlater]
      constructor
      · rintro ⟨hids, hheld⟩
        exact ⟨⟨fun hid => (hheld id hid).1 rfl, hids⟩, rfl, fun id' hid => (hheld id' hid).2⟩
      · rintro ⟨⟨hid, hids⟩, -, hheld⟩
        exact ⟨hids, fun id' hmem => ⟨ne_of_mem_of_not_mem hmem hid, hheld id' hmem⟩⟩

/-- A call for some ids comes to its end just when it lists no id twice that holds a lease. -/
theorem releaseLeases_completes_iff (cache : AssetCache) (leases : Leases) (ids : List String) :
    (releaseLeases cache leases (some ids)).2.2 = none ↔
      (ids.filter fun id => (leases.lookup id).isSome).Nodup := by
  unfold releaseLeases
  rw [giveBack_completes_iff]
  exact and_iff_left fun id hid => (List.mem_filter.mp hid).2

/-- Giving back the leases of a set of ids. -/
theorem releaseLeases_some {ids : List String} (hids : ids.Nodup) (cache : AssetCache)
    (leases : Leases) :
    (releaseLeases cache leases (some ids)).2 = (leases.filter (·.1 ∉ ids), none) := by
  unfold releaseLeases
  dsimp only
  rw [giveBack_of_nodup (hids.filter _) fun id hid => (List.mem_filter.mp hid).2]
  refine congrArg (·, none) (List.filter_congr fun p hp => ?_)
  have hsome : (leases.lookup p.1).isSome :=
    (isSome_lookup_iff leases).mpr (List.any_eq_true.mpr ⟨p, hp, decide_eq_true rfl⟩)
  rw [decide_eq_decide, List.mem_filter, and_iff_left hsome]

/-- Giving back all leases. -/
theorem releaseLeases_none (hnames : (leases.map (·.1)).Nodup) (cache : AssetCache) :
    (releaseLeases cache leases none).2 = ([], none) := by
  unfold releaseLeases
  dsimp only
  rw [giveBack_of_nodup hnames fun id hid => ?_]
  · exact congrArg (·, none) (List.filter_eq_nil_iff.mpr fun p hp => by
      simpa using ⟨p.2, hp⟩)
  · obtain ⟨p, hp, rfl⟩ := List.mem_map.mp hid
    exact (isSome_lookup_iff leases).mpr (List.any_eq_true.mpr ⟨p, hp, decide_eq_true rfl⟩)

/-- A cache and a table of leases after some calls that give leases back, each for some ids or for
all. A call that stops at an id has given back what came before it. -/
def releaseCalls (calls : List (Option (List String))) (cache : AssetCache) (leases : Leases) :
    AssetCache × Leases :=
  calls.foldl (fun held ids =>
    ((releaseLeases held.1 held.2 ids).1, (releaseLeases held.1 held.2 ids).2.1)) (cache, leases)

theorem AssetCache.HasLent.releaseLeases (h : before.HasLent cache leases)
    (hnames : (leases.map (·.1)).Nodup) (ids : Option (List String)) :
    before.HasLent (releaseLeases cache leases ids).1 (releaseLeases cache leases ids).2.1 ∧
      (releaseLeases cache leases ids).2.1.Sublist leases :=
  h.giveBack hnames _

/-- **After any calls** a cache has lent what is left in the table. -/
theorem AssetCache.HasLent.releaseCalls (h : before.HasLent cache leases)
    (hnames : (leases.map (·.1)).Nodup) (calls : List (Option (List String))) :
    before.HasLent (releaseCalls calls cache leases).1 (releaseCalls calls cache leases).2 ∧
      (releaseCalls calls cache leases).2.Sublist leases := by
  induction calls generalizing cache leases with
  | nil => exact ⟨h, .refl _⟩
  | cons ids calls ih =>
    obtain ⟨hlent, hsublist⟩ := h.releaseLeases hnames ids
    obtain ⟨hlent', hsublist'⟩ := ih hlent ((hsublist.map _).nodup hnames)
    exact ⟨hlent', hsublist'.trans hsublist⟩

/-! ### Leases of a resolution -/

section
variable {elements : List (Element α)} {s : CacheScene γ} {events : List (CacheEvent γ)}
  {results : List (Except AssetFault CachedAsset)}

/-- The ids of the elements that have a source are among the ids of all elements. -/
theorem idsOf_sublist (elements : List (Element α)) :
    (idsOf elements).Sublist (elements.map (·.id)) := by
  induction elements with
  | nil => exact .slnil
  | cons e elements ih =>
    unfold idsOf
    cases hsource : e.usedSource with
    | none =>
      rw [pendingSources_cons_of_none hsource]
      exact ih.cons e.id
    | some source =>
      rw [pendingSources_cons_of_some hsource]
      exact ih.cons_cons e.id

/-- The results of an acquisition are listed by id as they come. -/
theorem outcomesById_idsOf (hids : (idsOf elements).Nodup)
    (hlength : (sourcesOf elements).length = results.length) :
    outcomesById (idsOf elements) results = (idsOf elements).zip results := by
  refine outcomesById_eq_zip hids (le_of_eq ?_)
  rw [← hlength, idsOf, sourcesOf, List.length_map, List.length_map]

/-- **An acquisition lends** the leases that its results hold. -/
theorem CacheScene.GathersAlone.hasLent (h : s.GathersAlone (sourcesOf elements) events results)
    (hkeys : (s.cache.entries.map (·.key)).Nodup) (hids : (idsOf elements).Nodup) :
    s.cache.HasLent (s.vacated.run events).cache
      (leasesOf (outcomesById (idsOf elements) results)) := by
  have hlength := (h.forall₂_acquiredKey hkeys).length_eq
  refine ⟨(h.lends hkeys).1.keys, fun key => ?_⟩
  rw [h.leaseCount_run hkeys, keys_leasesOf, outcomesById_idsOf hids hlength, List.map_snd_zip]
  rw [← hlength, idsOf, sourcesOf, List.length_map, List.length_map]

/-- **The ids that hold a lease** are those of the elements whose source was acquired, and hold a
lease of that source. -/
theorem CacheScene.GathersAlone.mem_leasesOf_iff
    (h : s.GathersAlone (sourcesOf elements) events results)
    (hkeys : (s.cache.entries.map (·.key)).Nodup) (hids : (idsOf elements).Nodup)
    {id key : String} :
    (id, key) ∈ leasesOf (outcomesById (idsOf elements) results) ↔
      ∃ asset, ((id, key), .ok asset) ∈ (pendingSources elements).zip results := by
  have hown := h.forall₂_acquiredKey hkeys
  rw [leasesOf_eq, outcomesById_idsOf hids hown.length_eq, idsOf, List.zip_map_left,
    List.filterMap_map, List.mem_filterMap]
  obtain ⟨-, hown⟩ := List.forall₂_iff_zip.mp (List.forall₂_map_left_iff.mp hown)
  constructor
  · rintro ⟨⟨⟨id', key'⟩, result⟩, hmem, hlease⟩
    obtain ⟨k, hk, hlease⟩ := Option.map_eq_some_iff.mp hlease
    cases result with
    | error fault => cases hk
    | ok asset =>
      cases hlease
      have hkey := hown hmem _ hk
      cases hk
      subst hkey
      exact ⟨asset, hmem⟩
  · rintro ⟨asset, hmem⟩
    refine ⟨_, hmem, ?_⟩
    rw [Function.comp_apply, Option.map_eq_some_iff]
    exact ⟨asset.key, rfl, congrArg (id, ·) (hown hmem asset.key rfl)⟩

/-- What holds of the leases that a resolution has taken: of the table, and of what calls leave of
it, whichever ids they give back. -/
structure AreBalanced (before after : AssetCache) (elements : List (Element α))
    (results : List (Except AssetFault CachedAsset)) (leases : Leases) : Prop where
  lent : before.HasLent after leases
  /-- Each id holds one lease at most. -/
  names : (leases.map (·.1)).Nodup
  /-- The ids that hold a lease are those of the elements whose source was acquired. -/
  holders : ∀ id key, (id, key) ∈ leases ↔
    ∃ asset, ((id, key), .ok asset) ∈ (pendingSources elements).zip results
  /-- After any calls the cache has lent what these have left in the table. -/
  left : ∀ calls cache rest, releaseCalls calls after leases = (cache, rest) →
    before.HasLent cache rest ∧ rest.Sublist leases
  /-- A further call for a set of ids gives back the leases of these ids. -/
  given : ∀ calls cache rest, releaseCalls calls after leases = (cache, rest) →
    ∀ ids, ids.Nodup → (releaseLeases cache rest (some ids)).2 = (rest.filter (·.1 ∉ ids), none)
  /-- A further call is cut short just when it lists an id twice that holds a lease. -/
  completes : ∀ calls cache rest, releaseCalls calls after leases = (cache, rest) →
    ∀ ids, (releaseLeases cache rest (some ids)).2.2 = none ↔
      (ids.filter fun id => (rest.lookup id).isSome).Nodup
  /-- A last call for all ids gives back everything that was taken, and nothing else. -/
  ended : ∀ calls cache rest, releaseCalls calls after leases = (cache, rest) →
    (releaseLeases cache rest none).2 = ([], none) ∧
      before.HasLent (releaseLeases cache rest none).1 []

theorem AreBalanced.of_hasLent {after : AssetCache} (hlent : before.HasLent after leases)
    (hnames : (leases.map (·.1)).Nodup)
    (hholders : ∀ id key, (id, key) ∈ leases ↔
      ∃ asset, ((id, key), .ok asset) ∈ (pendingSources elements).zip results) :
    AreBalanced before after elements results leases where
  lent := hlent
  names := hnames
  holders := hholders
  left calls cache rest h := by
    have hleft := hlent.releaseCalls hnames calls
    rwa [h] at hleft
  given calls cache rest _ ids hids := releaseLeases_some hids cache rest
  completes calls cache rest _ ids := releaseLeases_completes_iff cache rest ids
  ended calls cache rest h := by
    obtain ⟨hlent', hsublist⟩ := hlent.releaseCalls hnames calls
    rw [h] at hlent' hsublist
    have hnames' := (hsublist.map (·.1)).nodup hnames
    have hnone := releaseLeases_none hnames' cache
    obtain ⟨hended, -⟩ := hlent'.releaseLeases hnames' none
    rw [hnone] at hended
    exact ⟨hnone, hended⟩

/-- What a resolution does to the leases of a cache: if it returns, its leases are balanced, and if
it fails, none are left. -/
def BalancesLeases (before : AssetCache) (elements : List (Element α))
    (results : List (Except AssetFault CachedAsset))
    (answer : Except AssetFault (ResolvedTimeline α × Leases)) (after : AssetCache) : Prop :=
  match answer with
  | .ok (_, leases) => AreBalanced before after elements results leases
  | .error _ => before.HasLent after []

/-- **Concluding a resolution** balances the leases of its acquisition. -/
theorem balancesLeases_concludeResolution
    (h : s.GathersAlone (sourcesOf elements) events results)
    (hkeys : (s.cache.entries.map (·.key)).Nodup) (hids : (idsOf elements).Nodup)
    (policy : AssetPolicy) :
    BalancesLeases s.cache elements results
      (concludeResolution policy elements results (s.vacated.run events)).1
      (concludeResolution policy elements results (s.vacated.run events)).2.cache := by
  have hlent := h.hasLent hkeys hids
  have hnames : ((leasesOf (outcomesById (idsOf elements) results)).map (·.1)).Nodup := by
    refine (names_leasesOf _).nodup ?_
    have hlength := (h.forall₂_acquiredKey hkeys).length_eq
    rw [outcomesById_idsOf hids hlength, List.map_fst_zip]
    · exact hids
    · rw [← hlength, idsOf, sourcesOf, List.length_map, List.length_map]
  unfold concludeResolution
  dsimp only
  split
  · exact .of_hasLent hlent hnames fun _ _ => h.mem_leasesOf_iff hkeys hids
  · obtain ⟨hended, -⟩ := hlent.releaseLeases hnames none
    rw [releaseLeases_none hnames] at hended
    exact hended

/-- **A resolution of elements whose ids differ balances its leases**, whatever entries the cache
holds and however the loads of the sources end: if it returns, the leases of each source have grown
by the number of ids that hold one, these are the ids of the elements whose source was acquired, and
calls that give leases back take exactly those from the cache that they take from the table; if it
fails, every source has the leases that it had. -/
theorem resolution_balances_leases [FileContent γ] {elements : List (Element α)}
    (hids : (elements.map (·.id)).Nodup) {s : CacheScene γ}
    (hkeys : (s.cache.entries.map (·.key)).Nodup) (policy : AssetPolicy) :
    (∀ events results, s.GathersAlone (sourcesOf elements) events results →
      BalancesLeases s.cache elements results
        (concludeResolution policy elements results (s.vacated.run events)).1
        (concludeResolution policy elements results (s.vacated.run events)).2.cache) ∧
    ∀ options o, ∃ events results, s.GathersAlone (sourcesOf elements) events results ∧
      BalancesLeases s.cache elements results (resolveTimeline options policy elements s o).1
        (resolveTimeline options policy elements s o).2.1.cache := by
  have hown : (idsOf elements).Nodup := (idsOf_sublist elements).nodup hids
  refine ⟨fun events results h => balancesLeases_concludeResolution h hkeys hown policy,
    fun options o => ?_⟩
  obtain ⟨events, results, hgathers, rest, heq⟩ := exists_run_resolveTimeline elements hkeys options
    policy (P := fun _ => True) (fun _ _ _ _ _ h => h) (o := o) trivial
  refine ⟨events, results, hgathers.gathersAlone, ?_⟩
  rw [heq]
  exact balancesLeases_concludeResolution hgathers.gathersAlone hkeys hown policy

end

/-- Two elements that show one picture, and one whose picture is missing. -/
def sharedPicture : List (Element Rat) :=
  [.plain .image "a" "main" "a.png" 0 1000, .plain .image "b" "main" "a.png" 1000 2000,
    .plain .image "c" "main" "c.png" 2000 3000]

/-- The picture that is shared has a lease for each of its elements. -/
theorem shared_picture_balances_leases :
    (sharedPicture.map (·.id)).Nodup ∧ (withPictures.cache.entries.map (·.key)).Nodup ∧
    ∃ r leases rest, resolveLocally .lenient sharedPicture = (.ok (r, leases), rest) ∧
      leases = [("a", "a.png"), ("b", "a.png")] ∧ rest.1.cache.leaseCount "a.png" = 2 ∧
      ∃ events results, withPictures.GathersAlone (sourcesOf sharedPicture) events results ∧
        AreBalanced withPictures.cache rest.1.cache sharedPicture results leases := by
  have hids : (sharedPicture.map (·.id)).Nodup := by decide
  have hkeys : (withPictures.cache.entries.map (·.key)).Nodup := List.nodup_nil
  have hleases : (resolveLocally .lenient sharedPicture).1.toOption.map (·.2) =
      some [("a", "a.png"), ("b", "a.png")] := by
    decide +kernel
  have hcount : (resolveLocally .lenient sharedPicture).2.1.cache.leaseCount "a.png" = 2 := by
    decide +kernel
  obtain ⟨events, results, hgathers, hbalances⟩ :=
    (resolution_balances_leases hids hkeys .lenient).2
      { retries := { attempts := 1, baseDelay := 0, jitter := fun _ => 0 } }
      { probe := fun _ => .timedOut }
  obtain ⟨⟨r, leases⟩, hr⟩ : Succeeds (resolveLocally .lenient sharedPicture).1 :=
    .of_isOk (by decide +kernel)
  rw [resolveLocally] at hr hcount hleases ⊢
  rw [hr] at hbalances hleases
  exact ⟨hids, hkeys, r, leases, _, Prod.ext hr rfl, Option.some.inj hleases, hcount, events,
    results, hgathers, hbalances⟩

end TimelineExport
