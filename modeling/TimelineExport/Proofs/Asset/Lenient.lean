import TimelineExport.Proofs.Asset.Fetch
import TimelineExport.Proofs.Asset.Lease
import TimelineExport.Proofs.Asset.Resolve

/-!
# What a lenient resolution loses

As long as what is outside is as usual, a lenient resolution returns exactly if every source can be
asked for, and then it drops the elements whose own source was not resolved, each with a warning,
and no others (`lenient_resolution_returns_iff`). A single source that cannot be asked for ends it,
though, and costs the other elements too (`unreadable_host_ends_lenient_resolution`).
-/

namespace TimelineExport

variable {α γ : Type}

/-! ### Results of an acquisition -/

theorem isFetchable_of_pathFor_eq_error {urls : UrlLibrary} {c : AssetCache} {source : String} {fault : UrlFault}
    (h : c.pathFor source = .error fault) : isFetchable urls source = false := by
  unfold isFetchable
  cases hurl : SourceUrl.read source with
  | error fault => rfl
  | ok url =>
    unfold AssetCache.pathFor at h
    rw [hurl] at h
    cases h

namespace CacheScene

variable {s s' : CacheScene γ} {event : CacheEvent γ} {keys : List String} {options : LoadOptions}
  {urls : UrlLibrary}

/-- What is true while sources are acquired and what is outside is as usual: a caller whose source
can be asked for has its asset or an unresolved source, and any other one has another fault. -/
structure Sorts (urls : UrlLibrary) (keys : List String) (s : CacheScene γ) : Prop where
  entries : ∀ e ∈ s.cache.entries, isFetchable urls e.key = true
  sources : ∀ c ∈ s.callers, keys[c.id]? = some c.key
  results : ∀ c ∈ s.callers, ∀ result, c.state = .done result →
    (isFetchable urls c.key = true ↔ IsJoinable result)

/-- **A step** answers callers by what their sources are. -/
theorem Sorts.of_grants [FileContent γ] (h : s.Sorts urls keys) (hsound : s.Sound) {cache : AssetCache}
    (hpositive : 1 ≤ options.retries.attempts)
    (hattempts : options.retries.attempts ≤ maxDoublings + 2)
    (hevent : cache.Loads keys options (Outside.IsUsual urls) event) (hgrants : s.Grants event s') :
    s'.Sorts urls keys := by
  cases hgrants with
  | idle => exact h
  | @arrive id key harrive =>
    subst harrive
    exact ⟨h.entries, List.forall_mem_append.mpr ⟨h.sources, List.forall_mem_singleton.mpr hevent⟩,
      List.forall_mem_append.mpr ⟨h.results, List.forall_mem_singleton.mpr fun _ hstate =>
        nomatch hstate⟩⟩
  | @answer t c state hc hnone hcallers hcount hentries hok herror =>
    have hids : (t.callers.map (·.id)).Nodup := hcallers ▸ hsound.ids
    have hmem : ∀ o ∈ (t.setCaller c.id state).callers, o ∈ s.callers ∨ o = { c with state } :=
      fun o ho => (of_mem_setCaller hids (hcallers ▸ hc) ho).imp_left (hcallers ▸ ·)
    have hload : ∀ outcome, event = .finish c.id outcome →
        (isFetchable urls c.key = true ↔ IsJoinable outcome) := by
      rintro outcome rfl
      obtain ⟨key, target, hkey, -, files, probed, o, ho, rfl⟩ := hevent
      cases hkey.symm.trans (h.sources c hc)
      exact (loadSource_spec hpositive hattempts ho files probed c.key target).1
    have hfetched : ∀ loaded, event = .finish c.id (.ok loaded) → isFetchable urls c.key = true :=
      fun loaded hfinish => (hload _ hfinish).mpr (isJoinable_ok loaded)
    have hentries' : ∀ e ∈ t.cache.entries, isFetchable urls e.key = true := by
      intro e he
      obtain ⟨e₀, he₀, hkey⟩ | ⟨hkey, loaded, hfinish⟩ := hentries e he
      · exact hkey ▸ h.entries e₀ he₀
      · exact hkey ▸ hfetched loaded hfinish
    refine ⟨hentries', fun o ho => ?_, fun o ho result hstate => ?_⟩
    · obtain ho | rfl := hmem o ho
      · exact h.sources o ho
      · exact h.sources c hc
    · obtain ho | rfl := hmem o ho
      · exact h.results o ho result hstate
      · cases result with
        | ok asset =>
          obtain ⟨hmem, hkey⟩ := AssetCache.of_entry?_eq_some (hok asset hstate)
          exact iff_of_true (hkey ▸ hentries' asset hmem) (isJoinable_ok asset)
        | error fault =>
          rw [isJoinable_error_iff]
          cases herror fault hstate with
          | noPath hpath =>
            exact iff_of_false (Bool.eq_false_iff.mp (isFetchable_of_pathFor_eq_error hpath))
              Bool.false_ne_true
          | notLoaded hfinish => exact (hload _ hfinish).trans isJoinable_error_iff
          | refused hfinish => exact iff_of_true (hfetched _ hfinish) rfl

/-- **Each result** of an acquisition tells whether the source of its place can be asked for. -/
theorem GathersUnder.forall₂_isJoinable [FileContent γ] {events : List (CacheEvent γ)}
    {results : List (Except AssetFault CachedAsset)}
    (h : s.GathersUnder options (Outside.IsUsual urls) keys events results)
    (hpositive : 1 ≤ options.retries.attempts)
    (hattempts : options.retries.attempts ≤ maxDoublings + 2)
    (hkeys : (s.cache.entries.map (·.key)).Nodup)
    (hentries : ∀ e ∈ s.cache.entries, isFetchable urls e.key = true) :
    List.Forall₂ (fun key result => isFetchable urls key = true ↔ IsJoinable result) keys results := by
  have hstart : s.vacated.Sorts urls keys :=
    ⟨hentries, fun c hc => absurd hc List.not_mem_nil, fun c hc => absurd hc List.not_mem_nil⟩
  have hsound : s.vacated.Sound := sound_of_callers_eq_nil hkeys rfl
  obtain ⟨-, hsorts⟩ := hsound.run_grants (P := Sorts urls keys)
    h.gathersAlone.own (fun event hevent _ _ hsound hgrants h' =>
      h'.of_grants hsound hpositive hattempts (h.loads event hevent) hgrants) hstart
  exact forall₂_of_result? h.results hsorts.sources hsorts.results

end CacheScene

/-! ### Elements that are dropped -/

/-- Why a source was not resolved, if it was not. -/
def failure? : Except AssetFault CachedAsset → Option ExportError
  | .ok _ => none
  | .error fault => fault.resolution?

/-- The elements whose own source was not resolved, with the reasons. The results are those of the
elements that have a source. -/
def failures (elements : List (Element α)) (results : List (Except AssetFault CachedAsset)) :
    List (Element α × ExportError) :=
  ((elements.filter (·.usedSource.isSome)).zip results).filterMap fun p =>
    (failure? p.2).map (p.1, ·)

/-- What a reader is told about an element that was dropped. -/
def dropWarning (e : Element α) (error : ExportError) : String :=
  "Dropped " ++ e.kind.name ++ " element " ++ e.id ++ ": " ++ error.message

section
variable {elements kept : List (Element α)} {e : Element α} {dropped : List String}
  {results : List (Except AssetFault CachedAsset)} {result : Except AssetFault CachedAsset}
  {path? : String → Option String}

theorem failures_cons_of_none (h : e.usedSource = none) :
    failures (e :: elements) results = failures elements results := by
  unfold failures
  rw [List.filter_cons_of_neg (by rw [h]; exact Bool.false_ne_true)]

theorem failures_cons_of_some {source : String} (h : e.usedSource = some source) :
    failures (e :: elements) (result :: results) =
      ((failure? result).map (e, ·)).toList ++ failures elements results := by
  unfold failures
  rw [List.filter_cons_of_pos (by rw [h]; rfl), List.zip_cons_cons, List.filterMap_cons]
  cases failure? result <;> rfl

/-- **Elements are dropped with a warning** if their own source was not resolved, and only then. -/
theorem joinElements_failures {outcomes : SourceOutcomes} {policy : AssetPolicy}
    (hlookup : List.Forall₂ (fun p result => outcomes.lookup p.1 = some result)
      (pendingSources elements) results)
    (hnone : ∀ e ∈ elements, e.usedSource = none → outcomes.lookup e.id = none)
    {r r' : ResolvedTimeline α} (h : elements.foldlM (joinElement policy outcomes) r = .ok r') :
    r'.dropped = r.dropped ++ (failures elements results).map (·.1.id) ∧
      r'.warnings = r.warnings ++ (failures elements results).map fun f => dropWarning f.1 f.2 := by
  induction elements generalizing results r with
  | nil =>
    cases h
    exact ⟨(List.append_nil _).symm, (List.append_nil _).symm⟩
  | cons e elements ih =>
    obtain ⟨hnone, hnones⟩ := List.forall_mem_cons.mp hnone
    rw [List.foldlM_cons] at h
    obtain ⟨r₁, hjoin, h⟩ := bind_eq_ok.mp h
    unfold joinElement at hjoin
    cases hsource : e.usedSource with
    | none =>
      rw [hnone hsource] at hjoin
      cases hjoin
      rw [pendingSources_cons_of_none hsource] at hlookup
      rw [failures_cons_of_none hsource]
      obtain ⟨hdropped, hwarnings⟩ := ih hlookup hnones h
      exact ⟨hdropped, hwarnings⟩
    | some source =>
      rw [pendingSources_cons_of_some hsource] at hlookup
      obtain ⟨result, results, hfound, hlookups, rfl⟩ := List.forall₂_cons_left_iff.mp hlookup
      rw [failures_cons_of_some hsource]
      dsimp only at hfound
      rw [hfound] at hjoin
      cases result with
      | ok asset =>
        cases hjoin
        obtain ⟨hdropped, hwarnings⟩ := ih hlookups hnones h
        exact ⟨hdropped, hwarnings⟩
      | error fault =>
        dsimp only at hjoin
        split at hjoin
        · next error herror h =>
          cases hjoin
          obtain ⟨hdropped, hwarnings⟩ := ih hlookups hnones h
          have hfailure : failure? (.error fault) = some error := herror
          rw [hdropped, hwarnings, hfailure]
          simp only [Option.map_some, Option.toList_some, List.map_append, List.map_cons,
            List.map_nil, List.append_assoc]
          exact ⟨trivial, rfl⟩
        · cases hjoin

theorem JoinsOwn.isJoinable (h : JoinsOwn path? elements results kept dropped) :
    ∀ result ∈ results, IsJoinable result := by
  induction h with
  | nil => exact fun _ hresult => absurd hresult List.not_mem_nil
  | unchanged _ _ ih => exact ih
  | resolved _ _ _ _ ih => exact List.forall_mem_cons.mpr ⟨isJoinable_ok _, ih⟩
  | dropped _ hfault _ ih => exact List.forall_mem_cons.mpr ⟨isJoinable_error_iff.mpr hfault, ih⟩

/-- What is left when each element is joined to its own source, and those whose source was not
resolved are dropped, each with a warning. -/
structure LosesOwn (path? : String → Option String) (elements : List (Element α))
    (results : List (Except AssetFault CachedAsset)) (r : ResolvedTimeline α) : Prop where
  joins : JoinsOwn path? elements results r.elements r.dropped
  dropped : r.dropped = (failures elements results).map (·.1.id)
  warnings : r.warnings = (failures elements results).map fun f => dropWarning f.1 f.2

variable {s : CacheScene γ}

/-- A lenient resolution returns if all its results can be joined, and only then. -/
theorem succeeds_concludeResolution_iff (hids : HasOwnIds elements)
    (hresults : List.Forall₂ (IsResultOf path?) (sourcesOf elements) results) :
    Succeeds (concludeResolution .lenient elements results s).1 ↔
      ∀ result ∈ results, IsJoinable result := by
  constructor
  · rintro ⟨⟨r, leases⟩, hr⟩
    exact (joinsOwn_of_concludeResolution hids hresults (Prod.ext hr rfl)).isJoinable
  · intro hjoinable
    let outcomes := outcomesById (idsOf elements) results
    obtain ⟨r, hr⟩ : Succeeds (joinElements .lenient outcomes elements) :=
      succeeds_joinElements (fun id fault hlookup =>
        hjoinable _ (mem_of_lookup_outcomesById hlookup) fault rfl) elements {}
    refine ⟨(r, leasesOf outcomes), ?_⟩
    unfold concludeResolution
    dsimp only
    rw [← idsOf, hr]

/-- **What a lenient resolution that returns has lost** are the elements whose own source was not
resolved. -/
theorem losesOwn_of_concludeResolution (hids : HasOwnIds elements)
    (hresults : List.Forall₂ (IsResultOf path?) (sourcesOf elements) results)
    {policy : AssetPolicy} {r : ResolvedTimeline α} {leases : Leases} {s' : CacheScene γ}
    (h : concludeResolution policy elements results s = (.ok (r, leases), s')) :
    LosesOwn path? elements results r := by
  have hjoins := joinsOwn_of_concludeResolution hids hresults h
  have hlength := (List.forall₂_map_left_iff.mp hresults).length_eq
  unfold concludeResolution at h
  dsimp only at h
  split at h
  · next r' hjoin =>
    cases h
    obtain ⟨hdropped, hwarnings⟩ := joinElements_failures (hids.forall₂_lookup hlength)
      (fun _ => hids.lookup_eq_none results) hjoin
    exact ⟨hjoins, hdropped, hwarnings⟩
  · cases h

/-- What a lenient resolution answers: it returns if every source can be asked for, and only then,
and what it has lost then are the elements whose own source was not resolved. -/
structure ResolvesLeniently (urls : UrlLibrary) (path? : String → Option String) (elements : List (Element α))
    (results : List (Except AssetFault CachedAsset))
    (answer : Except AssetFault (ResolvedTimeline α × Leases)) : Prop where
  returns : Succeeds answer ↔ ∀ source ∈ sourcesOf elements, isFetchable urls source = true
  loses : ∀ r leases, answer = .ok (r, leases) → LosesOwn path? elements results r

theorem resolvesLeniently_concludeResolution [FileContent γ] {urls : UrlLibrary}
    {options : LoadOptions}
    {events : List (CacheEvent γ)}
    (h : s.GathersUnder options (Outside.IsUsual urls) (sourcesOf elements) events results)
    (hids : HasOwnIds elements) (hcache : s.cache.IsFaithful)
    (hentries : ∀ e ∈ s.cache.entries, isFetchable urls e.key = true)
    (hpositive : 1 ≤ options.retries.attempts)
    (hattempts : options.retries.attempts ≤ maxDoublings + 2) :
    ResolvesLeniently urls s.cache.localPath? elements results
      (concludeResolution .lenient elements results (s.vacated.run events)).1 := by
  have hown := h.gathers.forall₂_isResultOf hcache
  have hsorted := h.forall₂_isJoinable hpositive hattempts hcache.keys hentries
  refine ⟨?_, fun r leases hr => losesOwn_of_concludeResolution hids hown (Prod.ext hr rfl)⟩
  rw [succeeds_concludeResolution_iff hids hown, forall_mem_iff_of_forall₂ hsorted]

end

/-- **A lenient resolution returns exactly if every source can be asked for**, however the
acquisitions interleave, and whatever files, network and probe program do as long as what is outside
is as usual; and then it has lost the elements whose own source was not resolved, and no others.
The ids of the elements that have a source are their own, and there is at least one attempt at a
download, and not so many that the wait between two of them is no number. -/
theorem lenient_resolution_returns_iff [FileContent γ] {elements : List (Element α)}
    (hids : HasOwnIds elements) {s : CacheScene γ} (hcache : s.cache.IsFaithful)
    {urls : UrlLibrary} (hentries : ∀ e ∈ s.cache.entries, isFetchable urls e.key = true)
    {options : LoadOptions} (hpositive : 1 ≤ options.retries.attempts)
    (hattempts : options.retries.attempts ≤ maxDoublings + 2) :
    (∀ events results,
      s.GathersUnder options (Outside.IsUsual urls) (sourcesOf elements) events results →
        ResolvesLeniently urls s.cache.localPath? elements results
          (concludeResolution .lenient elements results (s.vacated.run events)).1) ∧
    ∀ o, o.IsUsual urls → ∃ events results,
      s.GathersUnder options (Outside.IsUsual urls) (sourcesOf elements) events results ∧
        ResolvesLeniently urls s.cache.localPath? elements results
          (resolveTimeline options .lenient elements s o).1 := by
  refine ⟨fun events results h =>
    resolvesLeniently_concludeResolution h hids hcache hentries hpositive hattempts,
    fun o ho => ?_⟩
  obtain ⟨events, results, h, rest, heq⟩ := exists_run_resolveTimeline elements hcache.keys options
    .lenient (P := Outside.IsUsual urls) (fun files probed key target o ho =>
      (loadSource_spec hpositive hattempts ho files probed key target).2) ho
  refine ⟨events, results, h, ?_⟩
  rw [heq]
  exact resolvesLeniently_concludeResolution h hids hcache hentries hpositive hattempts

/-- A network where nothing is found, and a probe program that takes too long, are as usual. -/
theorem isUsual_timedOut : ({ probe := fun _ => .timedOut } : Outside γ).IsUsual .standard where
  reads := rfl
  network := Network.IsDirect.settles fun _ hscript => absurd hscript List.not_mem_nil
  probe _ _ h := ⟨_, (Except.error.inj h).symm⟩

/-- A missing picture is lost, and nothing else. -/
theorem missing_picture_is_lost :
    HasOwnIds pictureAndWords ∧ withPictures.cache.IsFaithful ∧
    (∀ e ∈ withPictures.cache.entries, isFetchable .standard e.key = true) ∧
    (∀ source ∈ sourcesOf pictureAndWords, isFetchable .standard source = true) ∧
    ∃ r leases rest, resolveLocally .lenient pictureAndWords = (.ok (r, leases), rest) ∧
      r.warnings =
        ["Dropped image element c: Asset could not be resolved: c.png (file not found)"] ∧
      ∃ results, LosesOwn withPictures.cache.localPath? pictureAndWords results r := by
  have hids : HasOwnIds pictureAndWords := by decide +kernel
  have hcache : withPictures.cache.IsFaithful := AssetCache.isFaithful_of_entries_eq_nil rfl
  have hentries : ∀ e ∈ withPictures.cache.entries, isFetchable .standard e.key = true :=
    fun _ he => absurd he List.not_mem_nil
  have hsources : ∀ source ∈ sourcesOf pictureAndWords, isFetchable .standard source = true := by
    decide +kernel
  let options : LoadOptions :=
    { retries := { attempts := 1, baseDelay := 0, jitter := fun _ => 0 } }
  have hpositive : 1 ≤ options.retries.attempts := Int.le_refl 1
  have hattempts : options.retries.attempts ≤ maxDoublings + 2 := by decide
  have hanswer : (resolveLocally .lenient pictureAndWords).1.toOption.map (·.1.warnings) =
      some ["Dropped image element c: Asset could not be resolved: c.png (file not found)"] := by
    decide +kernel
  obtain ⟨-, results, -, hresolves⟩ := (lenient_resolution_returns_iff hids hcache hentries
    hpositive hattempts).2 _ isUsual_timedOut
  obtain ⟨⟨r, leases⟩, hr⟩ := hresolves.returns.mpr hsources
  have hresolve : resolveLocally .lenient pictureAndWords =
      (.ok (r, leases), (resolveLocally .lenient pictureAndWords).2) := Prod.ext hr rfl
  rw [hresolve] at hanswer
  exact ⟨hids, hcache, hentries, hsources, r, leases, _, hresolve, Option.some.inj hanswer, results,
    hresolves.loses r leases hr⟩

/-- A picture, and one at an address whose host lacks a bracket. -/
def unreadableHost : List (Element Rat) :=
  [.plain .image "a" "main" "a.png" 0 1000,
    .plain .image "x" "main" "http://[::1/x.png" 1000 2000]

/-- **A source whose host makes no sense** ends a lenient resolution, though only one element needs
it and nothing else is wrong. -/
theorem unreadable_host_ends_lenient_resolution :
    HasOwnIds unreadableHost ∧ validate unreadableHost [{ id := "main" }] {} = .ok () ∧
    ({ probe := fun _ => .timedOut } : Outside (List UInt8)).IsUsual .standard ∧
    ∃ fault rest, resolveLocally .lenient unreadableHost = (.error fault, rest) ∧
      fault.message = "Invalid IPv6 URL" := by
  have hids : HasOwnIds unreadableHost := by decide +kernel
  have haccepted : Accepted unreadableHost [{ id := "main" }] {} :=
    .of_pairwise (List.cons_ne_nil _ _) (by decide +kernel) (by decide +kernel)
      (by decide +kernel)
  have hmessage : (match (resolveLocally .lenient unreadableHost).1 with
      | .ok _ => none
      | .error fault => some fault.message) = some "Invalid IPv6 URL" := by
    decide +kernel
  cases hanswer : (resolveLocally .lenient unreadableHost).1 with
  | ok r =>
    rw [hanswer] at hmessage
    cases hmessage
  | error fault =>
    rw [hanswer] at hmessage
    exact ⟨hids, (validate_eq_ok_iff _ _ _).mpr haccepted, isUsual_timedOut, fault, _,
      Prod.ext hanswer rfl, Option.some.inj hmessage⟩

end TimelineExport
