import Mathlib.Data.Option.Basic
import TimelineExport.Compile.Program
import TimelineExport.Proofs.Asset.Resolve

/-!
# What is known of the sound of files

A source is probed when it is loaded, if the timeline that is resolved then has an element with
sound that uses it. Later resolutions find its entry in the cache and are handed it as it is. So
what a resolution tells of the sound of a file is what the probe program said of it, however many
timelines have shared the cache; and it is told of every element with sound whose source has never
been used for other elements only (`resolved_sound_is_known`). A picture that was resolved before a
video of the same source leaves that video unknown, and so does a picture that has the id of a
video: the compiler then takes the video to have sound (`unprobed_video_is_audible`).
-/

namespace TimelineExport

variable {α γ : Type}

/-! ### What the probe program says -/

/-- Whether the probe program reports that the file at a path has sound, or that it has none, while
what is outside is in some condition. -/
def Reports (P : Outside γ → Prop) (path : String) (sound : Bool) : Prop :=
  ∃ o, P o ∧ ∃ info, (o.probe path).readMedia path = .ok info ∧ info.hasAudio = sound

/-- Whether a timeline uses a source, but for no element that may have sound. -/
def UsesSilently (elements : List (Element α)) (source : String) : Prop :=
  source ∈ sourcesOf elements ∧ source ∉ probedSources elements

instance (elements : List (Element α)) (source : String) :
    Decidable (UsesSilently elements source) :=
  inferInstanceAs (Decidable (_ ∧ _))

/-- What is true of an entry once some timelines were resolved: it has a path, whether its file has
sound is known from the probe program, and if it is not known then one of the timelines has used the
source silently. -/
structure CachedAsset.IsHeard (P : Outside γ → Prop) (timelines : List (List (Element α)))
    (e : CachedAsset) : Prop where
  named : e.path ≠ ""
  reported : ∀ sound, e.hasAudio = some sound → Reports P e.path sound
  silent : e.hasAudio = none → ∃ timeline ∈ timelines, UsesSilently timeline e.key

section
variable {P : Outside γ → Prop} {timelines : List (List (Element α))}

theorem ignoresLeases_isHeard : IgnoresLeases (CachedAsset.IsHeard P timelines) := by
  intro e e' heq h
  obtain ⟨key, path, size, owned, hasAudio, leases⟩ := e
  obtain ⟨key', path', size', owned', hasAudio', leases'⟩ := e'
  cases heq
  exact ⟨h.named, h.reported, h.silent⟩

/-- Another timeline takes nothing away from what is known. -/
theorem CachedAsset.IsHeard.append {e : CachedAsset} (h : e.IsHeard P timelines)
    (elements : List (Element α)) : e.IsHeard P (timelines ++ [elements]) where
  named := h.named
  reported := h.reported
  silent hnone := by
    obtain ⟨timeline, htimeline, hsilent⟩ := h.silent hnone
    exact ⟨timeline, List.mem_append_left _ htimeline, hsilent⟩

end

/-! ### What a loader finds out -/

theorem le_length_hexDigits (width n : Nat) : width ≤ (hexDigits width n).length := by
  simp only [hexDigits, List.length_append, List.length_replicate]
  omega

theorem joinPath_ne_empty {base path : String} (h : path ≠ "") : joinPath base path ≠ "" := by
  unfold joinPath
  split
  · exact h
  · split <;> simp [h]

/-- A download is never written to the empty path. -/
theorem AssetCache.ne_empty_of_pathFor {c : AssetCache} {source target : String}
    (h : c.pathFor source = .ok target) : target ≠ "" := by
  unfold pathFor at h
  obtain ⟨url, -, h⟩ := bind_eq_ok.mp h
  rw [← Except.ok.inj h]
  refine joinPath_ne_empty fun hempty => ?_
  have hlength := congrArg String.length hempty
  simp only [sha1Text, Sha1State.text, List.flatMap_cons, String.toList_ofList,
    String.length_ofList, List.length_append, List.length_take, String.length_empty] at hlength
  have hdigits := le_length_hexDigits 8 (Sha1State.ofBytes source.toUTF8.toList).a.toNat
  omega

section
variable [FileContent γ] {options : LoadOptions} {files : FileTree γ} {source target : String}
  {o : Outside γ} {loaded : LoadedAsset γ}

/-- Whether a file has sound is known exactly if the probe program was run, and then from it. -/
theorem hasAudio_of_inspect {path : String} {content : γ} {downloaded : Bool}
    {run : Option ProbeRun} (h : inspect source path content downloaded run = .ok loaded) :
    run = none ∧ loaded.hasAudio = none ∨
      ∃ probe info, run = some probe ∧ probe.readMedia path = .ok info ∧
        loaded.hasAudio = some info.hasAudio := by
  unfold inspect at h
  dsimp only at h
  split at h
  · cases h
    exact .inl ⟨rfl, rfl⟩
  · next probe =>
    split at h
    · next info hinfo =>
      cases h
      exact .inr ⟨probe, info, rfl, hinfo, rfl⟩
    · cases h
    · cases h

/-- **What is loaded was inspected** at a path that is not empty. -/
theorem exists_inspect_of_loadSource {probed : Bool} (htarget : target ≠ "")
    (h : (loadSource options files probed source target o).1 = .ok loaded) :
    ∃ path content downloaded, path ≠ "" ∧
      inspect source path content downloaded (if probed then some (o.probe path) else none) =
        .ok loaded := by
  unfold loadSource at h
  dsimp only at h
  split at h
  · cases h
  · next url _ =>
    split at h
    · split at h
      · next content _ _ => exact ⟨target, content, true, htarget, h⟩
      · cases h
      · cases h
    · split at h
      · cases h
      · next content hcontent =>
        refine ⟨_, content, false, fun hempty => ?_, h⟩
        rw [hempty] at hcontent
        cases hcontent

/-- **What a loader finds out** about sound is what the probe program says. It finds out something
exactly if the source is to be probed. -/
theorem hasAudio_of_loadSource {P : Outside γ → Prop} (ho : P o) {probed : Bool}
    (htarget : target ≠ "")
    (h : (loadSource options files probed source target o).1 = .ok loaded) :
    loaded.path ≠ "" ∧ (∀ sound, loaded.hasAudio = some sound → Reports P loaded.path sound) ∧
      (loaded.hasAudio = none ↔ probed = false) := by
  obtain ⟨path, content, downloaded, hpath, hinspect⟩ := exists_inspect_of_loadSource htarget h
  obtain rfl : loaded.path = path := path_of_inspect hinspect
  refine ⟨hpath, ?_⟩
  obtain ⟨hrun, hnone⟩ | ⟨probe, info, hrun, hinfo, hsome⟩ := hasAudio_of_inspect hinspect
  · cases probed with
    | true => cases hrun
    | false => simp [hnone]
  · cases probed with
    | true =>
      cases hrun
      refine ⟨fun sound hsound => ⟨o, ho, info, hinfo, ?_⟩, by simp [hsome]⟩
      exact Option.some.inj (hsome.symm.trans hsound)
    | false => cases hrun

end

/-! ### Timelines that share a cache -/

section
variable [FileContent γ] {P : Outside γ → Prop} {timelines : List (List (Element α))}
  {elements : List (Element α)}

/-- A loader leaves an entry whose sound is not known only if its timeline uses the source
silently. -/
theorem AssetCache.Probes.makes {c : AssetCache} {options : LoadOptions} {event : CacheEvent γ}
    (h : c.Probes (sourcesOf elements) (probedSources elements) options P event) :
    event.Makes (CachedAsset.IsHeard P (timelines ++ [elements])) (sourcesOf elements) := by
  cases event with
  | arrive => exact h
  | serve => trivial
  | release => exact h.elim
  | close => exact h
  | finish =>
    obtain ⟨key, target, hkey, htarget, files, o, ho, rfl⟩ := h
    intro loaded hloaded key' hkey'
    cases hkey.symm.trans hkey'
    obtain ⟨hpath, hreports, hnone⟩ :=
      hasAudio_of_loadSource ho (ne_empty_of_pathFor htarget) hloaded
    refine ⟨hpath, hreports, fun hunknown => ?_⟩
    have hsilent : UsesSilently elements key :=
      ⟨List.mem_of_getElem? hkey, by simpa using hnone.mp hunknown⟩
    exact ⟨elements, by simp, hsilent⟩

namespace CacheScene

variable {s new : CacheScene γ} {options : LoadOptions} {policy : AssetPolicy}
  {events : List (CacheEvent γ)} {results : List (Except AssetFault CachedAsset)}

/-- **A step of the history of a cache**: when one more timeline has acquired its sources, what is
known of the sound of the entries, and of the assets that were handed out, is again right. -/
theorem GathersFor.isHeard (h : s.GathersFor options P elements events results)
    (hkeys : (s.cache.entries.map (·.key)).Nodup)
    (hentries : ∀ e ∈ s.cache.entries, e.IsHeard P timelines) :
    ((s.vacated.run events).cache.entries.map (·.key)).Nodup ∧
      (∀ e ∈ (s.vacated.run events).cache.entries, e.IsHeard P (timelines ++ [elements])) ∧
      List.Forall₂ (fun source result => ∀ asset, result = .ok asset →
        asset.key = source ∧ asset.IsHeard P (timelines ++ [elements]))
        (sourcesOf elements) results := by
  have hsound : s.vacated.Sound := sound_of_callers_eq_nil hkeys rfl
  have hstart : s.vacated.Furnishes (CachedAsset.IsHeard P (timelines ++ [elements]))
      (sourcesOf elements) :=
    ⟨fun e he => (hentries e he).append elements, fun _ hc => absurd hc List.not_mem_nil,
      fun _ hc => absurd hc List.not_mem_nil⟩
  obtain ⟨hsound', hfurnishes⟩ := hsound.run_furnishes ignoresLeases_isHeard hstart
    fun event hevent => (h.probes event hevent).makes
  refine ⟨hsound'.keys, hfurnishes.entries, ?_⟩
  refine forall₂_of_result? h.results hfurnishes.sources fun c hc result hstate asset hasset => ?_
  exact hfurnishes.results c hc asset (hasset ▸ hstate)

/-- What becomes of a new cache when timelines are resolved from it, one after another, and leases
are given back in between. The loaders find what is outside in some condition, and files may change
at any time. -/
inductive Serves (new : CacheScene γ) (P : Outside γ → Prop) :
    List (List (Element α)) → CacheScene γ → Prop where
  | nothing : Serves new P [] new
  | resolve {timelines : List (List (Element α))} {s : CacheScene γ} (h : Serves new P timelines s)
    {options : LoadOptions} (policy : AssetPolicy) {elements : List (Element α)}
    {events : List (CacheEvent γ)} {results : List (Except AssetFault CachedAsset)}
    (hgathers : s.GathersFor options P elements events results) :
    Serves new P (timelines ++ [elements])
      (concludeResolution policy elements results (s.vacated.run events)).2
  | release {timelines : List (List (Element α))} {s : CacheScene γ} (h : Serves new P timelines s)
    (leases : Leases) (ids : Option (List String)) :
    Serves new P timelines { s with cache := (releaseLeases s.cache leases ids).1 }

end CacheScene

end

theorem alike_giveBack (ids : List String) (cache : AssetCache) (leases : Leases) :
    cache.Alike (giveBack ids cache leases).1 := by
  induction ids generalizing cache leases with
  | nil => exact ⟨rfl, rfl, .refl _⟩
  | cons id ids ih =>
    unfold giveBack
    split
    · next key _ =>
      have hfirst := AssetCache.alike_release cache key
      have hrest := ih (cache.release key) (leases.filter (·.1 ≠ id))
      exact ⟨hrest.directory.trans hfirst.directory, hrest.limits.trans hfirst.limits,
        hrest.entries.trans hfirst.entries⟩
    · exact ⟨rfl, rfl, .refl _⟩

theorem alike_releaseLeases (cache : AssetCache) (leases : Leases) (ids : Option (List String)) :
    cache.Alike (releaseLeases cache leases ids).1 :=
  alike_giveBack _ _ _

/-- How a resolution ends changes nothing in the cache but leases. -/
theorem alike_concludeResolution (policy : AssetPolicy) (elements : List (Element α))
    (results : List (Except AssetFault CachedAsset)) (s : CacheScene γ) :
    s.cache.Alike (concludeResolution policy elements results s).2.cache := by
  unfold concludeResolution
  dsimp only
  split
  · exact ⟨rfl, rfl, .refl _⟩
  · exact alike_releaseLeases _ _ _

section
variable [FileContent γ] {P : Outside γ → Prop} {timelines : List (List (Element α))}
  {s new : CacheScene γ}

/-- **Whatever timelines a cache has served**, what is known of the sound of its entries is what the
probe program said, and an entry of which nothing is known was used silently. -/
theorem CacheScene.Serves.isHeard (h : new.Serves P timelines s) (hnew : new.cache.entries = []) :
    (s.cache.entries.map (·.key)).Nodup ∧ ∀ e ∈ s.cache.entries, e.IsHeard P timelines := by
  induction h with
  | nothing =>
    rw [hnew]
    exact ⟨List.nodup_nil, fun e he => absurd he List.not_mem_nil⟩
  | @resolve _ s _ _ policy elements events results hgathers ih =>
    obtain ⟨hkeys, hentries⟩ := ih
    obtain ⟨hkeys', hentries', -⟩ := hgathers.isHeard hkeys hentries
    have halike := alike_concludeResolution policy elements results (s.vacated.run events)
    exact ⟨halike.nodup_iff.mpr hkeys', forall_mem_of_alike ignoresLeases_isHeard halike hentries'⟩
  | @release _ s _ leases ids ih =>
    obtain ⟨hkeys, hentries⟩ := ih
    have halike := alike_releaseLeases s.cache leases ids
    exact ⟨halike.nodup_iff.mpr hkeys, forall_mem_of_alike ignoresLeases_isHeard halike hentries⟩

end

/-! ### What a resolution tells -/

/-- The source whose result is joined to the elements of an id: that of the last element that has
the id and a source. -/
def joinedSource? (elements : List (Element α)) (id : String) : Option String :=
  (pendingSources elements).reverse.lookup id

/-- An element whose id is its own is joined to the result of its own source. -/
theorem HasOwnIds.joinedSource?_eq {elements : List (Element α)} (h : HasOwnIds elements)
    {e : Element α} (he : e ∈ elements) {source : String} (hsource : e.usedSource = some source) :
    joinedSource? elements e.id = some source := by
  have hnodup : ((pendingSources elements).reverse.map (·.1)).Nodup := by
    rw [List.map_reverse]
    exact List.nodup_reverse.mpr h.nodup
  have hmem : (e.id, source) ∈ pendingSources elements :=
    List.mem_filterMap.mpr ⟨e, he, by rw [hsource]; rfl⟩
  exact lookup_of_mem hnodup (List.mem_reverse.mpr hmem)

/-- Under an id is the result of the source that is joined there. -/
theorem rel_joinedSource? {R : String → Except AssetFault CachedAsset → Prop}
    {elements : List (Element α)} {results : List (Except AssetFault CachedAsset)}
    (h : List.Forall₂ R (sourcesOf elements) results) (id : String) :
    Option.Rel R (joinedSource? elements id)
      ((outcomesById (idsOf elements) results).lookup id) := by
  rw [lookup_outcomesById]
  unfold joinedSource? idsOf
  unfold sourcesOf at h
  generalize pendingSources elements = pairs at h ⊢
  induction pairs generalizing results with
  | nil => exact .none
  | cons p pairs ih =>
    obtain ⟨result, results, hfirst, hrest, rfl⟩ := List.forall₂_cons_left_iff.mp h
    rw [List.map_cons, List.zip_cons_cons, List.reverse_cons, List.reverse_cons,
      List.lookup_append, List.lookup_append]
    have hlater := ih hrest
    generalize pairs.reverse.lookup id = source?,
      ((pairs.map (·.1)).zip results).reverse.lookup id = result? at hlater ⊢
    cases hlater with
    | some hlater => exact .some hlater
    | none =>
      rw [Option.none_or, Option.none_or, List.lookup_cons, List.lookup_cons]
      split
      · exact .some hfirst
      · exact .none

section
variable {policy : AssetPolicy} {outcomes : SourceOutcomes} {elements : List (Element α)}
  {r r' : ResolvedTimeline α}

/-- What an element tells of a path: the sound of the asset that is joined to it, if the asset is at
that path and was probed. -/
def SourceOutcomes.Tells (outcomes : SourceOutcomes) (e : Element α) (path : String)
    (sound : Bool) : Prop :=
  ∃ asset, outcomes.lookup e.id = some (.ok asset) ∧ asset.path = path ∧
    asset.hasAudio = some sound

/-- **Joining an element** tells of a path what the element tells of it. -/
theorem lookup_audioSources_joinElement {e : Element α}
    (h : joinElement policy outcomes r e = .ok r') (path : String) :
    (∃ sound, outcomes.Tells e path sound ∧ r'.audioSources.lookup path = some sound) ∨
      (∀ sound, ¬ outcomes.Tells e path sound) ∧
        r'.audioSources.lookup path = r.audioSources.lookup path := by
  unfold joinElement at h
  unfold SourceOutcomes.Tells
  split at h
  · next hnone =>
    cases h
    exact .inr ⟨by simp [hnone], rfl⟩
  · next asset hasset =>
    cases h
    dsimp only
    split
    · next sound hsound =>
      rw [lookup_setEntry]
      by_cases hpath : path = asset.path
      · rw [if_pos hpath]
        exact .inl ⟨sound, ⟨asset, hasset, hpath.symm, hsound⟩, rfl⟩
      · rw [if_neg hpath]
        refine .inr ⟨?_, rfl⟩
        rintro _ ⟨asset', hasset', hpath', -⟩
        cases hasset.symm.trans hasset'
        exact hpath hpath'.symm
    · next hunknown =>
      refine .inr ⟨?_, rfl⟩
      rintro _ ⟨asset', hasset', -, hsound⟩
      cases hasset.symm.trans hasset'
      cases hunknown.symm.trans hsound
  · next fault hfault =>
    split at h
    · cases h
      exact .inr ⟨by simp [hfault], rfl⟩
    · cases h

/-- **What is told of a path** once all elements are joined was told by one of them; nothing is told
only if none of them tells of it. -/
theorem lookup_audioSources_joinElements
    (h : elements.foldlM (joinElement policy outcomes) r = .ok r') (path : String) :
    (∃ e ∈ elements, ∃ sound, outcomes.Tells e path sound ∧
      r'.audioSources.lookup path = some sound) ∨
    (∀ e ∈ elements, ∀ sound, ¬ outcomes.Tells e path sound) ∧
      r'.audioSources.lookup path = r.audioSources.lookup path := by
  induction elements generalizing r with
  | nil =>
    cases h
    exact .inr ⟨fun _ he => absurd he List.not_mem_nil, rfl⟩
  | cons e elements ih =>
    rw [List.foldlM_cons] at h
    obtain ⟨r₁, hjoin, h⟩ := bind_eq_ok.mp h
    obtain ⟨e', he', htold⟩ | ⟨hsilent, hlater⟩ := ih h
    · exact .inl ⟨e', List.mem_cons_of_mem _ he', htold⟩
    · obtain ⟨sound, htells, hfirst⟩ | ⟨hnone, hfirst⟩ := lookup_audioSources_joinElement hjoin path
      · exact .inl ⟨e, List.mem_cons_self, sound, htells, hlater.trans hfirst⟩
      · exact .inr ⟨List.forall_mem_cons.mpr ⟨hnone, hsilent⟩, hlater.trans hfirst⟩

end

/-- A resolution that returns has joined all elements. -/
theorem joinElements_of_concludeResolution {policy : AssetPolicy} {elements : List (Element α)}
    {results : List (Except AssetFault CachedAsset)} {s s' : CacheScene γ} {r : ResolvedTimeline α}
    {leases : Leases}
    (h : concludeResolution policy elements results s = (.ok (r, leases), s')) :
    joinElements policy (outcomesById (idsOf elements) results) elements = .ok r := by
  unfold concludeResolution at h
  dsimp only at h
  split at h
  · next hjoins =>
    cases h
    exact hjoins
  · cases h

/-- What is told of the source of an element decides whether it is mixed. -/
theorem isAudible_of_lookup {audioSources : List (String × Bool)} {e : Element α}
    (hkind : e.kind.hasSound = true) {path : String} (hsource : e.usedSource = some path)
    {sound : Bool} (h : audioSources.lookup path = some sound) :
    isAudible audioSources e = sound := by
  have hasset : e.assetSource = some path := (Option.filter_eq_some_iff.mp hsource).1
  unfold isAudible
  rw [hkind, hasset, Option.bind_some, h]
  rfl

section
variable {elements : List (Element α)} {results : List (Except AssetFault CachedAsset)}
  {policy : AssetPolicy} {r : ResolvedTimeline α}

/-- What holds of an asset and the source of its place holds of the asset that is found under an id
and the source that is joined there. -/
theorem exists_joinedSource? {R : String → CachedAsset → Prop}
    (h : List.Forall₂ (fun source result => ∀ asset, result = .ok asset → R source asset)
      (sourcesOf elements) results) {id : String} {asset : CachedAsset}
    (hasset : (outcomesById (idsOf elements) results).lookup id = some (.ok asset)) :
    ∃ source, joinedSource? elements id = some source ∧ R source asset := by
  have hrel := rel_joinedSource? h id
  rw [hasset] at hrel
  generalize joinedSource? elements id = source? at hrel ⊢
  cases hrel with
  | some hresult => exact ⟨_, rfl, hresult asset rfl⟩

/-- An element that has a source finds a result under its id. -/
theorem exists_lookup_outcomesById (hlength : (sourcesOf elements).length = results.length)
    {e : Element α} (he : e ∈ elements) {path : String} (hsource : e.usedSource = some path) :
    ∃ result, (outcomesById (idsOf elements) results).lookup e.id = some result := by
  have hrel := rel_joinedSource? (R := fun _ _ => True)
    (List.forall₂_iff_zip.mpr ⟨hlength, fun _ => trivial⟩) e.id
  have hmem : (e.id, path) ∈ (pendingSources elements).reverse :=
    List.mem_reverse.mpr (List.mem_filterMap.mpr ⟨e, he, by rw [hsource]; rfl⟩)
  have hjoined : joinedSource? elements e.id ≠ none := fun hnone =>
    bne_iff_ne.mp (List.lookup_eq_none_iff.mp hnone _ hmem) rfl
  generalize joinedSource? elements e.id = source?,
    (outcomesById (idsOf elements) results).lookup e.id = result? at hrel hjoined ⊢
  cases hrel with
  | some => exact ⟨_, rfl⟩
  | none => exact absurd rfl hjoined

/-- **The source of a resolved element** is the path of an asset that was found under its id. -/
theorem exists_asset_of_mem_joinElements (hlength : (sourcesOf elements).length = results.length)
    (hnamed : ∀ id asset, (outcomesById (idsOf elements) results).lookup id = some (.ok asset) →
      asset.path ≠ "")
    (h : joinElements policy (outcomesById (idsOf elements) results) elements = .ok r)
    {e : Element α} (he : e ∈ r.elements) {path : String} (hsource : e.usedSource = some path) :
    ∃ e₀ ∈ elements, e.id = e₀.id ∧ ∃ asset, asset.path = path ∧
      (outcomesById (idsOf elements) results).lookup e₀.id = some (.ok asset) := by
  obtain he | ⟨e₀, he₀, hid, ⟨hnone, rfl⟩ | ⟨asset, hasset, hshown⟩⟩ := of_mem_joinElements h he
  · cases he
  · obtain ⟨result, hresult⟩ := exists_lookup_outcomesById hlength he₀ hsource
    cases hnone.symm.trans hresult
  · have hused : e.usedSource = some asset.path := by
      unfold Element.usedSource Element.assetSource
      rw [hshown]
      simp [nonEmpty, hnamed e₀.id asset hasset]
    exact ⟨e₀, he₀, hid, asset, Option.some.inj (hused.symm.trans hsource), hasset⟩

end

/-- **What a resolution tells of sound** is what the probe program reported, whatever timelines have
shared the cache before, however the acquisitions interleave and whatever network and files are
like. It is told of the file of every element with sound, and the compiler goes by it, if neither
this timeline nor an earlier one has used the source that was joined to the element silently. -/
theorem resolved_sound_is_known [FileContent γ] {P : Outside γ → Prop} {new s : CacheScene γ}
    (hnew : new.cache.entries = []) {timelines : List (List (Element α))}
    (hserves : new.Serves P timelines s) {options : LoadOptions} {policy : AssetPolicy}
    {elements : List (Element α)} {events : List (CacheEvent γ)}
    {results : List (Except AssetFault CachedAsset)}
    (hgathers : s.GathersFor options P elements events results) {r : ResolvedTimeline α}
    {leases : Leases} {s' : CacheScene γ}
    (h : concludeResolution policy elements results (s.vacated.run events) =
      (.ok (r, leases), s')) :
    (∀ path sound, r.audioSources.lookup path = some sound → Reports P path sound) ∧
    ∀ e ∈ r.elements, e.kind.hasSound = true → ∀ path, e.usedSource = some path →
      (∀ source, joinedSource? elements e.id = some source →
        ∀ timeline ∈ timelines ++ [elements], ¬ UsesSilently timeline source) →
      ∃ sound, Reports P path sound ∧ r.audioSources.lookup path = some sound ∧
        isAudible r.audioSources e = sound := by
  obtain ⟨hkeys, hentries⟩ := hserves.isHeard hnew
  obtain ⟨-, -, hresults⟩ := hgathers.isHeard hkeys hentries
  have hjoins := joinElements_of_concludeResolution h
  have hreports : ∀ path sound, r.audioSources.lookup path = some sound →
      Reports P path sound := by
    intro path sound hsound
    obtain ⟨e, -, sound', ⟨asset, hasset, rfl, htold⟩, hfound⟩ | ⟨-, hnone⟩ :=
      lookup_audioSources_joinElements hjoins path
    · cases hsound.symm.trans hfound
      obtain ⟨-, -, -, hheard⟩ := exists_joinedSource? hresults hasset
      exact hheard.reported sound htold
    · cases hsound.symm.trans hnone
  refine ⟨hreports, fun e he hkind path hsource hspoken => ?_⟩
  suffices hknown : ∃ sound, r.audioSources.lookup path = some sound by
    obtain ⟨sound, hsound⟩ := hknown
    exact ⟨sound, hreports path sound hsound, hsound, isAudible_of_lookup hkind hsource hsound⟩
  have hnamed : ∀ id asset,
      (outcomesById (idsOf elements) results).lookup id = some (.ok asset) → asset.path ≠ "" := by
    intro id asset hasset
    obtain ⟨-, -, -, hheard⟩ := exists_joinedSource? hresults hasset
    exact hheard.named
  obtain ⟨e₀, he₀, hid, asset, hpath, hasset⟩ :=
    exists_asset_of_mem_joinElements hresults.length_eq hnamed hjoins he hsource
  obtain ⟨source, hjoined, rfl, hheard⟩ := exists_joinedSource? hresults hasset
  cases hsound : asset.hasAudio with
  | none =>
    obtain ⟨timeline, htimeline, hsilent⟩ := hheard.silent hsound
    exact absurd hsilent (hspoken asset.key (hid ▸ hjoined) timeline htimeline)
  | some sound =>
    obtain ⟨_, -, sound', -, hfound⟩ | ⟨hnone, -⟩ := lookup_audioSources_joinElements hjoins path
    · exact ⟨sound', hfound⟩
    · exact absurd ⟨asset, hasset, hpath, hsound⟩ (hnone e₀ he₀ sound)

/-! ### Two timelines after each other -/

theorem probe_loadSource [FileContent γ] (options : LoadOptions) (files : FileTree γ)
    (probed : Bool) (source target : String) (o : Outside γ) :
    (loadSource options files probed source target o).2.probe = o.probe := by
  unfold loadSource
  dsimp only
  split
  · rfl
  · split
    · split <;> rfl
    · split <;> rfl

/-- **Resolving one source after another** adds to the history of a cache, if loading leaves the
condition of what is outside as it is. -/
theorem CacheScene.Serves.resolveTimeline [FileContent γ] {new s : CacheScene γ}
    {P : Outside γ → Prop} {timelines : List (List (Element α))} (h : new.Serves P timelines s)
    (hnew : new.cache.entries = [])
    (hP : ∀ options files probed key target o,
      P o → P (loadSource options files probed key target o).2)
    (options : LoadOptions) (policy : AssetPolicy) (elements : List (Element α)) {o : Outside γ}
    (ho : P o) :
    new.Serves P (timelines ++ [elements])
      (TimelineExport.resolveTimeline options policy elements s o).2.1 := by
  obtain ⟨events, results, hgathers, rest, heq⟩ := exists_gathersFor_resolveTimeline elements
    (h.isHeard hnew).1 options policy (hP options) ho
  rw [heq]
  exact h.resolve policy hgathers

/-- A directory with a clip and a picture, and a cache without entries. -/
def withClip : CacheScene (List UInt8) :=
  { cache := { directory := "cache" }
    files := { nodes := [(["a.mp4"], .file [1]), (["b.png"], .file [2, 3])] } }

/-- A run of the probe program that finds a picture and no sound. -/
def silentRun : ProbeRun :=
  .exited 0 "\x7b\"streams\": [\x7b\"codec_type\": \"video\"\x7d]\x7d" ""

/-- Whether nothing has sound. -/
def IsSilent (o : Outside (List UInt8)) : Prop := ∀ path, o.probe path = silentRun

theorem isSilent_loadSource (options : LoadOptions) (files : FileTree (List UInt8)) (probed : Bool)
    (key target : String) (o : Outside (List UInt8)) (h : IsSilent o) :
    IsSilent (loadSource options files probed key target o).2 := by
  intro path
  rw [probe_loadSource, h path]

theorem eq_false_of_reports {path : String} {sound : Bool} (h : Reports IsSilent path sound) :
    sound = false := by
  obtain ⟨o, ho, info, hinfo, rfl⟩ := h
  rw [ho path] at hinfo
  cases hinfo
  rfl

/-- Loads without a network. -/
def localLoads : LoadOptions :=
  { retries := { attempts := 1, baseDelay := 0, jitter := fun _ => 0 } }

/-- Resolves a timeline of local files, none of which has sound. -/
def resolveSilent (elements : List (Element Rat)) (s : CacheScene (List UInt8)) :=
  resolveTimeline localLoads .strict elements s { probe := fun _ => silentRun }

theorem serves_resolveSilent (elements : List (Element Rat)) :
    withClip.Serves IsSilent [elements] (resolveSilent elements withClip).2.1 :=
  CacheScene.Serves.nothing.resolveTimeline rfl isSilent_loadSource localLoads .strict elements
    fun _ => rfl

/-- A video, and a picture after it. -/
def clipAndPicture : List (Element Rat) :=
  [.plain .video "v" "main" "a.mp4" 0 1000, .plain .image "p" "main" "b.png" 1000 2000]

/-- A video that is resolved for the second time is found in the cache, and known to have no
sound. -/
theorem cached_video_is_known :
    let s := (resolveSilent clipAndPicture withClip).2.1
    withClip.cache.entries = [] ∧ withClip.Serves IsSilent [clipAndPicture] s ∧
    ∃ r leases rest, resolveSilent clipAndPicture s = (.ok (r, leases), rest) ∧
      ∃ e ∈ r.elements, e.kind.hasSound = true ∧ e.usedSource = some "a.mp4" ∧
        r.audioSources.lookup "a.mp4" = some false ∧ isAudible r.audioSources e = false := by
  intro s
  have hserves : withClip.Serves IsSilent [clipAndPicture] s := serves_resolveSilent clipAndPicture
  have hanswer : (resolveSilent clipAndPicture s).1.toOption.map
      (fun a => a.1.elements.map fun e => (e.id, e.kind.hasSound, e.usedSource)) =
        some [("v", true, some "a.mp4"), ("p", false, some "b.png")] := by
    decide +kernel
  obtain ⟨⟨r, leases⟩, hr⟩ : Succeeds (resolveSilent clipAndPicture s).1 :=
    .of_isOk (by decide +kernel)
  rw [hr] at hanswer
  have helements : (r.elements.map fun e => (e.id, e.kind.hasSound, e.usedSource)) =
      [("v", true, some "a.mp4"), ("p", false, some "b.png")] := Option.some.inj hanswer
  have hvideo : ("v", true, some "a.mp4") ∈
      r.elements.map fun e => (e.id, e.kind.hasSound, e.usedSource) := by
    rw [helements]
    exact List.mem_cons_self
  obtain ⟨e, he, hfields⟩ := List.mem_map.mp hvideo
  obtain ⟨hid, hkind, hsource⟩ := by simpa only [Prod.mk.injEq] using hfields
  -- The timeline itself is the only one that has used the clip, and it has a video of it.
  have hspoken : ∀ source, joinedSource? clipAndPicture e.id = some source →
      ∀ timeline ∈ [clipAndPicture] ++ [clipAndPicture], ¬ UsesSilently timeline source := by
    intro source hjoined timeline htimeline
    have hids : HasOwnIds clipAndPicture := by decide +kernel
    have hused : (Element.plain .video "v" "main" "a.mp4" 0 1000 : Element Rat).usedSource =
        some "a.mp4" := by decide +kernel
    have hown := hids.joinedSource?_eq List.mem_cons_self hused
    rw [hid] at hjoined
    cases hown.symm.trans hjoined
    have htimeline : timeline = clipAndPicture := by simpa using htimeline
    rw [htimeline]
    decide +kernel
  obtain ⟨events, results, hgathers, rest, heq⟩ := exists_gathersFor_resolveTimeline clipAndPicture
    (hserves.isHeard rfl).1 localLoads .strict (isSilent_loadSource localLoads)
    (o := { probe := fun _ => silentRun }) fun _ => rfl
  have hconcluded := (congrArg (·.1) heq).symm.trans hr
  obtain ⟨-, hknown⟩ := resolved_sound_is_known rfl hserves hgathers (Prod.ext hconcluded rfl)
  obtain ⟨sound, hreports, hfound, haudible⟩ := hknown e he hkind "a.mp4" hsource hspoken
  cases eq_false_of_reports hreports
  exact ⟨rfl, hserves, r, leases, _, Prod.ext hr rfl, e, he, hkind, hsource, hfound, haudible⟩

/-- The clip as a still picture. -/
def clipAsPicture : List (Element Rat) := [.plain .image "p" "main" "a.mp4" 0 1000]

/-- A video and a picture with one id. -/
def clipAndPictureWithOneId : List (Element Rat) :=
  [.plain .video "x" "main" "a.mp4" 0 1000, .plain .image "x" "main" "b.png" 1000 2000]

/-- What was resolved: the sources, what is known of their sound, and which elements are mixed. -/
def soundOf (r : ResolvedTimeline Rat) : List (Option String × Bool) × List (String × Bool) :=
  (r.elements.map fun e => (e.source, isAudible r.audioSources e), r.audioSources)

/-- **A video that was not probed is taken to have sound**, which the probe program denies: when a
timeline before has used its source for a picture, and when a picture has its id. The timelines are
valid. -/
theorem unprobed_video_is_audible :
    (∀ path sound, Reports IsSilent path sound → sound = false) ∧
    (withClip.Serves IsSilent [clipAsPicture] (resolveSilent clipAsPicture withClip).2.1 ∧
      HasOwnIds clipAndPicture ∧ validate clipAndPicture [{ id := "main" }] {} = .ok () ∧
      ∃ r leases rest,
        resolveSilent clipAndPicture (resolveSilent clipAsPicture withClip).2.1 =
          (.ok (r, leases), rest) ∧
        soundOf r = ([(some "a.mp4", true), (some "b.png", false)], [])) ∧
    (validate clipAndPictureWithOneId [{ id := "main" }] {} = .ok () ∧
      ∃ r leases rest, resolveSilent clipAndPictureWithOneId withClip = (.ok (r, leases), rest) ∧
        soundOf r = ([(some "b.png", true), (some "b.png", false)], [])) := by
  have hanswer : ∀ {x : Except AssetFault (ResolvedTimeline Rat × Leases) ×
      CacheScene (List UInt8) × Outside (List UInt8)} {known},
      x.1.toOption.map (fun a => soundOf a.1) = some known →
      ∃ r leases rest, x = (.ok (r, leases), rest) ∧ soundOf r = known := by
    rintro ⟨_ | ⟨r, leases⟩, rest⟩ known hknown
    · cases hknown
    · exact ⟨r, leases, rest, rfl, Option.some.inj hknown⟩
  have haccepted : Accepted clipAndPicture [{ id := "main" }] {} :=
    .of_pairwise (List.cons_ne_nil _ _) (by decide +kernel) (by decide +kernel)
      (by decide +kernel)
  have haccepted' : Accepted clipAndPictureWithOneId [{ id := "main" }] {} :=
    .of_pairwise (List.cons_ne_nil _ _) (by decide +kernel) (by decide +kernel)
      (by decide +kernel)
  refine ⟨fun _ _ => eq_false_of_reports, ⟨serves_resolveSilent clipAsPicture, ?_, ?_, ?_⟩, ?_, ?_⟩
  · decide +kernel
  · exact (validate_eq_ok_iff _ _ _).mpr haccepted
  · exact hanswer (by decide +kernel)
  · exact (validate_eq_ok_iff _ _ _).mpr haccepted'
  · exact hanswer (by decide +kernel)

end TimelineExport
