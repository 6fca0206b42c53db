import Mathlib.Data.List.Forall2
import Mathlib.Data.List.TakeWhile
import TimelineExport.Asset.Resolve
import TimelineExport.Proofs.Asset.Acquire

/-!
# Sources that are acquired side by side

Callers come to a cache, each for the source of its place, and take their turns in any order. As
long as only entries are made that have some property, callers are handed such entries of their own
sources and no others (`CacheScene.Sound.run_furnishes`). So whatever files, network and probe
program are like when a loader ends, a caller that is answered with an asset has one of its own
source, with the path of that source's file (`CacheScene.Gathers.forall₂_isResultOf`), and the cache
holds such entries only (`CacheScene.Gathers.isFaithful`). To acquire sources one after another is
one way to acquire them side by side (`CacheScene.exists_run_acquireInOrder`).
-/

namespace TimelineExport

variable {γ : Type}

/-! ### Where the file of a source is -/

/-- The path of the file of a source. A download has its place in the directory of the cache. -/
def AssetCache.localPath? (c : AssetCache) (source : String) : Option String :=
  match SourceUrl.read source with
  | .error _ => none
  | .ok url =>
    if url.scheme = "http" ∨ url.scheme = "https" then (c.pathFor source).toOption
    else some (if url.scheme = "file" then percentDecode url.path else source)

theorem path_of_inspect [FileContent γ] {source path : String} {content : γ} {downloaded : Bool}
    {run : Option ProbeRun} {loaded : LoadedAsset γ}
    (h : inspect source path content downloaded run = .ok loaded) : loaded.path = path := by
  unfold inspect at h
  dsimp only at h
  split at h
  · cases h
    rfl
  · split at h
    · cases h
      rfl
    · cases h
    · cases h

/-- **A source is loaded** from the path of its file. -/
theorem localPath?_of_loadSource [FileContent γ] {c : AssetCache} {options : LoadOptions}
    {files : FileTree γ} {probed : Bool} {source target : String} {o : Outside γ}
    {loaded : LoadedAsset γ} (htarget : c.pathFor source = .ok target)
    (h : (loadSource options files probed source target o).1 = .ok loaded) :
    c.localPath? source = some loaded.path := by
  unfold loadSource at h
  unfold AssetCache.localPath?
  cases hurl : SourceUrl.read source with
  | error fault =>
    rw [hurl] at h
    cases h
  | ok url =>
    rw [hurl] at h
    dsimp only at h ⊢
    split at h
    · next hremote =>
      rw [if_pos hremote, htarget]
      split at h
      · exact congrArg some (path_of_inspect h).symm
      · cases h
      · cases h
    · next hlocal =>
      rw [if_neg hlocal]
      split at h
      · cases h
      · exact congrArg some (path_of_inspect h).symm

namespace AssetCache

variable {c c' : AssetCache}

/-- The path of a download depends on nothing of a cache but its directory. -/
theorem pathFor_congr (h : c'.directory = c.directory) (source : String) :
    c'.pathFor source = c.pathFor source := by
  unfold pathFor
  rw [h]

theorem localPath?_congr (h : c'.directory = c.directory) (source : String) :
    c'.localPath? source = c.localPath? source := by
  unfold localPath?
  rw [pathFor_congr h]

/-- Whether a cache holds one entry of each source, with the path of the file of that source. -/
structure IsFaithful (c : AssetCache) : Prop where
  keys : (c.entries.map (·.key)).Nodup
  paths : ∀ e ∈ c.entries, c.localPath? e.key = some e.path

theorem isFaithful_of_entries_eq_nil (h : c.entries = []) : c.IsFaithful where
  keys := by
    rw [h]
    exact List.nodup_nil
  paths e he := absurd (h ▸ he) List.not_mem_nil

end AssetCache

/-! ### Sources that are acquired side by side -/

/-- Whether an event belongs to the acquisition of some sources: each caller comes for the source
of its place, and is told what loading that source gives, whatever files, network and probe program
are like at that time. -/
def AssetCache.Acquires [FileContent γ] (c : AssetCache) (keys : List String) :
    CacheEvent γ → Prop
  | .arrive id key => keys[id]? = some key
  | .finish id outcome =>
    ∃ key target, keys[id]? = some key ∧ c.pathFor key = .ok target ∧
      ∃ options files probed o, outcome = (loadSource options files probed key target o).1
  | .serve _ | .release _ => True
  | .close => False

/-- Whether an event belongs to an acquisition of some sources that nobody else takes part in, and
in which every loader finds what is outside in some condition. -/
def AssetCache.Loads [FileContent γ] (c : AssetCache) (keys : List String) (options : LoadOptions)
    (P : Outside γ → Prop) : CacheEvent γ → Prop
  | .arrive id key => keys[id]? = some key
  | .finish id outcome =>
    ∃ key target, keys[id]? = some key ∧ c.pathFor key = .ok target ∧
      ∃ files probed o, P o ∧ outcome = (loadSource options files probed key target o).1
  | .serve _ => True
  | .release _ | .close => False

/-- Whether an event belongs to an acquisition of some sources that nobody else takes part in, in
which those that are listed are probed and no others, and every loader finds what is outside in some
condition. -/
def AssetCache.Probes [FileContent γ] (c : AssetCache) (keys probed : List String)
    (options : LoadOptions) (P : Outside γ → Prop) : CacheEvent γ → Prop
  | .arrive id key => keys[id]? = some key
  | .finish id outcome =>
    ∃ key target, keys[id]? = some key ∧ c.pathFor key = .ok target ∧
      ∃ files o, P o ∧ outcome = (loadSource options files (probed.contains key) key target o).1
  | .serve _ => True
  | .release _ | .close => False

theorem AssetCache.Probes.loads [FileContent γ] {c : AssetCache} {keys probed : List String}
    {options : LoadOptions} {P : Outside γ → Prop} {event : CacheEvent γ}
    (h : c.Probes keys probed options P event) : c.Loads keys options P event := by
  cases event with
  | arrive => exact h
  | serve => trivial
  | finish =>
    obtain ⟨key, target, hkey, htarget, files, o, ho, houtcome⟩ := h
    exact ⟨key, target, hkey, htarget, files, _, o, ho, houtcome⟩
  | release | close => exact h

theorem AssetCache.Loads.acquires [FileContent γ] {c : AssetCache} {keys : List String}
    {options : LoadOptions} {P : Outside γ → Prop} {event : CacheEvent γ}
    (h : c.Loads keys options P event) : c.Acquires keys event := by
  cases event with
  | arrive => exact h
  | serve => trivial
  | finish =>
    obtain ⟨key, target, hkey, htarget, files, probed, o, -, houtcome⟩ := h
    exact ⟨key, target, hkey, htarget, options, files, probed, o, houtcome⟩
  | release => trivial
  | close => exact h

/-- Whether a result of an acquisition is that of a source: an asset that was acquired is an entry
of the source, with the path of its file. -/
def IsResultOf (path? : String → Option String) (source : String)
    (result : Except AssetFault CachedAsset) : Prop :=
  ∀ asset, result = .ok asset → asset.key = source ∧ path? source = some asset.path

/-- Whether a property of entries has nothing to do with their leases. -/
def IgnoresLeases (Q : CachedAsset → Prop) : Prop :=
  ∀ ⦃e e' : CachedAsset⦄, e.unleased = e'.unleased → Q e → Q e'

/-- Whether an event belongs to the acquisition of some sources, and makes an entry only if that has
some property. -/
def CacheEvent.Makes (Q : CachedAsset → Prop) (keys : List String) : CacheEvent γ → Prop
  | .arrive id key => keys[id]? = some key
  | .finish id outcome =>
    ∀ loaded, outcome = .ok loaded → ∀ key, keys[id]? = some key → Q (loaded.entry key)
  | .serve _ | .release _ => True
  | .close => False

theorem CacheEvent.Makes.ne_close {Q : CachedAsset → Prop} {keys : List String}
    {event : CacheEvent γ} (h : event.Makes Q keys) : event ≠ .close := by
  rintro rfl
  exact h

/-- A path depends on the source and not on leases. -/
theorem ignoresLeases_path (path? : String → Option String) :
    IgnoresLeases fun e => path? e.key = some e.path := by
  intro e e' heq h
  have hkey : e.key = e'.key := congrArg (·.key) heq
  have hpath : e.path = e'.path := congrArg (·.path) heq
  rw [← hkey, ← hpath]
  exact h

/-- An acquisition makes entries at the paths of the files of their sources. -/
theorem AssetCache.Acquires.makes [FileContent γ] {c : AssetCache} {keys : List String}
    {event : CacheEvent γ} (h : c.Acquires keys event) :
    event.Makes (fun e => c.localPath? e.key = some e.path) keys := by
  cases event with
  | arrive => exact h
  | serve | release => trivial
  | finish =>
    obtain ⟨key, target, hkey, htarget, options, files, probed, o, rfl⟩ := h
    intro loaded hloaded key' hkey'
    cases hkey.symm.trans hkey'
    exact localPath?_of_loadSource htarget hloaded
  | close => exact h

namespace CacheScene

variable {s s' : CacheScene γ} {event : CacheEvent γ} {path? : String → Option String}
  {keys : List String} {c : CacheCaller}

/-- What is true of a scene while sources are acquired and every entry that is made has some
property: every entry has it, each caller has come for the source of its place, and what a caller is
handed is an entry of its source that has it. -/
structure Furnishes (Q : CachedAsset → Prop) (keys : List String) (s : CacheScene γ) : Prop where
  entries : ∀ e ∈ s.cache.entries, Q e
  sources : ∀ c ∈ s.callers, keys[c.id]? = some c.key
  results : ∀ c ∈ s.callers, ∀ asset, c.state = .done (.ok asset) → asset.key = c.key ∧ Q asset

section
variable {Q : CachedAsset → Prop}

/-- The entries have a property also in a cache that differs in leases and order only. -/
theorem forall_mem_of_alike {c c' : AssetCache} (hQ : IgnoresLeases Q) (halike : c.Alike c')
    (h : ∀ e ∈ c.entries, Q e) : ∀ e ∈ c'.entries, Q e := by
  intro e he
  obtain ⟨e₀, he₀, heq⟩ := halike.symm.exists_mem he
  exact hQ heq (h e₀ he₀)

/-- An answer to a caller. -/
private theorem Furnishes.setCaller (h : s.Furnishes Q keys) (hc : c ∈ s.callers)
    {state : CallerState}
    (hstate : ∀ asset, state = .done (.ok asset) → asset.key = c.key ∧ Q asset) :
    (s.setCaller c.id state).Furnishes Q keys where
  entries := h.entries
  sources o' ho' := by
    obtain ⟨o, ho, rfl⟩ := mem_setCaller.mp ho'
    split <;> exact h.sources o ho
  results o' ho' asset hasset := by
    obtain ⟨o, ho, rfl⟩ := mem_setCaller.mp ho'
    split at hasset
    · next hid =>
      -- The place of a caller fixes its source, so only this caller can be meant.
      have hkey : o.key = c.key := by
        have hsource := h.sources o ho
        rw [hid] at hsource
        exact Option.some.inj (hsource.symm.trans (h.sources c hc))
      rw [if_pos hid, hkey]
      exact hstate asset hasset
    · next hid =>
      rw [if_neg hid]
      exact h.results o ho asset hasset

/-- The entry of a source has the property of all entries. -/
private theorem of_entry_done {c : AssetCache} {source : String}
    {result : Except AssetFault CachedAsset} (hentries : ∀ e ∈ c.entries, Q e)
    (h : ∀ e, result = .ok e → c.entry? source = some e) {asset : CachedAsset}
    (hasset : CallerState.done result = .done (.ok asset)) : asset.key = source ∧ Q asset := by
  cases hasset
  obtain ⟨hmem, rfl⟩ := AssetCache.of_entry?_eq_some (h asset rfl)
  exact ⟨rfl, hentries asset hmem⟩

/-- What is brought for a source makes an entry that has the property. -/
private theorem Furnishes.of_brings {key : String} {loaded : LoadedAsset γ}
    (h : s.Furnishes Q keys) (hevent : event.Makes Q keys)
    (hbrings : s.brings event = some (key, loaded)) : Q (loaded.entry key) := by
  unfold brings at hbrings
  split at hbrings
  · next id _ =>
    split at hbrings
    · next hid =>
      cases hbrings
      obtain ⟨hc, rfl⟩ := of_caller?_eq_some hid
      exact hevent loaded rfl key (h.sources _ hc)
    · cases hbrings
  · cases hbrings

/-- **A step of an acquisition** hands out entries that have a property, if it makes only such. -/
theorem Furnishes.of_acts (h : s.Furnishes Q keys) (hQ : IgnoresLeases Q)
    (hevent : event.Makes Q keys) (hacts : s.Acts event s') : s'.Furnishes Q keys := by
  cases hacts with
  | idle => exact h
  | arrive hnew =>
    subst hnew
    refine ⟨h.entries, fun o ho => ?_, fun o ho asset hasset => ?_⟩
    · obtain ho | ho := List.mem_append.mp ho
      · exact h.sources o ho
      · cases List.mem_singleton.mp ho
        exact hevent
    · obtain ho | ho := List.mem_append.mp ho
      · exact h.results o ho asset hasset
      · cases List.mem_singleton.mp ho
        cases hasset
  | release _ halike => exact ⟨forall_mem_of_alike hQ halike h.entries, h.sources, h.results⟩
  | @begin _ cache' _ halike _ _ hc =>
    have h' : { s with cache := cache' }.Furnishes Q keys :=
      ⟨forall_mem_of_alike hQ halike h.entries, h.sources, h.results⟩
    exact h'.setCaller hc fun _ hasset => nomatch hasset
  | @answer _ cache' _ _ halike hc hok =>
    have h' : { s with cache := cache' }.Furnishes Q keys :=
      ⟨forall_mem_of_alike hQ halike h.entries, h.sources, h.results⟩
    exact h'.setCaller hc fun _ hasset => of_entry_done h'.entries hok hasset
  | @takeIn c cache' loaded _ hbrings hc _ halike hok =>
    have hentries : ∀ e ∈ cache'.entries, Q e := by
      refine forall_mem_of_alike hQ halike fun e he => ?_
      rw [AssetCache.entries_insert] at he
      obtain he | he := List.mem_append.mp (List.mem_of_mem_filter he)
      · exact h.entries e he
      · rw [List.mem_singleton.mp he]
        exact h.of_brings hevent hbrings
    have h' : ({ s with cache := cache', files := loaded.writeTo s.cwd s.files }.removeFiles
        (s.cache.dropped (loaded.entry c.key))).Furnishes Q keys :=
      ⟨hentries, h.sources, h.results⟩
    exact h'.setCaller hc fun _ hasset => of_entry_done hentries hok hasset

/-- **Along an acquisition** that makes only entries with a property, such are handed out. -/
theorem Sound.run_furnishes (hsound : s.Sound) (hQ : IgnoresLeases Q) (h : s.Furnishes Q keys)
    {events : List (CacheEvent γ)} (hevents : ∀ event ∈ events, event.Makes Q keys) :
    (s.run events).Sound ∧ (s.run events).Furnishes Q keys :=
  hsound.run events (fun event hevent => (hevents event hevent).ne_close)
    (fun event hevent _ _ _ hacts hP => hP.of_acts hQ (hevents event hevent) hacts) h

end

theorem ne_close_of_acquires [FileContent γ] {cache : AssetCache}
    (h : cache.Acquires keys event) : event ≠ .close := by
  rintro rfl
  exact h

/-- A scene from which sources are acquired: the callers that were there have gone. -/
def vacated (s : CacheScene γ) : CacheScene γ := { s with callers := [] }

/-- **An acquisition side by side**: callers come for all sources and take their turns in any order,
until each one has its result. -/
structure Gathers [FileContent γ] (s : CacheScene γ) (keys : List String)
    (events : List (CacheEvent γ)) (results : List (Except AssetFault CachedAsset)) : Prop where
  acquires : ∀ event ∈ events, s.cache.Acquires keys event
  results : (List.range keys.length).map (s.vacated.run events).result? = results.map some

/-- An acquisition that nobody else takes part in, and in which every loader finds what is outside
in some condition. -/
structure GathersUnder [FileContent γ] (s : CacheScene γ) (options : LoadOptions)
    (P : Outside γ → Prop) (keys : List String) (events : List (CacheEvent γ))
    (results : List (Except AssetFault CachedAsset)) : Prop where
  loads : ∀ event ∈ events, s.cache.Loads keys options P event
  results : (List.range keys.length).map (s.vacated.run events).result? = results.map some

theorem GathersUnder.gathers [FileContent γ] {options : LoadOptions} {P : Outside γ → Prop}
    {events : List (CacheEvent γ)} {results : List (Except AssetFault CachedAsset)}
    (h : s.GathersUnder options P keys events results) : s.Gathers keys events results :=
  ⟨fun event hevent => (h.loads event hevent).acquires, h.results⟩

theorem of_result?_eq_some {id : Nat} {result : Except AssetFault CachedAsset}
    (h : s.result? id = some result) : ∃ c ∈ s.callers, c.id = id ∧ c.state = .done result := by
  unfold result? at h
  split at h
  · next hid =>
    cases h
    obtain ⟨hc, rfl⟩ := of_caller?_eq_some hid
    exact ⟨_, hc, rfl, rfl⟩
  · cases h

theorem Sound.run_acquires [FileContent γ] (h : s.Sound) {cache : AssetCache}
    {events : List (CacheEvent γ)} (hevents : ∀ event ∈ events, cache.Acquires keys event) :
    (s.run events).Sound ∧ (s.run events).cache.directory = s.cache.directory :=
  h.run (P := fun t => t.cache.directory = s.cache.directory) events
    (fun event hevent => ne_close_of_acquires (hevents event hevent))
    (fun _ _ _ _ _ hacts hdirectory => hacts.kept.1.trans hdirectory) rfl

/-- At the end of an acquisition all entries that were handed out have the right paths. -/
private theorem Gathers.furnishes [FileContent γ] {events : List (CacheEvent γ)}
    {results : List (Except AssetFault CachedAsset)} (h : s.Gathers keys events results)
    (hcache : s.cache.IsFaithful) :
    (s.vacated.run events).Sound ∧
      (s.vacated.run events).Furnishes (fun e => s.cache.localPath? e.key = some e.path) keys := by
  have hsound : s.vacated.Sound := sound_of_callers_eq_nil hcache.keys rfl
  refine hsound.run_furnishes (ignoresLeases_path _) ?_ fun event hevent =>
    (h.acquires event hevent).makes
  exact ⟨hcache.paths, fun c hc => absurd hc List.not_mem_nil,
    fun c hc => absurd hc List.not_mem_nil⟩

/-- **A cache stays faithful** when sources are acquired from it. -/
theorem Gathers.isFaithful [FileContent γ] {events : List (CacheEvent γ)}
    {results : List (Except AssetFault CachedAsset)} (h : s.Gathers keys events results)
    (hcache : s.cache.IsFaithful) : (s.vacated.run events).cache.IsFaithful := by
  obtain ⟨hsound, hfurnishes⟩ := h.furnishes hcache
  have hstart : s.vacated.Sound := sound_of_callers_eq_nil hcache.keys rfl
  have hdirectory := (hstart.run_acquires h.acquires).2
  refine ⟨hsound.keys, fun e he => ?_⟩
  rw [AssetCache.localPath?_congr hdirectory]
  exact hfurnishes.entries e he

/-- What holds of each caller's source and result holds of all sources and results, if each caller
has come for the source of its place. -/
theorem forall₂_of_result? {R : String → Except AssetFault CachedAsset → Prop}
    {results : List (Except AssetFault CachedAsset)}
    (hresults : (List.range keys.length).map s.result? = results.map some)
    (hsources : ∀ c ∈ s.callers, keys[c.id]? = some c.key)
    (h : ∀ c ∈ s.callers, ∀ result, c.state = .done result → R c.key result) :
    List.Forall₂ R keys results := by
  have hlength := congrArg List.length hresults
  rw [List.length_map, List.length_map, List.length_range] at hlength
  refine List.forall₂_iff_get.mpr ⟨hlength, fun i hi hi' => ?_⟩
  have hresult : s.result? i = some results[i] := by
    have hget := congrArg (·[i]?) hresults
    simpa only [List.getElem?_map, List.getElem?_range hi, List.getElem?_eq_getElem hi',
      Option.map_some, Option.some.injEq] using hget
  obtain ⟨c, hc, rfl, hstate⟩ := of_result?_eq_some hresult
  have hkey := hsources c hc
  rw [List.getElem?_eq_getElem hi, Option.some.injEq] at hkey
  rw [List.get_eq_getElem, List.get_eq_getElem, hkey]
  exact h c hc _ hstate

/-- **Each result** of an acquisition is that of the source of its place. -/
theorem Gathers.forall₂_isResultOf [FileContent γ] {events : List (CacheEvent γ)}
    {results : List (Except AssetFault CachedAsset)} (h : s.Gathers keys events results)
    (hcache : s.cache.IsFaithful) :
    List.Forall₂ (IsResultOf s.cache.localPath?) keys results := by
  obtain ⟨-, hfurnishes⟩ := h.furnishes hcache
  refine forall₂_of_result? h.results hfurnishes.sources fun c hc result hstate asset hok => ?_
  obtain ⟨hkey, hpath⟩ := hfurnishes.results c hc asset (hok ▸ hstate)
  exact ⟨hkey, hkey ▸ hpath⟩

/-! ### Sources that are acquired one after another -/

/-- Whether callers have come under some ids, and all of them are done. -/
structure HasServed (s : CacheScene γ) (ids : List Nat) : Prop where
  ids : s.callers.map (·.id) = ids
  done : ∀ c ∈ s.callers, ∃ result, c.state = .done result

/-- Whether callers have come under some ids, and all of them but the last one are done. -/
structure IsServing (s : CacheScene γ) (ids : List Nat) (id : Nat) : Prop where
  ids : s.callers.map (·.id) = ids ++ [id]
  done : ∀ c ∈ s.callers, c.id ≠ id → ∃ result, c.state = .done result

section
variable {ids : List Nat} {id : Nat} {key : String}

theorem caller?_setCaller (s : CacheScene γ) (id : Nat) (state : CallerState) :
    (s.setCaller id state).caller? id = (s.caller? id).map fun c => { c with state } := by
  unfold caller? setCaller
  dsimp only
  rw [List.find?_map]
  have hid : ((fun c : CacheCaller => decide (c.id = id)) ∘
      fun c => if c.id = id then { c with state } else c) = fun c => decide (c.id = id) := by
    funext c
    dsimp only [Function.comp_apply]
    split <;> rfl
  rw [hid]
  exact Option.map_congr fun c hc => if_pos (of_caller?_eq_some hc).2

theorem IsServing.setCaller (h : s.IsServing ids id) (state : CallerState) :
    (s.setCaller id state).IsServing ids id where
  ids := (ids_setCaller s id state).trans h.ids
  done c' hc' hid := by
    obtain ⟨c, hc, rfl⟩ := mem_setCaller.mp hc'
    split at hid
    · next heq => exact absurd heq hid
    · next hne =>
      rw [if_neg hne]
      exact h.done c hc hne

/-- When the last caller is done, all are. -/
theorem IsServing.hasServed (h : s.IsServing ids id) (result : Except AssetFault CachedAsset) :
    (s.setCaller id (.done result)).HasServed (ids ++ [id]) where
  ids := (ids_setCaller s id _).trans h.ids
  done c' hc' := by
    obtain ⟨c, hc, rfl⟩ := mem_setCaller.mp hc'
    split
    · exact ⟨result, rfl⟩
    · next hne => exact h.done c hc hne

theorem HasServed.exists_result (h : s.HasServed ids) (hid : id ∈ ids) :
    ∃ result, s.result? id = some result := by
  rw [← h.ids] at hid
  obtain ⟨c₀, hc₀, hid⟩ := List.mem_map.mp hid
  have hsome : s.caller? id ≠ none := fun hnone => by
    unfold caller? at hnone
    exact List.find?_eq_none.mp hnone c₀ hc₀ (decide_eq_true hid)
  obtain ⟨c, hcaller⟩ := Option.ne_none_iff_exists'.mp hsome
  obtain ⟨result, hstate⟩ := h.done c (of_caller?_eq_some hcaller).1
  obtain ⟨id', key, state⟩ := c
  subst hstate
  refine ⟨result, ?_⟩
  unfold result?
  rw [hcaller]

theorem HasServed.arrive (h : s.HasServed ids) (key : String) (hid : id ∉ ids) :
    (s.step (.arrive id key)).IsServing ids id ∧
      (s.step (.arrive id key)).caller? id = some { id, key } := by
  have hnew : s.caller? id = none := by
    refine List.find?_eq_none.mpr fun c hc heq => hid ?_
    rw [← h.ids, ← of_decide_eq_true heq]
    exact List.mem_map_of_mem hc
  have hstep : s.step (.arrive id key) = { s with callers := s.callers ++ [{ id, key }] } := by
    unfold step
    dsimp only
    rw [hnew]
    rfl
  rw [hstep]
  refine ⟨⟨?_, fun c hc hne => ?_⟩, ?_⟩
  · rw [List.map_append, h.ids]
    rfl
  · obtain hc | hc := List.mem_append.mp hc
    · exact h.done c hc
    · exact absurd (congrArg (·.id) (List.mem_singleton.mp hc)) hne
  · unfold caller? at hnew ⊢
    dsimp only
    rw [List.find?_append, hnew, Option.none_or]
    exact List.find?_cons_of_pos (decide_eq_true rfl)

/-- Nobody goes before the last caller. -/
theorem IsServing.isTurn (h : s.IsServing ids id) (hc : s.caller? id = some c)
    (hwaiting : c.state = .waiting) (hnodup : (s.callers.map (·.id)).Nodup) :
    s.isTurn c = true := by
  unfold CacheScene.isTurn
  dsimp only
  rw [Bool.and_eq_true, List.all_eq_true, List.all_eq_true]
  obtain ⟨hmem, rfl⟩ := of_caller?_eq_some hc
  refine ⟨fun o ho => ?_, fun o ho => ?_⟩
  · have ho := List.mem_of_mem_filter ho
    by_cases hid : o.id = c.id
    · rw [List.inj_on_of_nodup_map hnodup ho hmem hid, hwaiting]
    · obtain ⟨result, hstate⟩ := h.done o ho hid
      rw [hstate]
  · have hid : o.id ≠ c.id := by simpa using List.mem_takeWhile_imp ho
    have ho := List.mem_of_mem_filter ((List.takeWhile_sublist _).subset ho)
    obtain ⟨result, hstate⟩ := h.done o ho hid
    rw [hstate]

/-- **A caller that comes when all others are done** is served at once: it is done too, or it
loads. -/
theorem HasServed.acquire (h : s.HasServed ids) (hsound : s.Sound) (key : String)
    (hid : id ∉ ids) :
    ((s.step (.arrive id key)).step (.serve id)).HasServed (ids ++ [id]) ∨
    ((s.step (.arrive id key)).step (.serve id)).IsServing ids id ∧
      ((s.step (.arrive id key)).step (.serve id)).caller? id = some { id, key, state := .loading } ∧
      ∃ target, ((s.step (.arrive id key)).step (.serve id)).cache.pathFor key = .ok target := by
  obtain ⟨hserving, hcaller⟩ := h.arrive key hid
  have hsound : (s.step (.arrive id key)).Sound := hsound.step nofun
  generalize s.step (.arrive id key) = t at hserving hcaller hsound ⊢
  have hstep : t.step (.serve id) = t.serve { id, key } := by
    unfold step
    dsimp only
    rw [hcaller]
    exact if_pos (hserving.isTurn hcaller rfl hsound.ids)
  rw [hstep]
  obtain ⟨cache, result, heq, -⟩ | ⟨cache, target, heq, -, -, htarget⟩ :=
    serve_cases (s := t) (c := { id, key }) hsound.keys
  · have hserving : { t with cache }.IsServing ids id := ⟨hserving.ids, hserving.done⟩
    rw [heq]
    exact .inl (hserving.hasServed result)
  · have hserving : { t with cache }.IsServing ids id := ⟨hserving.ids, hserving.done⟩
    rw [heq]
    refine .inr ⟨hserving.setCaller _, ?_, target, htarget⟩
    rw [caller?_setCaller]
    exact congrArg (Option.map _) hcaller

/-- A caller that loads is done when its loader has ended. -/
theorem IsServing.finish (h : s.IsServing ids id) (hsound : s.Sound)
    (hcaller : s.caller? id = some { id, key, state := .loading })
    (outcome : Except AssetFault (LoadedAsset γ)) :
    (s.step (.finish id outcome)).HasServed (ids ++ [id]) := by
  have hc := (of_caller?_eq_some hcaller).1
  have hstep : s.step (.finish id outcome) = s.finish { id, key, state := .loading } outcome := by
    unfold step
    dsimp only
    rw [hcaller]
  obtain ⟨-, t, result, heq, hcallers⟩ := finish_spec (c := { id, key, state := .loading })
    hsound.keys (hsound.vacant _ hc rfl) hcaller rfl outcome
  have hserving : t.IsServing ids id := ⟨hcallers ▸ h.ids, hcallers ▸ h.done⟩
  rw [hstep, heq]
  exact hserving.hasServed result

theorem run_append (s : CacheScene γ) (events events' : List (CacheEvent γ)) :
    s.run (events ++ events') = (s.run events).run events' :=
  List.foldl_append

/-- **Acquiring sources one after another** is a way to acquire them side by side, in which the
same sources are probed. What is outside is in the same condition at every load if loading leaves it
so. -/
theorem exists_run_acquireInOrder [FileContent γ] (options : LoadOptions) (probed : List String)
    {cache : AssetCache} {P : Outside γ → Prop}
    (hP : ∀ files probed key target o, P o → P (loadSource options files probed key target o).2)
    {sources : List (Nat × String)} (hkeys : ∀ p ∈ sources, keys[p.1]? = some p.2)
    (hnodup : (ids ++ sources.map (·.1)).Nodup) (hsound : s.Sound)
    (hdirectory : s.cache.directory = cache.directory) (h : s.HasServed ids) {o : Outside γ}
    (ho : P o) :
    ∃ events, (acquireInOrder options probed sources s o).1 = s.run events ∧
      (∀ event ∈ events, cache.Probes keys probed options P event) ∧
      (s.run events).HasServed (ids ++ sources.map (·.1)) := by
  induction sources generalizing s ids o with
  | nil =>
    rw [List.map_nil, List.append_nil]
    exact ⟨[], rfl, fun _ hevent => absurd hevent List.not_mem_nil, h⟩
  | cons p sources ih =>
    obtain ⟨id, key⟩ := p
    obtain ⟨hkey, hkeys⟩ := List.forall_mem_cons.mp hkeys
    rw [List.map_cons, List.append_cons] at hnodup ⊢
    have hid : id ∉ ids := by
      have := (List.nodup_append.mp hnodup).1
      exact fun hmem => (List.nodup_append.mp this).2.2 id hmem id (List.mem_singleton_self id) rfl
    have hrest : ∀ (first : List (CacheEvent γ)) {o : Outside γ}, P o →
        (∀ event ∈ first, cache.Probes keys probed options P event) →
        (s.run first).HasServed (ids ++ [id]) →
        ∃ events, (acquireInOrder options probed sources (s.run first) o).1 = s.run events ∧
          (∀ event ∈ events, cache.Probes keys probed options P event) ∧
          (s.run events).HasServed (ids ++ [id] ++ sources.map (·.1)) := by
      intro first o ho hfirst hserved
      obtain ⟨hsound', hdirectory'⟩ :=
        hsound.run_acquires fun event hevent => (hfirst event hevent).loads.acquires
      obtain ⟨events, hrun, hevents, hdone⟩ :=
        ih hkeys hnodup hsound' (hdirectory'.trans hdirectory) hserved ho
      rw [← run_append] at hrun hdone
      exact ⟨first ++ events, hrun, List.forall_mem_append.mpr ⟨hfirst, hevents⟩, hdone⟩
    let first : List (CacheEvent γ) := [.arrive id key, .serve id]
    have hfirst : ∀ event ∈ first, cache.Probes keys probed options P event :=
      List.forall_mem_cons.mpr ⟨hkey, List.forall_mem_singleton.mpr trivial⟩
    obtain ⟨hsound', hdirectory'⟩ :=
      hsound.run_acquires fun event hevent => (hfirst event hevent).loads.acquires
    have hserved := h.acquire hsound key hid
    have hrun : (s.step (.arrive id key)).step (.serve id) = s.run first := rfl
    unfold acquireInOrder
    dsimp only
    rw [hrun] at hserved ⊢
    split
    · next target hcaller htarget =>
      obtain ⟨-, hdone⟩ | ⟨hserving, hcaller, -⟩ := hserved
      · obtain ⟨result, hstate⟩ := hdone _ (of_caller?_eq_some hcaller).1
        cases hstate
      · let outcome := (loadSource options (s.run first).files (probed.contains key) key target o).1
        have hfinish : cache.Probes keys probed options P (.finish id outcome) := by
          rw [AssetCache.pathFor_congr (hdirectory'.trans hdirectory)] at htarget
          exact ⟨key, target, hkey, htarget, _, o, ho, rfl⟩
        refine hrest (first ++ [.finish id outcome]) (hP _ _ _ _ _ ho)
          (List.forall_mem_append.mpr ⟨hfirst, List.forall_mem_singleton.mpr hfinish⟩) ?_
        rw [run_append]
        exact hserving.finish hsound' hcaller outcome
    · next hother =>
      obtain hserved | ⟨-, hcaller, target, htarget⟩ := hserved
      · exact hrest first ho hfirst hserved
      · exact absurd htarget (hother _ _ _ hcaller)

end

end CacheScene

end TimelineExport
