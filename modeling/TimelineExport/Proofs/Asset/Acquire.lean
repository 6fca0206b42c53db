import TimelineExport.Asset.Acquire
import TimelineExport.Proofs.Asset.Cache
import TimelineExport.Proofs.Files.Tree

/-!
# What callers find in a cache that they share

However the turns of its callers interleave, a cache stays within its budgets, and every event
spares the entries that are in use (`CacheScene.within_budgets`). Files are taken away together
with the entries that own them. A path is not bound to one source, though: a loader may name a
file that belongs to the entry of another source, and that file goes with its owner, whoever else
uses it (`CacheScene.evicted_owner_takes_borrowed_file`).
-/

namespace TimelineExport

variable {γ : Type}

/-- The entry that is made of what was loaded for a source. -/
def LoadedAsset.entry (l : LoadedAsset γ) (key : String) : CachedAsset :=
  { key, path := l.path, size := l.size, owned := l.owned, hasAudio := l.hasAudio }

/-- The files once a loader has written what it loaded. -/
def LoadedAsset.writeTo (l : LoadedAsset γ) (cwd : Place) (files : FileTree γ) : FileTree γ :=
  match l.written with
  | some content => files.put (resolvePath cwd l.path) (.file content)
  | none => files

namespace CacheScene

variable {s s' : CacheScene γ} {c : CacheCaller} {event : CacheEvent γ} {e : CachedAsset}

/-! ### What an event does to entries and files -/

/-- The source that a caller was loading until an event, and what was loaded for it. -/
def brings (s : CacheScene γ) : CacheEvent γ → Option (String × LoadedAsset γ)
  | .finish id (.ok loaded) =>
    match s.caller? id with
    | some ⟨_, key, .loading⟩ => some (key, loaded)
    | _ => none
  | _ => none

/-- A caller that does not load brings nothing. -/
theorem brings_finish_eq_none {id : Nat} {outcome : Except AssetFault (LoadedAsset γ)}
    (hstate : ∀ c, s.caller? id = some c → c.state ≠ .loading) :
    s.brings (.finish id outcome) = none := by
  unfold brings
  split
  · split
    · next heq _ _ _ hid =>
      cases heq
      exact absurd rfl (hstate _ hid)
    · rfl
  · rfl

/-- The files at an event, once what was loaded is written and before anything is removed. -/
def written (s : CacheScene γ) (event : CacheEvent γ) : FileTree γ :=
  match s.brings event with
  | some (_, loaded) => loaded.writeTo s.cwd s.files
  | none => s.files

/-- Whether an event removes an entry: one that was there, or one that was loaded and is refused
at once. -/
def Removes (s : CacheScene γ) (event : CacheEvent γ) (e : CachedAsset) : Prop :=
  (e ∈ s.cache.entries ∨ ∃ key loaded, s.brings event = some (key, loaded) ∧ e = loaded.entry key) ∧
    (s.step event).cache.IsVacant e.key

/-- What can be relied on at an event. -/
structure Careful (s : CacheScene γ) (event : CacheEvent γ) : Prop where
  /-- An entry that is leased is kept. -/
  keeps_leased : ∀ e ∈ s.cache.entries, 0 < e.leases →
    ∃ e' ∈ (s.step event).cache.entries, e'.unleased = e.unleased
  /-- The file of a removed entry that the cache owns is deleted. -/
  deletes_removed : ∀ e, s.Removes event e → e.owned = true →
    (s.step event).files.isFile (resolvePath s.cwd e.path) = false
  /-- A file is deleted only with an entry that owns it, is not leased and is removed. -/
  deletes_only_removed : ∀ place, (s.written event).isFile place = true →
    (s.step event).files.isFile place = false →
      ∃ e, s.Removes event e ∧ e.owned = true ∧ e.leases = 0 ∧ resolvePath s.cwd e.path = place
  /-- A caller whose acquisition fails leaves no entry of its source. -/
  leaves_none : ∀ c ∈ (s.step event).callers, ∀ fault, c.state = .done (.error fault) →
    (∀ c₀ ∈ s.callers, c₀.id = c.id → c₀.state ≠ c.state) →
      (s.step event).cache.IsVacant c.key

/-! ### Callers -/

theorem of_caller?_eq_some {id : Nat} (h : s.caller? id = some c) : c ∈ s.callers ∧ c.id = id :=
  ⟨List.mem_of_find?_eq_some h, by simpa using List.find?_some h⟩

theorem mem_setCaller {id : Nat} {state : CallerState} :
    c ∈ (s.setCaller id state).callers ↔
      ∃ c₀ ∈ s.callers, (if c₀.id = id then { c₀ with state } else c₀) = c :=
  List.mem_map

theorem ids_setCaller (s : CacheScene γ) (id : Nat) (state : CallerState) :
    (s.setCaller id state).callers.map (·.id) = s.callers.map (·.id) := by
  unfold setCaller
  rw [List.map_map]
  refine List.map_congr_left fun c _ => ?_
  dsimp only [Function.comp_apply]
  split <;> rfl

/-- A caller whose turn it is finds nobody loading its source. -/
theorem not_loading_of_isTurn (h : s.isTurn c = true) {o : CacheCaller} (ho : o ∈ s.callers)
    (hkey : o.key = c.key) : o.state ≠ .loading := by
  intro hstate
  unfold isTurn at h
  rw [Bool.and_eq_true, List.all_eq_true] at h
  have := h.1 o (List.mem_filter.mpr ⟨ho, decide_eq_true hkey⟩)
  rw [hstate] at this
  cases this

/-! ### Files -/

/-- **Removing the files of dropped entries** removes those of the owned ones, and no other. -/
theorem isFile_removeFiles {dropped : List CachedAsset} {place : Place} :
    (s.removeFiles dropped).files.isFile place = true ↔
      s.files.isFile place = true ∧
        ∀ e ∈ dropped, e.owned = true → resolvePath s.cwd e.path ≠ place := by
  unfold removeFiles
  dsimp only
  generalize s.files = files
  induction dropped generalizing files with
  | nil => simp
  | cons e dropped ih =>
    rw [List.foldl_cons, ih, List.forall_mem_cons, ← and_assoc]
    refine and_congr_left' ?_
    by_cases howned : e.owned = true
    · rw [howned, Bool.true_and, imp_iff_right rfl]
      split
      · rw [FileTree.isFile_erase_iff, ne_comm]
      · next habsent =>
        refine ⟨fun h => ⟨h, ?_⟩, And.left⟩
        rintro rfl
        exact habsent h
    · simp [howned]

/-! ### One event -/

/-- A step of a scene: what an event leaves, and on what grounds. -/
inductive Acts (s : CacheScene γ) (event : CacheEvent γ) : CacheScene γ → Prop where
  | idle (hnone : s.brings event = none) : Acts s event s
  | arrive {id : Nat} {key : String} (hevent : event = .arrive id key) (hnew : s.caller? id = none) :
    Acts s event { s with callers := s.callers ++ [{ id, key }] }
  | release {cache : AssetCache} (hnone : s.brings event = none) (halike : s.cache.Alike cache) :
    Acts s event { s with cache }
  /-- A caller begins to load. -/
  | begin {c : CacheCaller} {cache : AssetCache} (hnone : s.brings event = none) (halike : s.cache.Alike cache)
    (hvacant : s.cache.IsVacant c.key)
    (halone : ∀ o ∈ s.callers, o.key = c.key → o.state ≠ .loading) (hc : c ∈ s.callers) :
    Acts s event ({ s with cache }.setCaller c.id .loading)
  /-- A caller is done, with the entry of its source or without one. -/
  | answer {c : CacheCaller} {cache : AssetCache} {result : Except AssetFault CachedAsset}
    (hnone : s.brings event = none) (halike : s.cache.Alike cache) (hc : c ∈ s.callers)
    (hok : ∀ e, result = .ok e → cache.entry? c.key = some e)
    (herror : ∀ fault, result = .error fault → s.cache.IsVacant c.key) :
    Acts s event ({ s with cache }.setCaller c.id (.done result))
  /-- A caller is done, and what it has loaded is taken in or refused. -/
  | takeIn {c : CacheCaller} {cache : AssetCache} {loaded : LoadedAsset γ}
    {result : Except AssetFault CachedAsset} (hbrings : s.brings event = some (c.key, loaded))
    (hc : c ∈ s.callers) (hloading : c.state = .loading)
    (halike : (s.cache.insert (loaded.entry c.key)).1.Alike cache)
    (hok : ∀ e, result = .ok e → cache.entry? c.key = some e)
    (herror : ∀ fault, result = .error fault → s.cache.IsRefused (loaded.entry c.key)) :
    Acts s event (({ s with cache, files := loaded.writeTo s.cwd s.files }.removeFiles
      (s.cache.dropped (loaded.entry c.key))).setCaller c.id (.done result))

/-- A leased entry is handed out to its caller. -/
theorem exists_handOut (hkeys : (s.cache.entries.map (·.key)).Nodup)
    (he : s.cache.entry? c.key = some e) :
    ∃ e', AssetCache.entry? (s.cache.lease c.key) c.key = some e' ∧ s.handOut c =
      { s with cache := s.cache.lease c.key }.setCaller c.id (.done (.ok e')) := by
  have halike := AssetCache.alike_lease hkeys c.key
  obtain ⟨e', he'⟩ := Option.ne_none_iff_exists'.mp fun h =>
    nomatch he.symm.trans (halike.isVacant_iff.mp h)
  exact ⟨e', he', by simp only [handOut, he']⟩

/-- **Serving a caller** answers it from the cache, or lets it load. -/
theorem serve_cases (hkeys : (s.cache.entries.map (·.key)).Nodup) :
    (∃ cache result, s.serve c = { s with cache }.setCaller c.id (.done result) ∧
      s.cache.Alike cache ∧ (∀ e, result = .ok e → cache.entry? c.key = some e) ∧
      ∀ fault, result = .error fault → s.cache.IsVacant c.key) ∨
    ∃ cache target, s.serve c = { s with cache }.setCaller c.id .loading ∧
      s.cache.Alike cache ∧ s.cache.IsVacant c.key ∧ cache.pathFor c.key = .ok target := by
  unfold serve
  split
  · next e he =>
    obtain ⟨e', he', heq⟩ := exists_handOut
      (s := { s with cache := { s.cache with hits := s.cache.hits + 1 } }) hkeys he
    have halike := AssetCache.alike_lease
      (c := { s.cache with hits := s.cache.hits + 1 }) hkeys c.key
    refine .inl ⟨_, _, heq, ⟨halike.directory, halike.limits, halike.entries⟩, fun _ h => ?_,
      fun _ h => nomatch h⟩
    exact Except.ok.inj h ▸ he'
  · next he =>
    have halike : s.cache.Alike { s.cache with misses := s.cache.misses + 1 } := ⟨rfl, rfl, .refl _⟩
    dsimp only
    split
    · exact .inl ⟨_, _, rfl, halike, (fun _ h => nomatch h), fun _ _ => he⟩
    · next target htarget => exact .inr ⟨_, target, rfl, halike, he, htarget⟩

theorem acts_serve (hkeys : (s.cache.entries.map (·.key)).Nodup) (hnone : s.brings event = none)
    (hc : c ∈ s.callers) (hturn : s.isTurn c = true) : Acts s event (s.serve c) := by
  obtain ⟨cache, result, heq, halike, hok, herror⟩ | ⟨cache, _, heq, halike, hvacant, -⟩ :=
    serve_cases (c := c) hkeys
  · rw [heq]
    exact .answer hnone halike hc hok herror
  · rw [heq]
    exact .begin hnone halike hvacant (fun o ho => not_loading_of_isTurn hturn ho) hc

/-- The scene in which what a caller has loaded is taken in or refused, and the caller does not
know yet. -/
def takingIn (s : CacheScene γ) (key : String) (loaded : LoadedAsset γ) : CacheScene γ :=
  { s with
    cache := (s.cache.insert (loaded.entry key)).1
    files := loaded.writeTo s.cwd s.files }.removeFiles (s.cache.dropped (loaded.entry key))

theorem finish_of_isRefused {loaded : LoadedAsset γ}
    (h : s.cache.IsRefused (loaded.entry c.key)) :
    ∃ error, s.finish c (.ok loaded) =
      (s.takingIn c.key loaded).setCaller c.id (.done (.error (.resolution error))) := by
  unfold finish takingIn AssetCache.dropped
  dsimp only
  rw [← LoadedAsset.entry, AssetCache.insert_of_isRefused h]
  exact ⟨_, rfl⟩

theorem finish_of_not_isRefused {loaded : LoadedAsset γ}
    (h : ¬ s.cache.IsRefused (loaded.entry c.key)) :
    s.finish c (.ok loaded) = (s.takingIn c.key loaded).handOut c := by
  unfold finish takingIn AssetCache.dropped
  dsimp only
  rw [← LoadedAsset.entry, AssetCache.insert_of_not_isRefused h]
  rfl

/-- **What a caller has loaded** is taken in or refused, and then the caller is done. -/
theorem finish_spec (hkeys : (s.cache.entries.map (·.key)).Nodup)
    (hvacant : s.cache.IsVacant c.key) (hid : s.caller? c.id = some c)
    (hloading : c.state = .loading) (outcome : Except AssetFault (LoadedAsset γ)) :
    Acts s (.finish c.id outcome) (s.finish c outcome) ∧
      ∃ t result, s.finish c outcome = setCaller t c.id (.done result) ∧
        t.callers = s.callers := by
  have hc := (of_caller?_eq_some hid).1
  cases outcome with
  | error fault =>
    exact ⟨.answer rfl ⟨rfl, rfl, .refl _⟩ hc (fun _ h => nomatch h) fun _ _ => hvacant,
      s, _, rfl, rfl⟩
  | ok loaded =>
    have hbrings : s.brings (.finish c.id (.ok loaded)) = some (c.key, loaded) := by
      obtain ⟨id, key, state⟩ := c
      subst hloading
      simp only [brings, hid]
    by_cases hrefused : s.cache.IsRefused (loaded.entry c.key)
    · obtain ⟨error, heq⟩ := finish_of_isRefused hrefused
      rw [heq]
      exact ⟨.takeIn hbrings hc hloading ⟨rfl, rfl, .refl _⟩ (fun _ h => nomatch h)
        fun _ _ => hrefused, _, _, rfl, rfl⟩
    · have hnodup := AssetCache.nodup_insert (e := loaded.entry c.key) hkeys hvacant
      obtain ⟨e, he⟩ := AssetCache.exists_entry_of_mem
        (AssetCache.mem_insert_of_not_isRefused hrefused)
      obtain ⟨e', he', heq⟩ := exists_handOut (s := s.takingIn c.key loaded) hnodup he
      rw [finish_of_not_isRefused hrefused, heq]
      refine ⟨.takeIn hbrings hc hloading (AssetCache.alike_lease hnodup c.key) (fun _ h => ?_)
        (fun _ h => nomatch h), _, _, rfl, rfl⟩
      exact Except.ok.inj h ▸ he'

/-! ### Every event -/

/-- What is true of a scene at every time: a source has one entry, and of the callers of one
source at most one loads it, as long as it has no entry. -/
structure Sound (s : CacheScene γ) : Prop where
  keys : (s.cache.entries.map (·.key)).Nodup
  ids : (s.callers.map (·.id)).Nodup
  vacant : ∀ c ∈ s.callers, c.state = .loading → s.cache.IsVacant c.key
  alone : ∀ c ∈ s.callers, ∀ c' ∈ s.callers, c.state = .loading → c'.state = .loading →
    c.key = c'.key → c = c'

/-- What happens at an event is a step, unless the cache is closed. -/
theorem Sound.acts_step (h : s.Sound) (hopen : event ≠ .close) : Acts s event (s.step event) := by
  cases event with
  | arrive id key =>
    unfold step
    dsimp only
    split
    · exact .idle rfl
    · next hnew => exact .arrive rfl (Option.not_isSome_iff_eq_none.mp hnew)
  | serve id =>
    unfold step
    dsimp only
    split
    · next c hid =>
      split
      · split
        · next hturn => exact acts_serve h.keys rfl (of_caller?_eq_some hid).1 hturn
        · exact .idle rfl
      · exact .idle rfl
    · exact .idle rfl
  | finish id outcome =>
    unfold step
    dsimp only
    split
    · next c hid =>
      obtain ⟨hc, rfl⟩ := of_caller?_eq_some hid
      split
      · next hloading =>
        exact (finish_spec h.keys (h.vacant c hc hloading) hid hloading outcome).1
      · next hstate =>
        refine .idle (brings_finish_eq_none fun c' hc' => ?_)
        cases hid.symm.trans hc'
        exact hstate
    · next hid =>
      exact .idle (brings_finish_eq_none fun c' hc' => nomatch hid.symm.trans hc')
  | release key => exact .release rfl (AssetCache.alike_release _ _)
  | close => exact absurd rfl hopen

/-- A caller that is done loads no more, and no other one begins to. -/
private theorem loading_of_mem_done {id : Nat} {result : Except AssetFault CachedAsset}
    (hc : c ∈ (s.setCaller id (.done result)).callers) (hloading : c.state = .loading) :
    c ∈ s.callers ∧ c.id ≠ id := by
  obtain ⟨c₀, hc₀, rfl⟩ := mem_setCaller.mp hc
  split at hloading
  · cases hloading
  · next hid =>
    rw [if_neg hid]
    exact ⟨hc₀, hid⟩

/-- A scene is sound after a caller is done if the sources that others load have no entry. -/
private theorem Sound.conclude (h : s.Sound) {cache : AssetCache} {files : FileTree γ}
    (hkeys : (cache.entries.map (·.key)).Nodup) (id : Nat)
    (result : Except AssetFault CachedAsset)
    (hvacant : ∀ o ∈ s.callers, o.id ≠ id → o.state = .loading → cache.IsVacant o.key) :
    ({ s with cache, files }.setCaller id (.done result)).Sound where
  keys := hkeys
  ids := by
    rw [ids_setCaller]
    exact h.ids
  vacant o ho hloading := by
    obtain ⟨ho, hid⟩ := loading_of_mem_done ho hloading
    exact hvacant o ho hid hloading
  alone o ho o' ho' hloading hloading' hkey :=
    h.alone o (loading_of_mem_done ho hloading).1 o' (loading_of_mem_done ho' hloading').1
      hloading hloading' hkey

private theorem Sound.begin (h : s.Sound) {cache : AssetCache} (halike : s.cache.Alike cache)
    (hc : c ∈ s.callers) (hvacant : s.cache.IsVacant c.key)
    (halone : ∀ o ∈ s.callers, o.key = c.key → o.state ≠ .loading) :
    ({ s with cache }.setCaller c.id .loading).Sound := by
  have hunique : ∀ o ∈ s.callers, o.id = c.id → o = c := fun o ho =>
    List.inj_on_of_nodup_map h.ids ho hc
  have hmem : ∀ o ∈ ({ s with cache }.setCaller c.id .loading).callers, o.state = .loading →
      o = { c with state := .loading } ∨ (o ∈ s.callers ∧ o.key ≠ c.key) := by
    intro o ho hloading
    obtain ⟨o₀, ho₀, rfl⟩ := mem_setCaller.mp ho
    split at hloading
    · next hid =>
      rw [if_pos hid, hunique o₀ ho₀ hid]
      exact .inl rfl
    · next hid =>
      rw [if_neg hid]
      exact .inr ⟨ho₀, fun hkey => halone o₀ ho₀ hkey hloading⟩
  refine ⟨halike.nodup_iff.mpr h.keys, ?_, ?_, ?_⟩
  · rw [ids_setCaller]
    exact h.ids
  · intro o ho hloading
    refine halike.isVacant_iff.mpr ?_
    obtain rfl | ⟨ho, -⟩ := hmem o ho hloading
    · exact hvacant
    · exact h.vacant o ho hloading
  · intro o ho o' ho' hloading hloading' hkey
    obtain rfl | ⟨ho, hne⟩ := hmem o ho hloading <;>
      obtain rfl | ⟨ho', hne'⟩ := hmem o' ho' hloading'
    · rfl
    · exact absurd hkey.symm hne'
    · exact absurd hkey hne
    · exact h.alone o ho o' ho' hloading hloading' hkey

/-- **A step** keeps a scene sound. -/
theorem Sound.of_acts (h : s.Sound) (hacts : s.Acts event s') : s'.Sound := by
  cases hacts with
  | idle => exact h
  | @arrive id key _ hnew =>
    have hmem : ∀ o ∈ s.callers ++ [{ id, key : CacheCaller }], o.state = .loading → o ∈ s.callers := by
      intro o ho hloading
      obtain ho | ho := List.mem_append.mp ho
      · exact ho
      · cases List.mem_singleton.mp ho
        cases hloading
    refine ⟨h.keys, ?_, fun o ho hloading => h.vacant o (hmem o ho hloading) hloading,
      fun o ho o' ho' hloading hloading' => h.alone o (hmem o ho hloading) o'
        (hmem o' ho' hloading') hloading hloading'⟩
    rw [List.map_append, List.map_singleton]
    refine List.nodup_append.mpr ⟨h.ids, List.nodup_singleton _, ?_⟩
    rintro id' hid' _ hid rfl
    obtain ⟨o, ho, rfl⟩ := List.mem_map.mp hid'
    exact absurd (List.find?_eq_none.mp hnew o ho)
      (not_not.mpr (decide_eq_true (List.mem_singleton.mp hid)))
  | release _ halike =>
    exact ⟨halike.nodup_iff.mpr h.keys, h.ids,
      fun o ho hloading => halike.isVacant_iff.mpr (h.vacant o ho hloading), h.alone⟩
  | begin _ halike hvacant halone hc => exact h.begin halike hc hvacant halone
  | answer _ halike =>
    exact h.conclude (halike.nodup_iff.mpr h.keys) _ _
      fun o ho _ hloading => halike.isVacant_iff.mpr (h.vacant o ho hloading)
  | @takeIn c cache loaded _ _ hc hloading halike =>
    have hnodup := AssetCache.nodup_insert (e := loaded.entry c.key) h.keys (h.vacant c hc hloading)
    refine h.conclude (halike.nodup_iff.mpr hnodup) _ _ fun o ho hid hloading' => ?_
    have hkey : o.key ≠ c.key := fun hkey =>
      hid (congrArg (·.id) (h.alone o ho c hc hloading' hloading hkey))
    refine halike.isVacant_iff.mpr ?_
    exact AssetCache.isVacant_insert_of_ne hkey (h.vacant o ho hloading')

theorem Sound.step (h : s.Sound) (hopen : event ≠ .close) : (s.step event).Sound :=
  h.of_acts (h.acts_step hopen)

/-- The source of what an event brings has no entry. -/
theorem Sound.vacant_of_brings (h : s.Sound) {key : String} {loaded : LoadedAsset γ}
    (hbrings : s.brings event = some (key, loaded)) : s.cache.IsVacant key := by
  unfold brings at hbrings
  split at hbrings
  · split at hbrings
    · next hid =>
      cases hbrings
      exact h.vacant _ (of_caller?_eq_some hid).1 rfl
    · cases hbrings
  · cases hbrings

/-- **Entries and files after a step**: both stay as they are unless something was loaded, and then
what is dropped for it is removed with its files. -/
theorem Acts.cache_cases (hacts : s.Acts event s') :
    (s.brings event = none ∧ s.cache.Alike s'.cache ∧ s'.files = s.files) ∨
      ∃ key loaded, s.brings event = some (key, loaded) ∧
        (s.cache.insert (loaded.entry key)).1.Alike s'.cache ∧
        ∀ place, s'.files.isFile place = true ↔
          (loaded.writeTo s.cwd s.files).isFile place = true ∧
            ∀ e ∈ s.cache.dropped (loaded.entry key), e.owned = true →
              resolvePath s.cwd e.path ≠ place := by
  cases hacts with
  | idle hnone => exact .inl ⟨hnone, ⟨rfl, rfl, .refl _⟩, rfl⟩
  | arrive hevent =>
    subst hevent
    exact .inl ⟨rfl, ⟨rfl, rfl, .refl _⟩, rfl⟩
  | release hnone halike => exact .inl ⟨hnone, halike, rfl⟩
  | begin hnone halike => exact .inl ⟨hnone, halike, rfl⟩
  | answer hnone halike => exact .inl ⟨hnone, halike, rfl⟩
  | takeIn hbrings _ _ halike => exact .inr ⟨_, _, hbrings, halike, fun _ => isFile_removeFiles⟩

/-- **What is dropped for what was loaded** is what the event removes. -/
theorem Sound.mem_dropped_iff (h : s.Sound) {key : String} {loaded : LoadedAsset γ}
    (hbrings : s.brings event = some (key, loaded))
    (halike : (s.cache.insert (loaded.entry key)).1.Alike (s.step event).cache) :
    e ∈ s.cache.dropped (loaded.entry key) ↔ s.Removes event e := by
  rw [AssetCache.mem_dropped_iff h.keys (h.vacant_of_brings hbrings),
    ← halike.isVacant_iff]
  unfold Removes
  simp only [hbrings, Option.some.injEq, Prod.mk.injEq, and_assoc, exists_and_left, exists_eq_left']

/-- A caller that fails in a step is the one that is done. -/
private theorem Sound.eq_of_mem_done (h : s.Sound) {t : CacheScene γ} {c₁ : CacheCaller}
    (hc₁ : c₁ ∈ s.callers) {state : CallerState} (hcallers : t.callers = s.callers)
    (hc : c ∈ (t.setCaller c₁.id state).callers)
    (hnew : ∀ c₀ ∈ s.callers, c₀.id = c.id → c₀.state ≠ c.state) : c = { c₁ with state } := by
  obtain ⟨c₀, hc₀, rfl⟩ := mem_setCaller.mp hc
  rw [hcallers] at hc₀
  split at hnew
  · next hid =>
    rw [if_pos hid, List.inj_on_of_nodup_map h.ids hc₀ hc₁ hid]
  · exact absurd rfl (hnew c₀ hc₀ rfl)

/-- A caller whose acquisition fails in a step leaves no entry of its source. -/
private theorem Sound.leaves_none (h : s.Sound) (hacts : s.Acts event s') (hc : c ∈ s'.callers)
    {fault : AssetFault} (hstate : c.state = .done (.error fault))
    (hnew : ∀ c₀ ∈ s.callers, c₀.id = c.id → c₀.state ≠ c.state) :
    s'.cache.IsVacant c.key := by
  cases hacts with
  | idle => exact absurd rfl (hnew c hc rfl)
  | arrive =>
    obtain hc | hc := List.mem_append.mp hc
    · exact absurd rfl (hnew c hc rfl)
    · rw [List.mem_singleton.mp hc] at hstate
      cases hstate
  | release => exact absurd rfl (hnew c hc rfl)
  | begin _ _ _ _ hc₁ =>
    rw [h.eq_of_mem_done hc₁ rfl hc hnew] at hstate
    cases hstate
  | answer _ halike hc₁ _ herror =>
    have heq := h.eq_of_mem_done hc₁ rfl hc hnew
    rw [heq] at hstate ⊢
    cases hstate
    exact halike.isVacant_iff.mpr (herror fault rfl)
  | takeIn _ hc₁ hloading halike _ herror =>
    have heq := h.eq_of_mem_done hc₁ rfl hc hnew
    rw [heq] at hstate ⊢
    cases hstate
    have hvacant := h.vacant _ hc₁ hloading
    exact halike.isVacant_iff.mpr
      ((AssetCache.mem_dropped_iff h.keys hvacant).mp (herror fault rfl).mem_dropped).2

/-- **Every event spares what is in use.** -/
theorem Sound.careful (h : s.Sound) (hopen : event ≠ .close) : s.Careful event where
  keeps_leased e he hleases := by
    obtain ⟨-, halike, -⟩ | ⟨key, loaded, hbrings, halike, -⟩ := (h.acts_step hopen).cache_cases
    · exact halike.exists_mem he
    · exact halike.exists_mem
        (AssetCache.mem_insert_of_leased h.keys (h.vacant_of_brings hbrings) rfl he hleases)
  deletes_removed e hremoved howned := by
    obtain ⟨hnone, halike, -⟩ | ⟨key, loaded, hbrings, halike, hfiles⟩ :=
      (h.acts_step hopen).cache_cases
    · obtain ⟨he | ⟨_, _, hbrings, -⟩, hgone⟩ := hremoved
      · exact absurd (List.mem_map_of_mem he)
          (AssetCache.isVacant_iff.mp (halike.isVacant_iff.mp hgone))
      · cases hnone.symm.trans hbrings
    · rw [Bool.eq_false_iff, ne_eq, hfiles]
      exact fun hfile => hfile.2 e ((h.mem_dropped_iff hbrings halike).mpr hremoved) howned rfl
  deletes_only_removed place hbefore hafter := by
    unfold written at hbefore
    obtain ⟨hnone, -, hfiles⟩ | ⟨key, loaded, hbrings, halike, hfiles⟩ :=
      (h.acts_step hopen).cache_cases
    · rw [hnone] at hbefore
      rw [hfiles, hbefore] at hafter
      cases hafter
    · rw [hbrings] at hbefore
      rw [Bool.eq_false_iff, ne_eq, hfiles, not_and] at hafter
      obtain ⟨e, he, howned, hplace⟩ : ∃ e ∈ s.cache.dropped (loaded.entry key),
          e.owned = true ∧ resolvePath s.cwd e.path = place := by
        simpa only [not_forall, exists_prop, not_not] using hafter hbefore
      exact ⟨e, (h.mem_dropped_iff hbrings halike).mp he, howned,
        AssetCache.leases_eq_zero_of_mem_dropped rfl he, hplace⟩
  leaves_none c hc fault hstate hnew := h.leaves_none (h.acts_step hopen) hc hstate hnew

/-! ### A run -/

/-- A step changes neither the place of a cache nor its budgets. -/
theorem Acts.kept (hacts : s.Acts event s') :
    s'.cache.directory = s.cache.directory ∧ s'.cache.limits = s.cache.limits := by
  obtain ⟨-, halike, -⟩ | ⟨_, _, -, halike, -⟩ := hacts.cache_cases
  · exact ⟨halike.directory, halike.limits⟩
  · exact ⟨halike.directory.trans AssetCache.insert_kept.1,
      halike.limits.trans AssetCache.insert_kept.2⟩

/-- A step keeps a cache within its budgets. -/
theorem Acts.isOver_eq_false (hacts : s.Acts event s') (h : s.cache.isOver = false) :
    s'.cache.isOver = false := by
  obtain ⟨-, halike, -⟩ | ⟨_, _, -, halike, -⟩ := hacts.cache_cases
  · exact halike.isOver_eq.trans h
  · exact halike.isOver_eq.trans (AssetCache.isOver_insert h)

/-- What steps keep holds at the end of a run. -/
theorem Sound.run (h : s.Sound) {P : CacheScene γ → Prop} (events : List (CacheEvent γ))
    (hopen : ∀ event ∈ events, event ≠ .close)
    (hacts : ∀ event ∈ events, ∀ {s s' : CacheScene γ}, s.Sound → s.Acts event s' → P s → P s')
    (hP : P s) : (s.run events).Sound ∧ P (s.run events) := by
  induction events generalizing s with
  | nil => exact ⟨h, hP⟩
  | cons event events ih =>
    obtain ⟨hevent, hopen⟩ := List.forall_mem_cons.mp hopen
    have hact := h.acts_step hevent
    exact ih (h.of_acts hact) hopen
      (fun event' hmem => hacts event' (List.mem_cons_of_mem _ hmem))
      (hacts event List.mem_cons_self h hact hP)

/-- A scene in which nobody has come yet is sound if each source has one entry. -/
theorem sound_of_callers_eq_nil (hkeys : (s.cache.entries.map (·.key)).Nodup)
    (hcallers : s.callers = []) : s.Sound where
  keys := hkeys
  ids := by
    rw [hcallers]
    exact List.nodup_nil
  vacant c hc := absurd (hcallers ▸ hc) List.not_mem_nil
  alone c hc := absurd (hcallers ▸ hc) List.not_mem_nil

/-- **A cache that callers share** is within its budgets at every time before it is closed, and
every event keeps the entries that are leased, deletes the files of the owned entries that it
removes and no others, and leaves no entry of a source whose acquisition fails in it. -/
theorem within_budgets (cwd : Place) (files : FileTree γ) (directory : String)
    (limits : CacheLimits) (hentries : 0 ≤ limits.entries) (hbytes : 0 ≤ limits.bytes)
    (events : List (CacheEvent γ)) (hopen : ∀ event ∈ events, event ≠ .close) :
    let s := (inDirectory cwd files directory limits).run events
    (s.cache.entries.length : Int) ≤ limits.entries ∧ (s.cache.totalBytes : Int) ≤ limits.bytes ∧
      ∀ event, event ≠ .close → s.Careful event := by
  have hstart : (inDirectory cwd files directory limits).cache.isOver = false := by
    rw [AssetCache.isOver_eq_false_iff]
    exact ⟨hentries, hbytes⟩
  have hsound : (inDirectory cwd files directory limits).Sound :=
    sound_of_callers_eq_nil List.nodup_nil rfl
  obtain ⟨hsound, hlimits, hover⟩ := hsound.run
    (P := fun s => s.cache.limits = limits ∧ s.cache.isOver = false) events hopen
    (fun _ _ _ _ _ hacts h => ⟨hacts.kept.2.trans h.1, hacts.isOver_eq_false h.2⟩) ⟨rfl, hstart⟩
  obtain ⟨hlength, htotal⟩ := AssetCache.isOver_eq_false_iff.mp hover
  rw [hlimits] at hlength htotal
  exact ⟨hlength, htotal, fun event hevent => hsound.careful hevent⟩

/-- A file is downloaded and given back, and then used as a source of its own, which does not make
it the property of that source. A third source waits for its file. -/
def borrowing : List (CacheEvent Unit) :=
  [.arrive 0 "a", .serve 0,
    .finish 0 (.ok { path := "cache/86f7e437faa5a7fc", size := 10, owned := true,
                     written := some () }),
    .release "a", .arrive 1 "cache/86f7e437faa5a7fc", .serve 1,
    .finish 1 (.ok { path := "cache/86f7e437faa5a7fc", size := 10, owned := false }),
    .arrive 2 "b", .serve 2]

/-- The third source has its file. -/
def crowding : CacheEvent Unit :=
  .finish 2 (.ok { path := "cache/e9d71f5ee7c92d6d", size := 10, owned := true,
                   written := some () })

/-- Nothing but the owner of the borrowed file is removed when there is no more room. -/
theorem within_budgets_borrowing :
    let s := (inDirectory [] {} "cache" { entries := 2 }).run borrowing
    (s.cache.entries.length : Int) ≤ 2 ∧ (s.cache.totalBytes : Int) ≤ 8589934592 ∧
      s.Careful crowding := by
  have hopen : ∀ event ∈ borrowing, event ≠ .close := by simp [borrowing]
  obtain ⟨hlength, hbytes, hcareful⟩ :=
    within_budgets [] {} "cache" { entries := 2 } (by decide) (by decide) borrowing hopen
  exact ⟨hlength, hbytes, hcareful crowding nofun⟩

/-- **A borrowed file goes with its owner**, though the entry that borrows it is leased, does not
own it and stays. -/
theorem evicted_owner_takes_borrowed_file :
    let s := (inDirectory [] {} "cache" { entries := 2 }).run borrowing
    let e : CachedAsset := { key := "cache/86f7e437faa5a7fc", path := "cache/86f7e437faa5a7fc",
                             size := 10, owned := false, leases := 1 }
    e ∈ s.cache.entries ∧ s.files.isFile (resolvePath s.cwd e.path) = true ∧
      e ∈ (s.step crowding).cache.entries ∧
      (s.step crowding).files.isFile (resolvePath s.cwd e.path) = false := by
  decide +kernel

end CacheScene

end TimelineExport
