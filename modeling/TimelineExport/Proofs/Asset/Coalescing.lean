import TimelineExport.Proofs.Asset.History

/-!
# Callers of one source share its load

A source is loaded by one caller at a time, and only as long as it has no entry; the callers that
come after find the entry that was made of what was loaded last (`CacheScene.Tallied.entries`).
The cache counts a miss for each load that begins, and a hit or a miss for each caller that got its
turn (`CacheScene.loads_are_shared`).
-/

namespace TimelineExport

variable {γ : Type}

namespace AssetCache

variable {c c' : AssetCache}

/-- Whether each entry was made of what was loaded last for its source. -/
def Recalls (c : AssetCache) (last? : String → Option (LoadedAsset γ)) : Prop :=
  ∀ e ∈ c.entries, ∃ loaded, last? e.key = some loaded ∧ e.unleased = loaded.entry e.key

theorem Recalls.of_alike {last? : String → Option (LoadedAsset γ)} (h : c.Recalls last?)
    (halike : c.Alike c') : c'.Recalls last? := by
  intro e he
  obtain ⟨e₀, he₀, heq⟩ := halike.symm.exists_mem he
  obtain ⟨loaded, hlast, hentry⟩ := h e₀ he₀
  have hkey : e₀.key = e.key := congrArg (·.key) heq
  exact ⟨loaded, hkey ▸ hlast, by rw [← heq, hentry, hkey]⟩

/-- Taking in what was loaded makes it what was loaded last. -/
theorem Recalls.insert {last? last?' : String → Option (LoadedAsset γ)} (h : c.Recalls last?)
    {key : String} (hnew : c.IsVacant key) {loaded : LoadedAsset γ}
    (hlast : last?' key = some loaded)
    (hothers : ∀ other, other ≠ key → last?' other = last? other) :
    (c.insert (loaded.entry key)).1.Recalls last?' := by
  intro e he
  rw [entries_insert] at he
  obtain he | he := List.mem_append.mp (List.mem_of_mem_filter he)
  · rw [hothers e.key fun hkey => isVacant_iff.mp hnew (hkey ▸ List.mem_map_of_mem he)]
    exact h e he
  · rw [List.mem_singleton.mp he]
    exact ⟨loaded, hlast, rfl⟩

/-- An insertion counts neither a hit nor a miss. -/
theorem insert_counts (c : AssetCache) (e : CachedAsset) :
    (c.insert e).1.hits = c.hits ∧ (c.insert e).1.misses = c.misses := by
  by_cases h : c.IsRefused e
  · rw [insert_of_isRefused h]
    dsimp only [remove]
    rw [makeRoom_fst]
    exact ⟨rfl, rfl⟩
  · rw [insert_of_not_isRefused h, makeRoom_fst]
    exact ⟨rfl, rfl⟩

theorem lease_counts (c : AssetCache) (key : String) :
    (c.lease key).hits = c.hits ∧ (c.lease key).misses = c.misses := by
  unfold lease
  split <;> exact ⟨rfl, rfl⟩

end AssetCache

namespace CacheScene

variable {s s' start : CacheScene γ} {event : CacheEvent γ} {events : List (CacheEvent γ)}
  {c : CacheCaller}

/-! ### What was loaded last -/

/-- What was loaded last for a source. -/
def lastLoad? (start : CacheScene γ) (events : List (CacheEvent γ)) (key : String) :
    Option (LoadedAsset γ) :=
  ((start.observed brings events).reverse.find? (·.1 = key)).map (·.2)

theorem lastLoad?_concat_of_none (h : (start.run events).brings event = none) (key : String) :
    start.lastLoad? (events ++ [event]) key = start.lastLoad? events key := by
  unfold lastLoad?
  rw [observed_concat, h, Option.toList_none, List.append_nil]

theorem lastLoad?_concat_of_some {key : String} {loaded : LoadedAsset γ}
    (h : (start.run events).brings event = some (key, loaded)) (other : String) :
    start.lastLoad? (events ++ [event]) other =
      if key = other then some loaded else start.lastLoad? events other := by
  unfold lastLoad?
  rw [observed_concat, h, Option.toList_some, List.reverse_append, List.reverse_singleton,
    List.singleton_append, List.find?_cons]
  by_cases hkey : key = other <;> simp [hkey]

/-! ### What is counted -/

/-- How many callers have got their turn. -/
def served (s : CacheScene γ) : Nat := s.callers.countP (!·.state.isWaiting)

theorem served_setCaller (h : s.Sound) (hc : c ∈ s.callers) {t : CacheScene γ}
    (hcallers : t.callers = s.callers) {state : CallerState} (hstate : state.isWaiting = false) :
    (t.setCaller c.id state).served = s.served + if c.state.isWaiting then 1 else 0 := by
  obtain ⟨first, last, heq⟩ := List.append_of_mem hc
  have hset := callers_setCaller (s := t) (hcallers ▸ h.ids) (hcallers.trans heq) state
  unfold served
  rw [hset, heq, List.countP_append, List.countP_append, List.countP_cons, List.countP_cons]
  dsimp only
  rw [hstate]
  cases c.state.isWaiting <;> simp [Nat.add_assoc]

/-- **A step counts a miss** for each load that begins. -/
theorem Does.misses (hdoes : s.Does event s') (hstep : s.step event = s')
    (hpaths : ∀ c ∈ s.callers, ∃ path, s.cache.pathFor c.key = .ok path) :
    s'.cache.misses = s.cache.misses + (s.startsLoader event).toList.length := by
  have hcallers := congrArg CacheScene.callers hstep
  cases hdoes with
  | idle =>
    have hnone : s.startsLoader event = none := becomes_of_step_eq hstep
    rw [hnone]
    rfl
  | @arrive id key =>
    have hnone : s.startsLoader (.arrive id key) = none := becomes_of_caller?_eq_none rfl
    rw [hnone]
    rfl
  | release key =>
    have hnone : s.startsLoader (.release key) = none := becomes_of_caller?_eq_none rfl
    rw [hnone]
    rfl
  | close =>
    have hnone : s.startsLoader .close = none := becomes_of_caller?_eq_none rfl
    rw [hnone]
    rfl
  | hit hid =>
    have hnone : s.startsLoader _ = none := becomes_eq rfl hid hcallers
    rw [hnone]
    exact (AssetCache.lease_counts _ _).2
  | miss hid hwaiting _ _ hstate =>
    obtain rfl | ⟨fault, hfault, -⟩ := hstate
    · have hsome : s.startsLoader _ = _ := becomes_eq rfl hid hcallers
      rw [hsome, hwaiting]
      rfl
    · obtain ⟨path, hpath⟩ := hpaths _ (of_caller?_eq_some hid).1
      cases hfault.symm.trans hpath
  | fail _ hid =>
    have hnone : s.startsLoader _ = none := becomes_eq rfl hid hcallers
    rw [hnone]
    rfl
  | refuse _ hid =>
    have hnone : s.startsLoader _ = none := becomes_eq rfl hid hcallers
    rw [hnone]
    exact (AssetCache.insert_counts _ _).2
  | takeIn _ hid =>
    have hnone : s.startsLoader _ = none := becomes_eq rfl hid hcallers
    rw [hnone]
    exact (AssetCache.lease_counts _ _).2.trans (AssetCache.insert_counts _ _).2

/-- **A step counts a hit or a miss** for each caller that gets its turn. -/
theorem Does.served (hdoes : s.Does event s') (hsound : s.Sound)
    (h : s.cache.hits + s.cache.misses = s.served) :
    s'.cache.hits + s'.cache.misses = s'.served := by
  cases hdoes with
  | idle | release | close => exact h
  | arrive =>
    refine h.trans ?_
    unfold CacheScene.served
    rw [List.countP_append]
    rfl
  | hit hid hwaiting =>
    refine .trans ?_ (served_setCaller hsound (of_caller?_eq_some hid).1 rfl rfl).symm
    obtain ⟨hhits, hmisses⟩ := AssetCache.lease_counts _ _
    dsimp only [setCaller]
    rw [hwaiting, hhits, hmisses, ← h]
    exact Nat.add_right_comm _ _ _
  | @miss _ state hid hwaiting _ _ hstate =>
    have hstate : state.isWaiting = false := by
      obtain rfl | ⟨_, _, rfl⟩ := hstate <;> rfl
    refine .trans ?_ (served_setCaller hsound (of_caller?_eq_some hid).1 rfl hstate).symm
    rw [hwaiting, ← h]
    rfl
  | fail _ hid hloading =>
    refine .trans ?_ (served_setCaller hsound (of_caller?_eq_some hid).1 rfl rfl).symm
    rw [hloading]
    exact h
  | refuse _ hid hloading =>
    refine .trans ?_ (served_setCaller hsound (of_caller?_eq_some hid).1 rfl rfl).symm
    obtain ⟨hhits, hmisses⟩ := AssetCache.insert_counts _ _
    dsimp only [setCaller]
    rw [hloading, hhits, hmisses]
    exact h
  | takeIn _ hid hloading =>
    refine .trans ?_ (served_setCaller hsound (of_caller?_eq_some hid).1 rfl rfl).symm
    obtain ⟨hhits, hmisses⟩ := AssetCache.lease_counts _ _
    obtain ⟨hhits', hmisses'⟩ := AssetCache.insert_counts _ _
    dsimp only [setCaller]
    rw [hloading, hhits, hmisses, hhits', hmisses']
    exact h

/-- **A step leaves** each entry made of what was loaded last. -/
theorem Sound.recalls_step (h : (start.run events).Sound) (hopen : event ≠ .close)
    (hrecalls : (start.run events).cache.Recalls (start.lastLoad? events)) :
    ((start.run events).step event).cache.Recalls (start.lastLoad? (events ++ [event])) := by
  obtain ⟨hnone, halike, -⟩ | ⟨key, loaded, hbrings, halike, -⟩ := (h.acts_step hopen).cache_cases
  · have hsame : start.lastLoad? (events ++ [event]) = start.lastLoad? events :=
      funext fun key => lastLoad?_concat_of_none hnone key
    rw [hsame]
    exact hrecalls.of_alike halike
  · have hlast := lastLoad?_concat_of_some hbrings
    refine .of_alike ?_ halike
    refine hrecalls.insert (h.vacant_of_brings hbrings) ?_ fun other hother => ?_
    · exact (hlast key).trans (if_pos rfl)
    · exact (hlast other).trans (if_neg hother.symm)

/-- The callers after a step have come before it or with it. -/
theorem Does.of_mem_callers (hdoes : s.Does event s') (hc : c ∈ s'.callers) :
    (∃ c₀ ∈ s.callers, c₀.key = c.key) ∨ event = .arrive c.id c.key := by
  have hset : ∀ {t : CacheScene γ} {id : Nat} {state : CallerState}, t.callers = s.callers →
      c ∈ (t.setCaller id state).callers → ∃ c₀ ∈ s.callers, c₀.key = c.key := by
    intro t id state hcallers hc
    obtain ⟨c₀, hc₀, rfl⟩ := mem_setCaller.mp hc
    refine ⟨c₀, hcallers ▸ hc₀, ?_⟩
    split <;> rfl
  cases hdoes with
  | idle | release | close => exact .inl ⟨c, hc, rfl⟩
  | arrive =>
    obtain hc | hc := List.mem_append.mp hc
    · exact .inl ⟨c, hc, rfl⟩
    · rw [List.mem_singleton.mp hc]
      exact .inr rfl
  | hit | miss | fail | refuse | takeIn => exact .inl (hset rfl hc)

/-- What is true at the end of a run: as many misses were counted as loads have begun, as many hits
and misses as callers have got their turn, and each entry was made of what was loaded last. -/
structure Tallied (start : CacheScene γ) (events : List (CacheEvent γ)) (s : CacheScene γ) :
    Prop where
  misses : s.cache.misses = (start.observed startsLoader events).length
  served : s.cache.hits + s.cache.misses = s.served
  entries : s.cache.Recalls (start.lastLoad? events)
  directory : s.cache.directory = start.cache.directory
  paths : ∀ c ∈ s.callers, ∃ path, start.cache.pathFor c.key = .ok path

/-- **A step** keeps the tally. -/
theorem Tallied.of_does (h : start.Tallied events (start.run events))
    (hsound : (start.run events).Sound)
    (hdoes : (start.run events).Does event ((start.run events).step event))
    (hopen : event ≠ .close)
    (hpath : ∀ id key, event = .arrive id key → ∃ path, start.cache.pathFor key = .ok path) :
    start.Tallied (events ++ [event]) ((start.run events).step event) where
  misses := by
    rw [hdoes.misses rfl, h.misses, observed_concat, List.length_append]
    intro c hc
    rw [AssetCache.pathFor_congr h.directory]
    exact h.paths c hc
  served := hdoes.served hsound h.served
  entries := hsound.recalls_step hopen h.entries
  directory := (hsound.acts_step hopen).kept.1.trans h.directory
  paths c hc := by
    obtain ⟨c₀, hc₀, hkey⟩ | harrive := hdoes.of_mem_callers hc
    · exact hkey ▸ h.paths c₀ hc₀
    · exact hpath c.id c.key harrive

/-- A load begins only as long as its source has no entry. -/
theorem Sound.vacant_of_startsLoader (h : s.Sound) {key : String}
    (hstarts : s.startsLoader event = some key) : s.cache.IsVacant key := by
  have hdoes := h.does_step event
  generalize hstep : s.step event = s' at hdoes
  have hcallers := congrArg CacheScene.callers hstep
  have hlooked : ∀ {looked : Option String}, s.startsLoader event = looked → looked = some key :=
    fun hlooks => hlooks.symm.trans hstarts
  cases hdoes with
  | idle => cases hlooked (becomes_of_step_eq hstep)
  | arrive | release | close => cases hlooked (becomes_of_caller?_eq_none rfl)
  | hit hid | fail _ hid | refuse _ hid | takeIn _ hid =>
    cases hlooked (becomes_eq rfl hid hcallers)
  | miss hid hwaiting _ hvacant hstate =>
    have hlooks := hlooked (becomes_eq rfl hid hcallers)
    obtain rfl | ⟨_, _, rfl⟩ := hstate
    · rw [hwaiting] at hlooks
      cases hlooks
      exact hvacant
    · cases hlooks

/-- A caller that finds its source is handed the entry as it is in the cache from then on. -/
theorem serve_of_entry? {e : CachedAsset} (hid : s.caller? c.id = some c)
    (hwaiting : c.state = .waiting) (hturn : s.isTurn c = true)
    (he : s.cache.entry? c.key = some e) :
    (s.step (.serve c.id)).result? c.id = some (.ok { e with leases := e.leases + 1 }) ∧
      (s.step (.serve c.id)).cache.entry? c.key = some { e with leases := e.leases + 1 } := by
  rw [step_serve hid hwaiting hturn, serve_hit he]
  refine ⟨result?_setCaller hid rfl _, ?_⟩
  exact (AssetCache.entry?_lease (c := { s.cache with hits := s.cache.hits + 1 }) he c.key).trans
    (if_pos rfl)

/-- **Callers share what is loaded.** As long as a cache is open, and all sources have paths, at any
time at most one caller loads a source; a load begins only if its source has no entry; a caller that
finds an entry when it gets its turn is handed that entry, which was made of what was loaded last
for its source; and the cache has counted a miss for each load that has begun and a hit or a miss
for each caller that has got its turn. -/
theorem loads_are_shared (cwd : Place) (files : FileTree γ) (directory : String)
    (limits : CacheLimits) (events : List (CacheEvent γ))
    (hopen : ∀ event ∈ events, event ≠ .close)
    (hpaths : ∀ id key, .arrive id key ∈ events →
      ∃ path, (inDirectory cwd files directory limits).cache.pathFor key = .ok path) :
    let start := inDirectory cwd files directory limits
    let s := start.run events
    (∀ c ∈ s.callers, ∀ c' ∈ s.callers, c.state = .loading → c'.state = .loading →
        c.key = c'.key → c = c') ∧
      (∀ event key, s.startsLoader event = some key → s.cache.entry? key = none) ∧
      (∀ c e, s.caller? c.id = some c → c.state = .waiting → s.isTurn c = true →
        s.cache.entry? c.key = some e →
          ∃ asset loaded, (s.step (.serve c.id)).result? c.id = some (.ok asset) ∧
            (s.step (.serve c.id)).cache.entry? c.key = some asset ∧
            start.lastLoad? events c.key = some loaded ∧ asset.unleased = loaded.entry c.key) ∧
      s.cache.misses = (start.observed startsLoader events).length ∧
      s.cache.hits + s.cache.misses = s.served := by
  intro start s
  have hstart : start.Sound := sound_of_callers_eq_nil List.nodup_nil rfl
  have htallied : start.Tallied [] start :=
    ⟨rfl, rfl, fun e he => absurd he List.not_mem_nil, rfl, fun c hc => absurd hc List.not_mem_nil⟩
  obtain ⟨hsound, htallied⟩ := hstart.run_does (P := fun events s => start.Tallied events s) events
    htallied fun before event hevent hsound h hdoes => h.of_does hsound hdoes (hopen event hevent)
      fun id key harrive => hpaths id key (harrive ▸ hevent)
  refine ⟨hsound.alone, fun event key => hsound.vacant_of_startsLoader, ?_, htallied.misses,
    htallied.served⟩
  intro c e hid hwaiting hturn he
  obtain ⟨hresult, hafter⟩ := serve_of_entry? hid hwaiting hturn he
  obtain ⟨hmem, hkey⟩ := AssetCache.of_entry?_eq_some he
  obtain ⟨loaded, hlast, hentry⟩ := htallied.entries e hmem
  exact ⟨_, loaded, hresult, hafter, hkey ▸ hlast, hkey ▸ hentry⟩

/-- Two callers come for a source. What the first one loads, the second one is to be handed. -/
def sharedLoad : List (CacheEvent Unit) :=
  [.arrive 0 "a", .arrive 1 "a", .serve 0,
    .finish 0 (.ok { path := "a", size := 10, owned := false })]

/-- The source is loaded once for both. -/
theorem loads_are_shared_once :
    let start := inDirectory [] {} "cache" {}
    let s := start.run sharedLoad
    (∀ event ∈ sharedLoad, event ≠ .close) ∧
      (∀ id key, .arrive id key ∈ sharedLoad → ∃ path, start.cache.pathFor key = .ok path) ∧
      (∃ asset loaded, (s.step (.serve 1)).result? 1 = some (.ok asset) ∧
        start.lastLoad? sharedLoad "a" = some loaded ∧ asset.unleased = loaded.entry "a") ∧
      (start.observed startsLoader sharedLoad).length = 1 := by
  have hopen : ∀ event ∈ sharedLoad, event ≠ .close := by simp [sharedLoad]
  have hpaths : ∀ id key, .arrive id key ∈ sharedLoad →
      ∃ path, (inDirectory (γ := Unit) [] {} "cache" {}).cache.pathFor key = .ok path := by
    intro id key harrive
    obtain ⟨-, rfl⟩ | ⟨-, rfl⟩ : id = 0 ∧ key = "a" ∨ id = 1 ∧ key = "a" := by
      simpa [sharedLoad] using harrive
    all_goals exact ⟨_, rfl⟩
  obtain ⟨-, -, hfinds, hmisses, -⟩ := loads_are_shared [] {} "cache" {} sharedLoad hopen hpaths
  obtain ⟨asset, loaded, hresult, -, hlast, hentry⟩ :=
    hfinds ⟨1, "a", .waiting⟩ ⟨"a", "a", 10, false, none, 1⟩ rfl rfl (by decide +kernel)
      (by decide +kernel)
  refine ⟨hopen, hpaths, ⟨asset, loaded, hresult, hlast, hentry⟩, hmisses.symm.trans ?_⟩
  decide +kernel

end CacheScene

end TimelineExport
