import TimelineExport.Proofs.Asset.Gather

/-!
# Leases of sources that are acquired side by side

The leases of a source are those of its entry (`AssetCache.leaseCount`). A caller takes one lease
when it is answered with an asset, and none otherwise; what is evicted or refused has none
(`CacheScene.Sound.grants_step`). So when sources are acquired and nobody else takes part, the
leases of each source grow by the number of callers that were answered with it, whatever their
loaders bring and however the turns interleave (`CacheScene.GathersAlone.leaseCount_run`).
-/

namespace TimelineExport

variable {γ : Type}

namespace AssetCache

variable {c : AssetCache} {e : CachedAsset} {key : String}

/-! ### Leases of a source -/

/-- The leases of a source: those of its entry, and none if there is no entry. -/
def leaseCount (c : AssetCache) (key : String) : Nat :=
  match c.entry? key with
  | some e => e.leases
  | none => 0

theorem leaseCount_of_eq_some (h : c.entry? key = some e) : c.leaseCount key = e.leases := by
  unfold leaseCount
  rw [h]

theorem leaseCount_of_isVacant (h : c.IsVacant key) : c.leaseCount key = 0 := by
  unfold leaseCount
  rw [h]

/-- An entry is that of its source. -/
theorem entry?_of_mem (hkeys : (c.entries.map (·.key)).Nodup) (he : e ∈ c.entries) :
    c.entry? e.key = some e := by
  obtain ⟨e', he'⟩ := exists_entry_of_mem he
  obtain ⟨hmem, hkey⟩ := of_entry?_eq_some he'
  rw [he', eq_of_key_eq hkeys hmem he hkey]

theorem leaseCount_of_mem (hkeys : (c.entries.map (·.key)).Nodup) (he : e ∈ c.entries) :
    c.leaseCount e.key = e.leases :=
  leaseCount_of_eq_some (entry?_of_mem hkeys he)

/-- **Taking in an entry without leases** changes the leases of no source. -/
theorem leaseCount_insert (hkeys : (c.entries.map (·.key)).Nodup) (hnew : c.IsVacant e.key)
    (he : e.leases = 0) (key : String) : (c.insert e).1.leaseCount key = c.leaseCount key := by
  by_cases hvacant : (c.insert e).1.IsVacant key
  · rw [leaseCount_of_isVacant hvacant]
    by_cases hbefore : c.IsVacant key
    · rw [leaseCount_of_isVacant hbefore]
    · obtain ⟨d, hd⟩ := Option.ne_none_iff_exists'.mp hbefore
      obtain ⟨hmem, rfl⟩ := of_entry?_eq_some hd
      rw [leaseCount_of_eq_some hd]
      -- A leased entry would have been kept, so what has gone had no leases.
      by_contra hleases
      have hkept := mem_insert_of_leased hkeys hnew he hmem (Nat.pos_of_ne_zero (Ne.symm hleases))
      exact isVacant_iff.mp hvacant (List.mem_map_of_mem hkept)
  · obtain ⟨d, hd⟩ := Option.ne_none_iff_exists'.mp hvacant
    rw [leaseCount_of_eq_some hd]
    obtain ⟨hmem, rfl⟩ := of_entry?_eq_some hd
    rw [entries_insert] at hmem
    obtain hmem | hmem := List.mem_append.mp (List.mem_of_mem_filter hmem)
    · rw [leaseCount_of_mem hkeys hmem]
    · rw [List.mem_singleton.mp hmem, leaseCount_of_isVacant hnew, he]

/-- The entry of a source once it is leased. -/
theorem entry?_lease (h : c.entry? key = some e) (other : String) :
    AssetCache.entry? (c.lease key) other =
      if other = key then some { e with leases := e.leases + 1 } else c.entry? other := by
  obtain ⟨-, rfl⟩ := of_entry?_eq_some h
  unfold lease
  rw [h]
  unfold entry?
  dsimp only
  rw [List.find?_append, List.find?_filter]
  split
  · next hkey =>
    rw [hkey, List.find?_eq_none.mpr (by simp), Option.none_or]
    exact List.find?_cons_of_pos (decide_eq_true rfl)
  · next hkey =>
    rw [List.find?_cons_of_neg (by simpa using Ne.symm hkey), List.find?_nil, Option.or_none]
    congr 1
    funext d
    rw [decide_eq_decide, decide_eq_true_eq, decide_eq_true_eq]
    exact and_iff_right_of_imp fun hd => hd.trans_ne hkey

/-- **Leasing the entry of a source** adds one to the leases of that source. -/
theorem leaseCount_lease (h : c.entry? key = some e) (other : String) :
    (c.lease key).leaseCount other = c.leaseCount other + if key = other then 1 else 0 := by
  by_cases hkey : key = other
  · subst hkey
    rw [if_pos rfl, leaseCount_of_eq_some h,
      leaseCount_of_eq_some ((entry?_lease h key).trans (if_pos rfl))]
  · unfold leaseCount
    rw [entry?_lease h, if_neg (Ne.symm hkey), if_neg hkey, Nat.add_zero]

/-- The entry of a source once a lease is given back. -/
theorem entry?_release (c : AssetCache) (key other : String) :
    AssetCache.entry? (c.release key) other =
      Option.map (fun e => if e.key = key then { e with leases := e.leases - 1 } else e)
        ( c.entry? other) := by
  unfold release entry?
  dsimp only
  rw [List.find?_map]
  congr 2
  funext e
  dsimp only [Function.comp_apply]
  split <;> rfl

/-- **Giving back a lease of a source** takes one from the leases of that source, if it has any. -/
theorem leaseCount_release (c : AssetCache) (key other : String) :
    (c.release key).leaseCount other = c.leaseCount other - if key = other then 1 else 0 := by
  unfold leaseCount
  rw [entry?_release]
  cases hother : c.entry? other with
  | none => exact (Nat.zero_sub _).symm
  | some e =>
    obtain ⟨-, rfl⟩ := of_entry?_eq_some hother
    rw [Option.map_some]
    dsimp only
    by_cases hkey : e.key = key
    · rw [if_pos hkey, if_pos hkey.symm]
    · rw [if_neg hkey, if_neg (Ne.symm hkey), Nat.sub_zero]

end AssetCache

/-! ### Leases of callers -/

/-- The source of an asset that was acquired. -/
def acquiredKey : Except AssetFault CachedAsset → Option String
  | .ok asset => some asset.key
  | .error _ => none

/-- The source of the asset that a caller was answered with. -/
def CacheCaller.held (c : CacheCaller) : Option String :=
  match c.state with
  | .done result => acquiredKey result
  | _ => none

/-- Whether an event belongs to an acquisition of some sources that nobody else takes part in.
A loader may end in any way. -/
def CacheEvent.IsOwn (keys : List String) : CacheEvent γ → Prop
  | .arrive id key => keys[id]? = some key
  | .serve _ | .finish _ _ => True
  | .release _ | .close => False

theorem CacheEvent.IsOwn.ne_close {keys : List String} {event : CacheEvent γ}
    (h : event.IsOwn keys) : event ≠ .close := by
  rintro rfl
  exact h

theorem AssetCache.Loads.isOwn [FileContent γ] {c : AssetCache} {keys : List String}
    {options : LoadOptions} {P : Outside γ → Prop} {event : CacheEvent γ}
    (h : c.Loads keys options P event) : event.IsOwn keys := by
  cases event with
  | arrive => exact h
  | serve | finish => trivial
  | release | close => exact h

namespace CacheScene

variable {s s' t : CacheScene γ} {event : CacheEvent γ} {c : CacheCaller} {keys : List String}
  {before : AssetCache}

/-- The sources of the assets that callers were answered with. -/
def held (s : CacheScene γ) : List String := s.callers.filterMap CacheCaller.held

/-- Setting how far a caller is leaves the other ones alone. -/
theorem callers_setCaller (hids : (s.callers.map (·.id)).Nodup) {first last : List CacheCaller}
    (h : s.callers = first ++ c :: last) (state : CallerState) :
    (s.setCaller c.id state).callers = first ++ { c with state } :: last := by
  rw [h, List.map_append, List.map_cons, List.nodup_middle, List.nodup_cons, List.mem_append,
    not_or] at hids
  obtain ⟨⟨hfirst, hlast⟩, -⟩ := hids
  have hothers : ∀ others : List CacheCaller, c.id ∉ others.map (·.id) →
      (others.map fun o => if o.id = c.id then { o with state } else o) = others := by
    intro others hnone
    refine (List.map_congr_left fun o ho => if_neg fun hid => hnone ?_).trans (List.map_id others)
    exact hid ▸ List.mem_map_of_mem ho
  unfold setCaller
  dsimp only
  rw [h, List.map_append, List.map_cons, hothers first hfirst, hothers last hlast, if_pos rfl]

theorem of_mem_setCaller (hids : (s.callers.map (·.id)).Nodup) (hc : c ∈ s.callers)
    {state : CallerState} {o : CacheCaller} (ho : o ∈ (s.setCaller c.id state).callers) :
    o ∈ s.callers ∨ o = { c with state } := by
  obtain ⟨first, last, h⟩ := List.append_of_mem hc
  rw [callers_setCaller hids h] at ho
  rw [h]
  obtain ho | ho := List.mem_append.mp ho
  · exact .inl (List.mem_append_left _ ho)
  · obtain rfl | ho := List.mem_cons.mp ho
    · exact .inr rfl
    · exact .inl (List.mem_append_right _ (List.mem_cons_of_mem _ ho))

/-- An answer to a caller that had none. -/
theorem count_held_setCaller (hids : (s.callers.map (·.id)).Nodup) (hc : c ∈ s.callers)
    (hnone : c.held = none) (state : CallerState) (key : String) :
    (s.setCaller c.id state).held.count key =
      s.held.count key + (CacheCaller.held { c with state }).toList.count key := by
  obtain ⟨first, last, h⟩ := List.append_of_mem hc
  unfold held
  rw [callers_setCaller hids h, h, List.filterMap_append, List.filterMap_append,
    List.filterMap_cons_none hnone, List.filterMap_cons, List.count_append, List.count_append]
  cases CacheCaller.held { c with state } with
  | none => simp
  | some key' =>
    rw [Option.toList_some, List.count_cons, List.count_cons, List.count_nil]
    omega

/-- Why a caller is answered with a fault. -/
inductive FailsWith (s : CacheScene γ) (event : CacheEvent γ) (c : CacheCaller) :
    AssetFault → Prop where
  | noPath {fault : UrlFault} (hpath : s.cache.pathFor c.key = .error fault) :
    FailsWith s event c (.url fault)
  | notLoaded {fault : AssetFault} (hevent : event = .finish c.id (.error fault)) :
    FailsWith s event c fault
  | refused {loaded : LoadedAsset γ} {error : ExportError}
    (hevent : event = .finish c.id (.ok loaded)) : FailsWith s event c (.resolution error)

/-- Whether the entries of a cache are of sources that had one before an event, or of the source of
a caller whose loader has brought its file in that event. -/
def HoldsOnly (s : CacheScene γ) (event : CacheEvent γ) (c : CacheCaller) (cache : AssetCache) :
    Prop :=
  ∀ e ∈ cache.entries, (∃ e₀ ∈ s.cache.entries, e₀.key = e.key) ∨
    e.key = c.key ∧ ∃ loaded, event = .finish c.id (.ok loaded)

theorem holdsOnly_self (s : CacheScene γ) (event : CacheEvent γ) (c : CacheCaller) :
    s.HoldsOnly event c s.cache := fun e he => .inl ⟨e, he, rfl⟩

/-- What an event does to callers and leases if nothing is given back: a caller that is answered
with an asset has taken a lease of it. -/
inductive Grants (s : CacheScene γ) (event : CacheEvent γ) : CacheScene γ → Prop where
  | idle : Grants s event s
  | arrive {id : Nat} {key : String} (hevent : event = .arrive id key) :
    Grants s event { s with callers := s.callers ++ [{ id, key }] }
  | answer {t : CacheScene γ} {c : CacheCaller} {state : CallerState} (hc : c ∈ s.callers)
    (hnone : c.held = none) (hcallers : t.callers = s.callers)
    (hcount : ∀ key, t.cache.leaseCount key =
      s.cache.leaseCount key + (CacheCaller.held { c with state }).toList.count key)
    (hentries : s.HoldsOnly event c t.cache)
    (hok : ∀ asset, state = .done (.ok asset) → t.cache.entry? c.key = some asset)
    (herror : ∀ fault, state = .done (.error fault) → s.FailsWith event c fault) :
    Grants s event (t.setCaller c.id state)

/-- A caller is handed a lease of the entry of its source. -/
theorem grants_handOut (hkeys : (t.cache.entries.map (·.key)).Nodup) {e : CachedAsset}
    (he : t.cache.entry? c.key = some e) (hc : c ∈ s.callers) (hnone : c.held = none)
    (hcallers : t.callers = s.callers)
    (hcount : ∀ key, t.cache.leaseCount key = s.cache.leaseCount key)
    (hentries : s.HoldsOnly event c t.cache) :
    s.Grants event (t.handOut c) := by
  obtain ⟨e', he', heq⟩ := exists_handOut hkeys he
  rw [heq]
  refine .answer hc hnone hcallers (fun key => ?_) (fun x hx => ?_) (fun asset hasset => ?_)
    fun _ hfault => nomatch hfault
  · rw [AssetCache.leaseCount_lease he, hcount]
    unfold CacheCaller.held acquiredKey
    dsimp only
    rw [(AssetCache.of_entry?_eq_some he').2, Option.toList_some, List.count_singleton]
    simp only [beq_iff_eq]
  · obtain ⟨x₀, hx₀, hx⟩ := (AssetCache.alike_lease hkeys c.key).symm.exists_mem hx
    have hkey : x₀.key = x.key := congrArg (·.key) hx
    exact hkey ▸ hentries x₀ hx₀
  · cases hasset
    exact he'

theorem grants_serve (h : s.Sound) (hc : c ∈ s.callers) (hwaiting : c.state = .waiting) :
    s.Grants event (s.serve c) := by
  have hnone : c.held = none := by
    unfold CacheCaller.held
    rw [hwaiting]
  have hentries := s.holdsOnly_self event c
  unfold serve
  split
  · next e he => exact grants_handOut h.keys he hc hnone rfl (fun _ => rfl) hentries
  · dsimp only
    split
    · next fault hpath =>
      refine .answer hc hnone rfl (fun _ => rfl) hentries nofun fun _ hfault => ?_
      cases hfault
      exact .noPath hpath
    · exact .answer hc hnone rfl (fun _ => rfl) hentries nofun fun _ hfault => nomatch hfault

theorem grants_finish (h : s.Sound) (hc : c ∈ s.callers) (hloading : c.state = .loading)
    (outcome : Except AssetFault (LoadedAsset γ)) :
    s.Grants (.finish c.id outcome) (s.finish c outcome) := by
  have hnone : c.held = none := by
    unfold CacheCaller.held
    rw [hloading]
  cases outcome with
  | error fault =>
    refine .answer hc hnone rfl (fun _ => rfl) (s.holdsOnly_self _ c) nofun fun _ hfault => ?_
    cases hfault
    exact .notLoaded rfl
  | ok loaded =>
    have hvacant := h.vacant c hc hloading
    have hcount : ∀ key, (s.takingIn c.key loaded).cache.leaseCount key = s.cache.leaseCount key :=
      AssetCache.leaseCount_insert (e := loaded.entry c.key) h.keys hvacant rfl
    have hentries : s.HoldsOnly (.finish c.id (.ok loaded)) c (s.takingIn c.key loaded).cache := by
      intro e he
      have he : e ∈ (s.cache.insert (loaded.entry c.key)).1.entries := he
      rw [AssetCache.entries_insert] at he
      obtain he | he := List.mem_append.mp (List.mem_of_mem_filter he)
      · exact .inl ⟨e, he, rfl⟩
      · exact .inr ⟨congrArg (·.key) (List.mem_singleton.mp he), loaded, rfl⟩
    by_cases hrefused : s.cache.IsRefused (loaded.entry c.key)
    · obtain ⟨error, heq⟩ := finish_of_isRefused hrefused
      rw [heq]
      refine .answer hc hnone rfl hcount hentries nofun fun _ hfault => ?_
      cases hfault
      exact .refused rfl
    · obtain ⟨e, he⟩ := AssetCache.exists_entry_of_mem
        (AssetCache.mem_insert_of_not_isRefused hrefused)
      rw [finish_of_not_isRefused hrefused]
      exact grants_handOut (AssetCache.nodup_insert (e := loaded.entry c.key) h.keys hvacant) he hc
        hnone rfl hcount hentries

theorem Sound.grants_step (h : s.Sound) (hevent : event.IsOwn keys) :
    s.Grants event (s.step event) := by
  cases event with
  | arrive id key =>
    unfold CacheScene.step
    dsimp only
    split
    · exact .idle
    · exact .arrive rfl
  | serve id =>
    unfold CacheScene.step
    dsimp only
    split
    · next c hid =>
      split
      · next hwaiting =>
        split
        · exact grants_serve h (of_caller?_eq_some hid).1 hwaiting
        · exact .idle
      · exact .idle
    · exact .idle
  | finish id outcome =>
    unfold CacheScene.step
    dsimp only
    split
    · next c hid =>
      split
      · next hloading =>
        obtain ⟨hc, rfl⟩ := of_caller?_eq_some hid
        exact grants_finish h hc hloading outcome
      · exact .idle
    · exact .idle
  | release | close => exact hevent.elim

/-- What steps keep holds at the end of a run, if nothing is given back. -/
theorem Sound.run_grants (h : s.Sound) {P : CacheScene γ → Prop} {events : List (CacheEvent γ)}
    (hevents : ∀ event ∈ events, event.IsOwn keys)
    (hgrants : ∀ event ∈ events, ∀ {s s' : CacheScene γ},
      s.Sound → s.Grants event s' → P s → P s') (hP : P s) :
    (s.run events).Sound ∧ P (s.run events) := by
  induction events generalizing s with
  | nil => exact ⟨h, hP⟩
  | cons event events ih =>
    obtain ⟨hevent, hevents⟩ := List.forall_mem_cons.mp hevents
    exact ih (h.step hevent.ne_close) hevents
      (fun event' hmem => hgrants event' (List.mem_cons_of_mem _ hmem))
      (hgrants event List.mem_cons_self h (h.grants_step hevent) hP)

/-! ### An acquisition in which nobody else takes part -/

/-- What is true while sources are acquired and nothing is given back: the leases of a source are
those that it had and one for each caller that was answered with it. -/
structure Lends (before : AssetCache) (keys : List String) (s : CacheScene γ) : Prop where
  counts : ∀ key, s.cache.leaseCount key = before.leaseCount key + s.held.count key
  sources : ∀ c ∈ s.callers, keys[c.id]? = some c.key
  own : ∀ c ∈ s.callers, ∀ asset, c.state = .done (.ok asset) → asset.key = c.key

/-- **A step** lends as many leases as it answers callers with assets. -/
theorem Lends.of_grants (h : s.Lends before keys) (hsound : s.Sound) (hevent : event.IsOwn keys)
    (hgrants : s.Grants event s') : s'.Lends before keys := by
  cases hgrants with
  | idle => exact h
  | @arrive id key harrive =>
    subst harrive
    refine ⟨fun key' => ?_, List.forall_mem_append.mpr ⟨h.sources, ?_⟩,
      List.forall_mem_append.mpr ⟨h.own, ?_⟩⟩
    · have hheld : held { s with callers := s.callers ++ [{ id, key }] } = s.held :=
        List.filterMap_append.trans (List.append_nil _)
      rw [hheld]
      exact h.counts key'
    · exact List.forall_mem_singleton.mpr hevent
    · exact List.forall_mem_singleton.mpr nofun
  | @answer t c state hc hnone hcallers hcount _ hok =>
    have hids : (t.callers.map (·.id)).Nodup := hcallers ▸ hsound.ids
    have hheld : t.held = s.held := congrArg (List.filterMap _) hcallers
    have hmem : ∀ o ∈ (t.setCaller c.id state).callers, o ∈ s.callers ∨ o = { c with state } :=
      fun o ho => (of_mem_setCaller hids (hcallers ▸ hc) ho).imp_left (hcallers ▸ ·)
    refine ⟨fun key => ?_, fun o ho => ?_, fun o ho asset hstate => ?_⟩
    -- The caller held nothing before, so its answer is all that callers hold in addition.
    · rw [count_held_setCaller hids (hcallers ▸ hc) hnone, hheld, ← Nat.add_assoc, ← h.counts]
      exact hcount key
    · obtain ho | rfl := hmem o ho
      · exact h.sources o ho
      · exact h.sources c hc
    · obtain ho | rfl := hmem o ho
      · exact h.own o ho asset hstate
      · exact (AssetCache.of_entry?_eq_some (hok asset hstate)).2

/-- **An acquisition in which nobody else takes part**: callers come for all sources and take their
turns in any order, until each one has its result, and their loaders end in any way. -/
structure GathersAlone (s : CacheScene γ) (keys : List String) (events : List (CacheEvent γ))
    (results : List (Except AssetFault CachedAsset)) : Prop where
  own : ∀ event ∈ events, event.IsOwn keys
  results : (List.range keys.length).map (s.vacated.run events).result? = results.map some

section
variable {events : List (CacheEvent γ)} {results : List (Except AssetFault CachedAsset)}

theorem GathersUnder.gathersAlone [FileContent γ] {options : LoadOptions} {P : Outside γ → Prop}
    (h : s.GathersUnder options P keys events results) : s.GathersAlone keys events results :=
  ⟨fun event hevent => (h.loads event hevent).isOwn, h.results⟩

theorem GathersAlone.lends (h : s.GathersAlone keys events results)
    (hkeys : (s.cache.entries.map (·.key)).Nodup) :
    (s.vacated.run events).Sound ∧ (s.vacated.run events).Lends s.cache keys := by
  have hstart : s.vacated.Lends s.cache keys :=
    ⟨fun _ => rfl, fun c hc => absurd hc List.not_mem_nil, fun c hc => absurd hc List.not_mem_nil⟩
  have hsound : s.vacated.Sound := sound_of_callers_eq_nil hkeys rfl
  exact hsound.run_grants (P := Lends s.cache keys) h.own
    (fun event hevent _ _ hsound hgrants h' => h'.of_grants hsound (h.own event hevent) hgrants)
    hstart

/-- The callers are those that are found under their ids. -/
theorem filterMap_caller? (hids : (s.callers.map (·.id)).Nodup) :
    (s.callers.map (·.id)).filterMap s.caller? = s.callers := by
  rw [List.filterMap_map]
  refine (List.filterMap_congr fun c hc => ?_).trans List.filterMap_some
  obtain ⟨c', hc'⟩ : ∃ c', s.caller? c.id = some c' :=
    Option.ne_none_iff_exists'.mp fun hnone =>
      List.find?_eq_none.mp hnone c hc (decide_eq_true rfl)
  obtain ⟨hmem, hid⟩ := of_caller?_eq_some hc'
  rw [Function.comp_apply, hc', List.inj_on_of_nodup_map hids hmem hc hid]

theorem bind_held_caller? (s : CacheScene γ) (id : Nat) :
    (s.caller? id).bind CacheCaller.held = (s.result? id).bind acquiredKey := by
  unfold result?
  cases s.caller? id with
  | none => rfl
  | some c =>
    obtain ⟨id', key, state⟩ := c
    cases state <;> rfl

/-- **Callers hold** the assets that were acquired. -/
theorem GathersAlone.held_perm (h : s.GathersAlone keys events results)
    (hkeys : (s.cache.entries.map (·.key)).Nodup) :
    (s.vacated.run events).held.Perm (results.filterMap acquiredKey) := by
  obtain ⟨hsound, hlends⟩ := h.lends hkeys
  have hresults := h.results
  generalize s.vacated.run events = t at hsound hlends hresults
  have hids : (t.callers.map (·.id)).Perm (List.range keys.length) := by
    refine (List.perm_ext_iff_of_nodup hsound.ids List.nodup_range).mpr fun id => ?_
    rw [List.mem_range]
    constructor
    · rintro hid
      obtain ⟨c, hc, rfl⟩ := List.mem_map.mp hid
      exact (List.getElem?_eq_some_iff.mp (hlends.sources c hc)).1
    · intro hid
      have hresult : t.result? id ∈ results.map some :=
        hresults ▸ List.mem_map_of_mem (List.mem_range.mpr hid)
      obtain ⟨result, -, hresult⟩ := List.mem_map.mp hresult
      obtain ⟨c, hc, rfl, -⟩ := of_result?_eq_some hresult.symm
      exact List.mem_map_of_mem hc
  -- The callers came in any order; by their ids they are in the order of the results.
  calc t.held = ((t.callers.map (·.id)).filterMap t.caller?).filterMap CacheCaller.held := by
        rw [filterMap_caller? hsound.ids]
        rfl
    _ = (t.callers.map (·.id)).filterMap fun id => (t.result? id).bind acquiredKey := by
        rw [List.filterMap_filterMap]
        exact List.filterMap_congr fun id _ => bind_held_caller? t id
    List.Perm _ ((List.range keys.length).filterMap fun id => (t.result? id).bind acquiredKey) :=
        hids.filterMap _
    _ = ((List.range keys.length).map t.result?).filterMap (·.bind acquiredKey) := by
        rw [List.filterMap_map]
        rfl
    _ = results.filterMap acquiredKey := by
        rw [hresults, List.filterMap_map]
        rfl

/-- **The leases of each source grow** by the number of assets of it that were acquired. -/
theorem GathersAlone.leaseCount_run (h : s.GathersAlone keys events results)
    (hkeys : (s.cache.entries.map (·.key)).Nodup) (key : String) :
    (s.vacated.run events).cache.leaseCount key =
      s.cache.leaseCount key + (results.filterMap acquiredKey).count key := by
  rw [(h.lends hkeys).2.counts, (h.held_perm hkeys).count_eq]

/-- **Each asset** that was acquired is one of the source of its place. -/
theorem GathersAlone.forall₂_acquiredKey (h : s.GathersAlone keys events results)
    (hkeys : (s.cache.entries.map (·.key)).Nodup) :
    List.Forall₂ (fun key result => ∀ k ∈ acquiredKey result, k = key) keys results := by
  obtain ⟨-, hlends⟩ := h.lends hkeys
  refine forall₂_of_result? h.results hlends.sources fun c hc result hstate k hk => ?_
  cases result with
  | ok asset =>
    cases hk
    exact hlends.own c hc asset hstate
  | error fault => cases hk

end

end CacheScene

end TimelineExport
